import IdsRules.Text.Basic

/-!
# UTF-8

`encode` writes a text as UTF-8 bytes. `decode` reads any bytes at all: each
maximal subpart of an ill-formed sequence becomes one replacement character,
so decoding never fails and a damaged character never takes more than its own
bytes with it.

The decoder is a state machine over the bytes. Its state says what is still
owed: nothing, or a number of continuation bytes, with the range that the next
one has to lie in. Only the first continuation byte can have a range narrower
than `80..BF`; this is what excludes overlong forms, surrogates, and values
above `10FFFF`. A byte outside the range ends the open sequence with one
replacement character and is then read again as a first byte.
-/

namespace IdsRules

namespace Utf8

/-- The replacement character, which stands for bytes that are no character. -/
def replacement : Char := '\uFFFD'

def encodeChar (c : Char) : List UInt8 :=
  let n := c.toNat
  if n < 0x80 then [n.toUInt8]
  else if n < 0x800 then [(0xC0 + n / 0x40).toUInt8, (0x80 + n % 0x40).toUInt8]
  else if n < 0x10000 then
    [(0xE0 + n / 0x1000).toUInt8, (0x80 + n / 0x40 % 0x40).toUInt8, (0x80 + n % 0x40).toUInt8]
  else
    [(0xF0 + n / 0x40000).toUInt8, (0x80 + n / 0x1000 % 0x40).toUInt8,
      (0x80 + n / 0x40 % 0x40).toUInt8, (0x80 + n % 0x40).toUInt8]

def encode (s : Text) : List UInt8 :=
  s.flatMap encodeChar

@[simp] theorem encode_nil : encode [] = [] := rfl

theorem encode_cons (c : Char) (s : Text) : encode (c :: s) = encodeChar c ++ encode s := rfl

/-- The range that the next continuation byte has to lie in. -/
inductive Next where
  | any
  /-- After `E0`: at least `A0`, or the form is overlong. -/
  | fromA0
  /-- After `ED`: at most `9F`, or the value is a surrogate. -/
  | upTo9F
  /-- After `F0`: at least `90`, or the form is overlong. -/
  | from90
  /-- After `F4`: at most `8F`, or the value is above `10FFFF`. -/
  | upTo8F
deriving DecidableEq, Repr

def Next.allows : Next → Nat → Bool
  | .any, b => 0x80 ≤ b && b ≤ 0xBF
  | .fromA0, b => 0xA0 ≤ b && b ≤ 0xBF
  | .upTo9F, b => 0x80 ≤ b && b ≤ 0x9F
  | .from90, b => 0x90 ≤ b && b ≤ 0xBF
  | .upTo8F, b => 0x80 ≤ b && b ≤ 0x8F

/-- No range reaches below the continuation bytes. -/
theorem Next.allows_eq_false {b : Nat} (h : b < 0x80) (next : Next) : next.allows b = false := by
  cases next <;> simp [allows] <;> omega

/-- What the decoder is in the middle of. -/
inductive State where
  | ready
  /-- Inside a sequence: the next byte has to lie in `next`, `more` continuation
  bytes are owed after it, and the bits read so far are `value`. -/
  | owing (more : Nat) (next : Next) (value : Nat)
deriving DecidableEq, Repr

/-- The state after a first byte, with the characters that are complete. -/
def start (b : Nat) : State × Text :=
  if b < 0x80 then (.ready, [Char.ofNat b])
  else if 0xC2 ≤ b ∧ b ≤ 0xDF then (.owing 0 .any (b - 0xC0), [])
  else if b = 0xE0 then (.owing 1 .fromA0 0, [])
  else if b = 0xED then (.owing 1 .upTo9F 0xD, [])
  else if 0xE1 ≤ b ∧ b ≤ 0xEF then (.owing 1 .any (b - 0xE0), [])
  else if b = 0xF0 then (.owing 2 .from90 0, [])
  else if b = 0xF4 then (.owing 2 .upTo8F 4, [])
  else if 0xF1 ≤ b ∧ b ≤ 0xF3 then (.owing 2 .any (b - 0xF0), [])
  else (.ready, [replacement])

def step : State → UInt8 → State × Text
  | .ready, b => start b.toNat
  | .owing more next value, b =>
    if next.allows b.toNat then
      match more with
      | 0 => (.ready, [Char.ofNat (value * 0x40 + (b.toNat - 0x80))])
      | more + 1 => (.owing more .any (value * 0x40 + (b.toNat - 0x80)), [])
    else ((start b.toNat).1, replacement :: (start b.toNat).2)

/-- What the end of the input adds: an open sequence is ill-formed. -/
def finish : State → Text
  | .ready => []
  | .owing .. => [replacement]

/-- The text of the bytes, read from a given state to the end. -/
def decodeFrom : State → List UInt8 → Text
  | state, [] => finish state
  | state, b :: bytes =>
    (step state b).2 ++ decodeFrom (step state b).1 bytes

def decode (bytes : List UInt8) : Text :=
  decodeFrom .ready bytes

@[simp] theorem decode_nil : decode [] = [] := rfl

theorem decodeFrom_cons (state : State) (b : UInt8) (bytes : List UInt8) :
    decodeFrom state (b :: bytes) =
      (step state b).2 ++ decodeFrom (step state b).1 bytes := rfl

/-- A byte below `80` closes whatever is open and is then the character of its
own value, so it is never swallowed by what stands in front of it. -/
theorem decodeFrom_cons_ascii (state : State) {b : UInt8} (h : b.toNat < 0x80)
    (bytes : List UInt8) :
    decodeFrom state (b :: bytes) = finish state ++ Char.ofNat b.toNat :: decode bytes := by
  cases state with
  | ready => simp [decodeFrom_cons, step, start, h, finish, decode]
  | owing more next value =>
    simp [decodeFrom_cons, step, start, h, Next.allows_eq_false h, finish, decode]

end Utf8

end IdsRules
