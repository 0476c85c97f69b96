import IdsRules.Numeral.Fault

/-!
# Integers of 64 bits

`readInt64` reads the integer values of rule options. It has three answers:
an integer, no integer, or a fault. The number of significant digits is looked
at first, so that a numeral with more than nineteen of them is no 64-bit
integer whatever its length; a shorter one that is padded with zeros beyond
the digit limit is a fault. One line feed may follow the numeral, and it counts
as a significant digit.
-/

namespace IdsRules.Numeral

/-- The integers that have a 64-bit two's complement form. -/
def isInt64 (n : Int) : Bool :=
  -(Nat.pow 2 63 : Nat) ≤ n && n ≤ (Nat.pow 2 63 : Nat) - 1

/-- The number of digits of the largest 64-bit integer. -/
def int64Digits : Nat := 19

/-- The value of a numeral, if it does not have too many digits. -/
def IntegerNumeral.evaluate (m : IntegerNumeral) : Except Fault Int :=
  if digitLimit < m.digits.length then .error (.tooManyDigits m.digits.length) else .ok m.value

/-- The value of a numeral as a 64-bit integer, where `extra` characters count
as significant besides its digits. -/
def IntegerNumeral.int64 (m : IntegerNumeral) (extra : Nat) : Except Fault (Option Int) :=
  if int64Digits < m.significant.length + extra then .ok none
  else
    match m.evaluate with
    | .error fault => .error fault
    | .ok n => .ok (if isInt64 n then some n else none)

/-- Reads an integer numeral of any size, which one line feed may follow. -/
def readInteger (s : Text) : Except Fault (Option Int) :=
  match IntegerNumeral.parse? (Text.chomp s) with
  | none => .ok none
  | some m =>
    match m.evaluate with
    | .error fault => .error fault
    | .ok n => .ok (some n)

/-- Reads a 64-bit integer; absent when the text is no integer numeral or its
value does not fit. -/
def readInt64 (s : Text) : Except Fault (Option Int) :=
  match IntegerNumeral.parse? (Text.chomp s) with
  | none => .ok none
  | some m => m.int64 (s.length - (Text.chomp s).length)

/-- An integer that is read fits in 64 bits. -/
theorem isInt64_of_readInt64 {s : Text} {n : Int} (h : readInt64 s = .ok (some n)) :
    isInt64 n = true := by
  unfold readInt64 at h
  split at h
  · simp at h
  · unfold IntegerNumeral.int64 at h
    split at h
    · simp at h
    · split at h
      · simp at h
      · by_cases hn : isInt64 ‹Int› = true
        · simp only [hn, if_true, Except.ok.injEq, Option.some.injEq] at h
          exact h ▸ hn
        · simp [hn] at h

end IdsRules.Numeral
