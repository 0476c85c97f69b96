import IdsRules.Json.Basic
import IdsRules.Numeral.Decimal
import IdsRules.Text.Hexadecimal

/-!
# JSON tokens

A JSON text is a sequence of tokens with blanks between them: the six
punctuation characters, strings, and words, where a word is a number or one of
the three literal names. `Token.read?` splits a text into its tokens.

The reader is a state machine that takes one character at a time. Its state is
the token it is inside of, with what has been read of it in reverse, so "inside
a string" is a state and not a search for the closing quote.
-/

namespace IdsRules.Json

open Numeral

inductive Token where
  | openObject
  | closeObject
  | openArray
  | closeArray
  | comma
  | colon
  | string (s : Text)
  /-- A number or a literal name, with the value that it denotes. -/
  | literal (value : Json)
deriving Repr

namespace Token

def punctuation? (c : Char) : Option Token :=
  if c = '\x7B' then some .openObject
  else if c = '\x7D' then some .closeObject
  else if c = '[' then some .openArray
  else if c = ']' then some .closeArray
  else if c = ',' then some .comma
  else if c = ':' then some .colon
  else none

def isGap (c : Char) : Bool :=
  c == ' ' || c == '\t' || c == '\n' || c == '\r'

/-- Reads a number from end to end. Its integer part has no needless zero in
front and no plus sign; a number with neither fraction nor exponent is an
integer. -/
def number? (s : Text) : Option Json :=
  let (negative, unsigned) := if s.head? = some '-' then (true, s.tail) else (false, s)
  let whole := unsigned.takeWhile Char.isDigit
  let rest := unsigned.dropWhile Char.isDigit
  if whole = [] ∨ (whole.head? = some '0' ∧ whole ≠ ['0']) then none
  else if rest = [] then some (.integer (signed negative (naturalOf whole)))
  else if rest.head? = some '.' ∧ (Decimal.splitFraction rest).1 = [] then none
  else (Decimal.parse? s).map fun d => .float d.toBinary64

def word? (s : Text) : Option Token :=
  if s = "null".toList then some (.literal .null)
  else if s = "true".toList then some (.literal (.bool true))
  else if s = "false".toList then some (.literal (.bool false))
  else (number? s).map .literal

inductive State where
  | gap
  | word (read : Text)
  /-- Inside a string; `high` is a leading surrogate that waits for its
  partner. -/
  | string (read : Text) (high : Option Nat)
  /-- Behind a backslash inside a string. -/
  | escape (read : Text) (high : Option Nat)
  /-- Inside the digits of a code unit, of which `left` are still to come. -/
  | unit (read : Text) (high : Option Nat) (left value : Nat)
deriving Repr

/-- The character that an escape of one letter stands for. -/
def escaped? (c : Char) : Option Char :=
  if c = '"' ∨ c = '\\' ∨ c = '/' then some c
  else if c = 'n' then some '\n'
  else if c = 'r' then some '\r'
  else if c = 't' then some '\t'
  else if c = 'f' then some '\x0C'
  else if c = 'b' then some '\x08'
  else none

/-- The state after a whole code unit: a leading surrogate waits, a trailing
one completes a pair, and any other unit is a character. -/
def takeUnit (read : Text) (high : Option Nat) (value : Nat) : Option State :=
  let isHigh := 0xD800 ≤ value && value ≤ 0xDBFF
  let isLow := 0xDC00 ≤ value && value ≤ 0xDFFF
  match high with
  | none =>
    if isHigh then some (.string read (some value))
    else if isLow then none
    else some (.string (Char.ofNat value :: read) none)
  | some h =>
    if isLow then
      some (.string (Char.ofNat (0x10000 + (h - 0xD800) * 0x400 + (value - 0xDC00)) :: read) none)
    else none

/-- One character between tokens. -/
def start (c : Char) : State × List Token :=
  if isGap c then (.gap, [])
  else if c = '"' then (.string [] none, [])
  else
    match punctuation? c with
    | some token => (.gap, [token])
    | none => (.word [c], [])

def endsWord (c : Char) : Bool :=
  isGap c || c == '"' || (punctuation? c).isSome

/-- One character, with the tokens that it completes; absent when the text is
no JSON text. -/
def step : State → Char → Option (State × List Token)
  | .gap, c => some (start c)
  | .word read, c =>
    if endsWord c then
      (word? read.reverse).map fun token => ((start c).1, token :: (start c).2)
    else some (.word (c :: read), [])
  | .string read high, c =>
    if c = '\\' then some (.escape read high, [])
    else if high.isSome then none
    else if c = '"' then some (.gap, [.string read.reverse])
    else if c.toNat < 0x20 then none
    else some (.string (c :: read) none, [])
  | .escape read high, c =>
    if c = 'u' then some (.unit read high 3 0, [])
    else if high.isSome then none
    else (escaped? c).map fun d => (.string (d :: read) none, [])
  | .unit read high left value, c =>
    match Text.hexadecimalDigit? c, left with
    | none, _ => none
    | some digit, 0 => (takeUnit read high (value * 16 + digit)).map fun state => (state, [])
    | some digit, left + 1 => some (.unit read high left (value * 16 + digit), [])

def finish : State → Option (List Token)
  | .gap => some []
  | .word read => (word? read.reverse).map fun token => [token]
  | _ => none

/-- The tokens of a text, read from a given state to the end. -/
def readFrom? : State → Text → Option (List Token)
  | state, [] => finish state
  | state, c :: s =>
    (step state c).bind fun r => (readFrom? r.1 s).map fun tokens => r.2 ++ tokens

def read? (s : Text) : Option (List Token) :=
  readFrom? .gap s

@[simp] theorem read?_nil : read? [] = some [] := rfl

theorem readFrom?_cons (state : State) (c : Char) (s : Text) :
    readFrom? state (c :: s) =
      (step state c).bind fun r => (readFrom? r.1 s).map fun tokens => r.2 ++ tokens := rfl

end Token

end IdsRules.Json
