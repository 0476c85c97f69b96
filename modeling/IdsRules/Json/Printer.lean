import IdsRules.Json.Basic
import IdsRules.Numeral.Layout
import IdsRules.Text.Hexadecimal

/-!
# Writing JSON

A value is written in one of two layouts. The compact layout has no blank
outside strings; the indented one starts a line for every item and every
member, indents it by two spaces for each open container, and puts a space
after each colon. An empty container is written without a line break in both.
The two layouts are one function: it asks its layout for the text of a line
break and of a colon and decides nothing else.

Strings escape the double quote, the backslash and the characters below the
space, and write all other characters as they are.

Not every value can be written: `nan` and the infinities have no JSON token,
and an integer with more digits than a conversion accepts has no numeral.
`Json.faults` lists these obstacles in the order of the text, and `encode`
answers with the first of them.
-/

namespace IdsRules.Json

open Numeral

/-- The two ways to lay a document out. -/
inductive Layout where
  /-- On one line, without blanks. -/
  | compact
  /-- One item or member on a line. -/
  | indented
deriving DecidableEq, Repr

/-- What stands in front of an item at a depth, and in front of the bracket
that closes a container at that depth. -/
def Layout.lineBreak : Layout → (depth : Nat) → Text
  | .compact, _ => []
  | .indented, depth => '\n' :: List.replicate (2 * depth) ' '

def Layout.colon : Layout → Text
  | .compact => [':']
  | .indented => [':', ' ']

/-- How one character is written inside a string. -/
def escapeChar (c : Char) : Text :=
  if c = '"' then ['\\', '"']
  else if c = '\\' then ['\\', '\\']
  else if c = '\n' then ['\\', 'n']
  else if c = '\r' then ['\\', 'r']
  else if c = '\t' then ['\\', 't']
  else if c = '\x0C' then ['\\', 'f']
  else if c = '\x08' then ['\\', 'b']
  else if c.toNat < 0x20 then '\\' :: 'u' :: Text.hexadecimal 4 c.toNat
  else [c]

def stringText (s : Text) : Text :=
  '"' :: (s.flatMap escapeChar ++ ['"'])

def truthText (b : Bool) : Text :=
  if b then "true".toList else "false".toList

mutual

/-- The text of a value that stands at a depth. -/
def write (layout : Layout) (depth : Nat) : Json → Text
  | .null => "null".toList
  | .bool b => truthText b
  | .integer n => integerText n
  | .float x => x.text
  | .string s => stringText s
  | .array [] => ['[', ']']
  | .array (item :: items) =>
    '[' :: (layout.lineBreak (depth + 1) ++ write layout (depth + 1) item
      ++ writeItems layout depth items)
  | .object [] => ['\x7B', '\x7D']
  | .object ((name, value) :: members) =>
    '\x7B' :: (layout.lineBreak (depth + 1) ++ (stringText name ++ layout.colon
      ++ write layout (depth + 1) value) ++ writeMembers layout depth members)

/-- The items after the first, and the bracket that closes the array. -/
def writeItems (layout : Layout) (depth : Nat) : List Json → Text
  | [] => layout.lineBreak depth ++ [']']
  | item :: items =>
    ',' :: (layout.lineBreak (depth + 1) ++ write layout (depth + 1) item
      ++ writeItems layout depth items)

/-- The members after the first, and the brace that closes the object. -/
def writeMembers (layout : Layout) (depth : Nat) : List (Text × Json) → Text
  | [] => layout.lineBreak depth ++ ['\x7D']
  | (name, value) :: members =>
    ',' :: (layout.lineBreak (depth + 1) ++ (stringText name ++ layout.colon
      ++ write layout (depth + 1) value) ++ writeMembers layout depth members)

end

def text (layout : Layout) (value : Json) : Text :=
  write layout 0 value

inductive EncodeError where
  | notFinite (x : Binary64)
  /-- An integer with more digits than a conversion accepts. -/
  | tooManyDigits
deriving DecidableEq, Repr

/-- The message for a fault. The number is named in the indented layout only. -/
def EncodeError.message (layout : Layout) : EncodeError → Text
  | .notFinite x =>
    "Out of range float values are not JSON compliant".toList ++
      match layout with
      | .compact => []
      | .indented => ": ".toList ++ x.text
  | .tooManyDigits =>
    "Exceeds the limit (4300 digits) for integer string conversion; ".toList
      ++ "use sys.set_int_max_str_digits() to increase the limit".toList

mutual

/-- The faults of a value in the order of its text. -/
def faults : Json → List EncodeError
  | .integer n => if digitLimit < (naturalText n.natAbs).length then [.tooManyDigits] else []
  | .float x => if x.isFinite then [] else [.notFinite x]
  | .array items => faultsOfItems items
  | .object members => faultsOfMembers members
  | _ => []

def faultsOfItems : List Json → List EncodeError
  | [] => []
  | item :: items => faults item ++ faultsOfItems items

def faultsOfMembers : List (Text × Json) → List EncodeError
  | [] => []
  | (_, value) :: members => faults value ++ faultsOfMembers members

end

/-- The text of a document, or the first fault in it. -/
def encode (layout : Layout) (value : Json) : Except EncodeError Text :=
  match faults value with
  | [] => .ok (text layout value)
  | fault :: _ => .error fault

theorem encode_eq_ok_iff {layout : Layout} {value : Json} {s : Text} :
    encode layout value = .ok s ↔ faults value = [] ∧ s = text layout value := by
  unfold encode
  cases hf : faults value with
  | nil => simp [eq_comm]
  | cons f fs => simp

theorem encode_eq_error_iff {layout : Layout} {value : Json} {fault : EncodeError} :
    encode layout value = .error fault ↔ (faults value).head? = some fault := by
  unfold encode
  cases hf : faults value with
  | nil => simp
  | cons f fs => simp

end IdsRules.Json
