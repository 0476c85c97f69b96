import IdsRules.Numeral.Decimal
import IdsRules.Numeral.Integer
import IdsRules.Numeral.Special

/-!
# Values of rule options

The text of an option value is typed by its form alone: a 64-bit integer, then
a special number, then a finite floating-point number, and a text in every
remaining case. An integer that does not fit in 64 bits is read as a
floating-point number, and a numeral too large for a finite one stays a text,
so no numeral becomes an infinity. Reading fails only on the two kinds of
numeral that `Numeral.Fault` describes.

An option without a value is a flag.
-/

namespace IdsRules

open Numeral

inductive OptionValue where
  /-- A truth value; an option without a value is set. -/
  | flag (set : Bool)
  | integer (n : Int)
  | float (x : Binary64)
  | text (s : Text)
deriving DecidableEq, Repr

namespace OptionValue

/-- Types a text that is no integer: a special number, a finite number, or the
text itself. -/
def readNonInteger (s : Text) : Except Numeral.Fault OptionValue :=
  match SpecialNumeral.parse? (Text.chomp s) with
  | some m => if m.plain then .ok (.float m.value) else .error (.notANumber s)
  | none =>
    match Decimal.parse? (Text.chomp s) with
    | some d => .ok (if d.toBinary64.isFinite then .float d.toBinary64 else .text s)
    | none => .ok (.text s)

/-- The value that a text denotes. -/
def read (s : Text) : Except Numeral.Fault OptionValue :=
  match readInt64 s with
  | .error fault => .error fault
  | .ok (some n) => .ok (.integer n)
  | .ok none => readNonInteger s

/-- The number that an option contributes where an integer is asked for: an
integer is itself, a text that is a 64-bit numeral is its value, and everything
else, a flag included, is zero. -/
def toInteger : OptionValue → Except Numeral.Fault Int
  | .integer n => .ok n
  | .text s => (readInt64 s).map fun n => n.getD 0
  | .flag _ => .ok 0
  | .float _ => .ok 0

def text? : OptionValue → Option Text
  | .text s => some s
  | _ => none

/-- The integer that a value is, where a truth value counts as zero or one. -/
def integer? : OptionValue → Option Int
  | .flag set => some (if set then 1 else 0)
  | .integer n => some n
  | _ => none

/-- Equality of values. Truth values, integers and floating-point numbers are compared as
numbers, and a text equals itself only. -/
def agrees : OptionValue → OptionValue → Bool
  | .text s, .text t => s == t
  | .float x, .float y => x.agrees y
  | .float x, w => w.integer?.any x.isInteger
  | v, .float y => v.integer?.any y.isInteger
  | v, w => v.integer?.any fun n => w.integer? == some n

/-- Every value but `nan` equals itself. -/
theorem agrees_self_iff (v : OptionValue) : agrees v v = true ↔ v ≠ .float .nan := by
  cases v <;> simp [agrees, integer?, Binary64.agrees_self_iff]

example : agrees (.integer 1) (.flag true) = true := by decide

end OptionValue

end IdsRules
