import IdsRules.Numeral.Digits
import IdsRules.Text.Quoted

/-!
# What can go wrong with a numeral

Most texts that are not numerals are simply texts. A numeral is at fault only
when it has the form of a number and still cannot be converted: when it has
more digits than a conversion accepts, or when it spells an infinity with a
letter that no number has.
-/

namespace IdsRules.Numeral

/-- The reasons why a numeral has no value. -/
inductive Fault where
  /-- The numeral has this many digits, which is more than `digitLimit`. -/
  | tooManyDigits (count : Nat)
  /-- The text matches a special value only when the case of its letters is
  ignored in a way that numbers do not. -/
  | notANumber (text : Text)
deriving DecidableEq, Repr

def Fault.message : Fault → Text
  | .tooManyDigits count =>
    "Exceeds the limit (4300 digits) for integer string conversion: value has ".toList
      ++ naturalText count
      ++ " digits; use sys.set_int_max_str_digits() to increase the limit".toList
  | .notANumber text => "could not convert string to float: ".toList ++ Text.quoted text

end IdsRules.Numeral
