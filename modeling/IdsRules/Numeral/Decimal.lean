import IdsRules.Numeral.Digits
import IdsRules.Numeral.Rounding

/-!
# Decimal numbers and their numerals

A decimal number is a sign, a significand and a power of ten. Its numerals
have digits with at most one point among them, where digits may be missing on
one side of the point but not on both, and an optional exponent. All digits are
ASCII.

`Decimal.toBinary64` rounds a decimal to the nearest binary number. The power
of ten is computed exactly, except where the answer is plain without it: an
exponent so large that every nonzero significand overflows, or so small that
the significand cannot bring the value back above half the least magnitude.
-/

namespace IdsRules.Numeral

/-- The number `± significand * 10 ^ exponent`. -/
structure Decimal where
  /-- Whether the sign is a minus; a zero has a sign too. -/
  negative : Bool
  significand : Nat
  /-- The power of ten. -/
  exponent : Int
deriving DecidableEq, Repr

namespace Decimal

/-- Reads what follows the digits: nothing, or `e` with an integer numeral. -/
def readExponent? : Text → Option Int
  | [] => some 0
  | c :: s =>
    if c = 'e' ∨ c = 'E' then (IntegerNumeral.parse? s).map IntegerNumeral.value else none

/-- Splits off the digits behind a point, if there is a point. -/
def splitFraction : Text → Text × Text
  | [] => ([], [])
  | c :: s => if c = '.' then (s.takeWhile Char.isDigit, s.dropWhile Char.isDigit) else ([], c :: s)

/-- Reads a text that is a decimal numeral from end to end. -/
def parse? (s : Text) : Option Decimal :=
  let (negative, s) := splitSign s
  let whole := s.takeWhile Char.isDigit
  let (fraction, s) := splitFraction (s.dropWhile Char.isDigit)
  if whole = [] ∧ fraction = [] then none
  else
    (readExponent? s).map fun e =>
      ⟨negative, naturalOf (whole ++ fraction), e - fraction.length⟩

def quotient (d : Decimal) : Nat × Nat :=
  if 0 ≤ d.exponent then (d.significand * Nat.pow 10 d.exponent.toNat, 1)
  else (d.significand, Nat.pow 10 (-d.exponent).toNat)

def toBinary64 (d : Decimal) : Binary64 :=
  if d.significand = 0 then .zero d.negative
  else if 400 < d.exponent then .infinite d.negative
  else if d.exponent < -((d.significand.log2 : Int) + 500) then .zero d.negative
  else .ofQuotient d.negative d.quotient.1 d.quotient.2

example : (parse? "-1.50e3".toList) = some ⟨true, 150, 1⟩ := by decide +kernel

example : parse? ".".toList = none ∧ parse? "1e".toList = none ∧ parse? "".toList = none := by
  decide +kernel

end Decimal

end IdsRules.Numeral
