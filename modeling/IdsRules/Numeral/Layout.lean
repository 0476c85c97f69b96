import IdsRules.Numeral.Shortest

/-!
# How floating-point numbers are written

The digits of a number are those of its shortest decimal; where the point goes,
and when an exponent is used instead, are choices of the format. They are
collected in one record, so that reading the number back does not depend on
them: every layout writes the same digits and the same value.
-/

namespace IdsRules.Numeral

/-- The choices in writing a floating-point number. -/
structure Layout where
  /-- The least decimal exponent that is written with a point alone. -/
  leastPositional : Int
  /-- The least decimal exponent above those written with a point alone. -/
  leastScientific : Int
  /-- The least number of digits of an exponent. -/
  exponentWidth : Nat
  infinity : Text
  nan : Text

/-- Numbers in documents: `0.0001` and `1e-05`, `1000000000000000.0` and
`1e+16`. A whole number keeps a zero behind the point, and an exponent has a
sign and at least two digits. -/
def Layout.document : Layout where
  leastPositional := -4
  leastScientific := 16
  exponentWidth := 2
  infinity := "inf".toList
  nan := "nan".toList

namespace Layout

/-- The digits without zeros at the end; one digit is always kept. -/
def significantDigits (n : Nat) : Text :=
  match (naturalText n).reverse.dropWhile (· = '0') with
  | [] => ['0']
  | ds => ds.reverse

/-- Digits with a point after the first `point` of them, filled with zeros so
that a digit stands on each side of the point. -/
def positional (digits : Text) (point : Int) : Text :=
  if point ≤ 0 then '0' :: '.' :: (List.replicate (-point).toNat '0' ++ digits)
  else if digits.length ≤ point.toNat then
    digits ++ List.replicate (point.toNat - digits.length) '0' ++ ['.', '0']
  else digits.take point.toNat ++ '.' :: digits.drop point.toNat

/-- An exponent with its sign and at least `width` digits. -/
def exponentText (width : Nat) (e : Int) : Text :=
  let digits := naturalText e.natAbs
  (if e < 0 then '-' else '+') :: (List.replicate (width - digits.length) '0' ++ digits)

/-- Digits with a point after the first, and an exponent. -/
def scientific (width : Nat) (digits : Text) (e : Int) : Text :=
  match digits with
  | [] => []
  | [d] => d :: 'e' :: exponentText width e
  | d :: ds => d :: '.' :: (ds ++ 'e' :: exponentText width e)

def magnitude (layout : Layout) (d : Decimal) : Text :=
  let digits := significantDigits d.significand
  let point := (naturalText d.significand).length + d.exponent
  if layout.leastPositional ≤ point - 1 ∧ point - 1 < layout.leastScientific then
    positional digits point
  else scientific layout.exponentWidth digits (point - 1)

/-- A text with a minus sign in front if the number is negative. -/
def withSign (negative : Bool) (s : Text) : Text :=
  if negative then '-' :: s else s

/-- The text of a number; a negative zero keeps its sign, and `nan` has none. -/
def write (layout : Layout) : Binary64 → Text
  | .nan => layout.nan
  | .infinite negative => withSign negative layout.infinity
  | .finite negative rank =>
    withSign negative (layout.magnitude (Binary64.shortestDecimal rank.val))

end Layout

/-- The text of a number in documents. -/
def Binary64.text (x : Binary64) : Text :=
  Layout.document.write x

end IdsRules.Numeral
