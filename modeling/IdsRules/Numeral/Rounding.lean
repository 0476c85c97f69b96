import IdsRules.Numeral.Binary64

/-!
# Rounding to binary floating point

A positive quotient `num / den` is rounded to the nearest magnitude of the
format, and a tie goes to the magnitude with the even significand. The quotient
is scaled by a power of two so that its integer part is a significand, and the
scaled quotient is rounded to an integer. The rank of the result is the block
of the exponent plus that integer; when rounding carries into the next power of
two the sum is the first rank of the next block, which is the right one.
-/

namespace IdsRules.Numeral

/-- The integer nearest to a quotient; of two nearest ones, the even one. -/
def roundDiv (num den : Nat) : Nat :=
  let q := num / den
  let r := num % den
  if 2 * r < den then q
  else if den < 2 * r then q + 1
  else q + q % 2

theorem roundDiv_eq_or (num den : Nat) :
    roundDiv num den = num / den ∨ roundDiv num den = num / den + 1 := by
  simp only [roundDiv]
  split
  · exact .inl rfl
  · split
    · exact .inr rfl
    · rcases Nat.mod_two_eq_zero_or_one (num / den) with h | h <;> simp [h]

/-- The quotient `num / den` divided by `2 ^ e`, again as a quotient. -/
def scaleBinary (num den : Nat) (e : Int) : Nat × Nat :=
  if 0 ≤ e then (num, den * Nat.pow 2 e.toNat) else (num * Nat.pow 2 (-e).toNat, den)

/-- The power of two that the significand of the result counts in: the integer
part of the scaled quotient has 53 bits, or fewer where the exponent is already
the least one. The first guess is one too low when the leading bits of the
numerator are not below those of the denominator. -/
def binaryExponent (num den : Nat) : Int :=
  let e := max ((num.log2 : Int) - den.log2 - 53) (-1074)
  let (n, d) := scaleBinary num den e
  if Nat.pow 2 53 ≤ n / d then e + 1 else e

/-- The rank of the magnitude nearest to a quotient. A rank of `finiteCount` or
more is an overflow. -/
def nearestRank (num den : Nat) : Nat :=
  if num = 0 then 0
  else
    let e := binaryExponent num den
    let (n, d) := scaleBinary num den e
    (e + 1074).toNat * Nat.pow 2 52 + roundDiv n d

namespace Binary64

/-- The number of a sign and a rank, which is an infinity beyond the finite
ranks. -/
def ofRank (negative : Bool) (rank : Nat) : Binary64 :=
  if h : rank < finiteCount then .finite negative ⟨rank, h⟩ else .infinite negative

def ofQuotient (negative : Bool) (num den : Nat) : Binary64 :=
  ofRank negative (nearestRank num den)

theorem isFinite_ofRank (negative : Bool) (rank : Nat) :
    isFinite (ofRank negative rank) = decide (rank < finiteCount) := by
  by_cases h : rank < finiteCount <;> simp [ofRank, h]

end Binary64

end IdsRules.Numeral
