import IdsRules.Numeral.Decimal

/-!
# The shortest decimal that reads back

The decimal shown for a finite binary number is the one with the fewest digits
among those that round to the number, and of several with the same number of
digits the nearest one; a tie goes to the even digit.

For each number of digits the candidates are the two neighbours of the value
on the grid of decimals with that many digits, so the search asks at most two
questions for each of the lengths from 1 to 17. Whether a candidate is good is
asked of the rounding itself, so a decimal that is found reads back by
construction. The exact decimal expansion stands behind the search: it always
reads back.
-/

namespace IdsRules.Numeral.Binary64

/-- The position of the decimal point: the `k` with `10 ^ (k - 1) ≤ num / den`
and `num / den < 10 ^ k`. -/
def decimalPoint (num den : Nat) : Int :=
  if den ≤ num then (naturalText (num / den)).length
  else
    let zeros := (naturalText (den / num)).length
    if den ≤ num * Nat.pow 10 (zeros - 1) then 2 - zeros else 1 - zeros

/-- The quotient `num / den` divided by `10 ^ e`, again as a quotient. -/
def scaleDecimal (num den : Nat) (e : Int) : Nat × Nat :=
  if 0 ≤ e then (num, den * Nat.pow 10 e.toNat) else (num * Nat.pow 10 (-e).toNat, den)

/-- Whether a decimal reads back as the magnitude of a rank. -/
def readsBack (rank : Nat) (d : Decimal) : Bool :=
  match d.toBinary64 with
  | .finite _ r => r.val == rank
  | _ => false

/-- The best decimal with `n` digits that reads back, if there is one. -/
def decimalOfLength? (rank n : Nat) : Option Decimal :=
  let (num, den) := quotient rank
  let e := decimalPoint num den - n
  let (p, q) := scaleDecimal num den e
  let low : Decimal := ⟨false, p / q, e⟩
  let high : Decimal := ⟨false, p / q + 1, e⟩
  match readsBack rank low, readsBack rank high with
  | true, true => some ⟨false, roundDiv p q, e⟩
  | true, false => some low
  | false, true => some high
  | false, false => none

/-- The exact decimal expansion of the magnitude of a rank: a power of two with
a negative exponent is a power of five over a power of ten. -/
def exactDecimal (rank : Nat) : Decimal :=
  let e := exponent rank
  if 0 ≤ e then ⟨false, significand rank * Nat.pow 2 e.toNat, 0⟩
  else ⟨false, significand rank * Nat.pow 5 (-e).toNat, e⟩

/-- The shortest decimal that reads back as the magnitude of a rank. -/
def shortestDecimal (rank : Nat) : Decimal :=
  if rank = 0 then ⟨false, 0, 0⟩
  else ((List.range' 1 17).findSome? (decimalOfLength? rank)).getD (exactDecimal rank)

/-- A decimal that the search finds for a length reads back. -/
theorem readsBack_decimalOfLength? {rank n : Nat} {d : Decimal}
    (h : decimalOfLength? rank n = some d) : readsBack rank d = true := by
  simp only [decimalOfLength?] at h
  split at h
  · rename_i h₁ h₂
    cases h
    rcases roundDiv_eq_or _ _ with hr | hr <;> rw [hr] <;> assumption
  · cases h; assumption
  · cases h; assumption
  · cases h

end IdsRules.Numeral.Binary64
