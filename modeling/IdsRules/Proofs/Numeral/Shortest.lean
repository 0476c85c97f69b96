import IdsRules.Numeral.Shortest
import IdsRules.Proofs.Numeral.Decimal

/-!
# The decimal of a number reads back

The search for the shortest decimal asks the rounding about each candidate, so
what it finds reads back. When it finds nothing the exact expansion is taken,
which is the magnitude itself and reads back because a magnitude is its own
nearest one.
-/

namespace IdsRules.Numeral.Binary64

/-- A decimal reads back as a finite rank when that rank is nearest to it; the
sign plays no part. -/
theorem readsBack_iff {rank : Nat} (hrank : rank < finiteCount) (d : Decimal) :
    readsBack rank d = true ↔ nearestRank d.quotient.1 d.quotient.2 = rank := by
  rw [readsBack, Decimal.toBinary64_eq_ofRank, ofRank]
  by_cases hfinite : nearestRank d.quotient.1 d.quotient.2 < finiteCount
  · rw [dif_pos hfinite]
    exact beq_iff_eq
  · rw [dif_neg hfinite]
    constructor
    · intro h
      exact absurd h Bool.false_ne_true
    · intro h
      exact absurd (h ▸ hrank) hfinite

theorem exactDecimal_eq (rank : Nat) :
    exactDecimal rank =
      if 0 ≤ exponent rank then ⟨false, significand rank * 2 ^ (exponent rank).toNat, 0⟩
      else ⟨false, significand rank * 5 ^ (-exponent rank).toNat, exponent rank⟩ := rfl

/-- The exact expansion has the value of the magnitude: a power of five over a
power of ten is a power of two. -/
theorem value_exactDecimal (rank : Nat) :
    (exactDecimal rank).value = significand rank * 2 ^ exponent rank := by
  rw [exactDecimal_eq, Decimal.value]
  by_cases he : 0 ≤ exponent rank
  · rw [if_pos he, zpow_of_nonneg 2 he]
    push_cast
    rw [mul_one]
  · have hten : (10 : ℚ) ^ (-exponent rank).toNat
        = 2 ^ (-exponent rank).toNat * 5 ^ (-exponent rank).toNat := by
      rw [← mul_pow]
      norm_num
    rw [if_neg he, zpow_of_not_nonneg 2 he]
    dsimp only
    rw [zpow_of_not_nonneg 10 he, hten]
    push_cast
    rw [← div_eq_mul_inv, ← div_eq_mul_inv, mul_div_mul_right _ _ (by positivity)]

theorem readsBack_exactDecimal {rank : Nat} (hrank : rank < finiteCount) :
    readsBack rank (exactDecimal rank) = true := by
  have hratio : ((exactDecimal rank).quotient.1 : ℚ) / (exactDecimal rank).quotient.2
      = (quotient rank).1 / (quotient rank).2 := by
    rw [Decimal.ratio_quotient, value_exactDecimal, ratio_quotient]
  have hcross := (cross_mul_iff (Decimal.quotient_den_pos _) (quotient_den_pos rank)).2 hratio
  rw [readsBack_iff hrank, nearestRank_congr (Decimal.quotient_den_pos _)
    (quotient_den_pos rank) hcross, nearestRank_quotient]

/-- The decimal that is chosen for a finite magnitude reads back as it. -/
theorem readsBack_shortestDecimal {rank : Nat} (hrank : rank < finiteCount) :
    readsBack rank (shortestDecimal rank) = true := by
  unfold shortestDecimal
  split
  next hzero =>
      subst hzero
      rfl
  next =>
      cases hfind : (List.range' 1 17).findSome? (decimalOfLength? rank) with
      | none => exact readsBack_exactDecimal hrank
      | some d =>
          obtain ⟨n, -, hn⟩ := List.exists_of_findSome?_eq_some hfind
          exact readsBack_decimalOfLength? hn

/-- Only zero is written with a significand of zero. -/
theorem significand_shortestDecimal_ne_zero {rank : Nat} (hne : rank ≠ 0)
    (hrank : rank < finiteCount) : (shortestDecimal rank).significand ≠ 0 := by
  intro hzero
  have hread := (readsBack_iff hrank _).1 (readsBack_shortestDecimal hrank)
  have hnum : (shortestDecimal rank).quotient.1 = 0 := by
    unfold Decimal.quotient
    split <;> simp [hzero]
  rw [nearestRank, if_pos hnum] at hread
  exact hne hread.symm

/-- With the sign of a finite number, its decimal is read as the number. -/
theorem toBinary64_shortestDecimal (negative : Bool) (rank : Fin finiteCount) :
    Decimal.toBinary64 ⟨negative, (shortestDecimal rank).significand,
      (shortestDecimal rank).exponent⟩ = .finite negative rank := by
  have hread := (readsBack_iff rank.isLt _).1 (readsBack_shortestDecimal rank.isLt)
  rw [Decimal.toBinary64_eq_ofRank]
  -- the quotient of a decimal does not look at the sign
  change ofRank negative (nearestRank (shortestDecimal rank).quotient.1
    (shortestDecimal rank).quotient.2) = _
  rw [hread, ofRank, dif_pos rank.isLt]

end IdsRules.Numeral.Binary64
