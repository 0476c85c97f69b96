import Mathlib.Algebra.Order.Field.Power
import Mathlib.Tactic.Linarith
import Mathlib.Tactic.Positivity
import Mathlib.Tactic.Ring
import IdsRules.Numeral.Rounding

/-!
# Rounding depends on the value of a quotient only

The rank nearest to `num / den` is computed from the two numbers, by a guess at
the binary exponent from their lengths that is put right afterwards. Here it is
shown to depend on the rational number `num / den` alone. What carries this is
`IsBinaryExponent`, which says of a rational number which exponent it has: the
exponent that is computed satisfies it, and no other does. A magnitude of the
format is its own nearest one.
-/

namespace IdsRules.Numeral

/-- The significand of `q` counts in units of `2 ^ e`: it has 53 bits, or fewer
where `e` is the least exponent. -/
structure IsBinaryExponent (q : ℚ) (e : ℤ) : Prop where
  least : -1074 ≤ e
  lt : q < 2 ^ 53 * 2 ^ e
  le : e = -1074 ∨ 2 ^ 52 * 2 ^ e ≤ q

theorem IsBinaryExponent.le_of {q : ℚ} {e e' : ℤ} (h : IsBinaryExponent q e)
    (h' : IsBinaryExponent q e') : e' ≤ e := by
  rcases h'.le with hleast | hle
  · rw [hleast]
    exact h.least
  · by_contra hlt
    have hstep : e + 1 ≤ e' := by omega
    have hpow : (2 : ℚ) ^ (e + 1) ≤ 2 ^ e' := zpow_le_zpow_right₀ (by norm_num) hstep
    rw [zpow_add_one₀ (by norm_num)] at hpow
    have hq := h.lt
    linarith

/-- A number has one binary exponent. -/
theorem IsBinaryExponent.unique {q : ℚ} {e e' : ℤ} (h : IsBinaryExponent q e)
    (h' : IsBinaryExponent q e') : e = e' :=
  le_antisymm (h'.le_of h) (h.le_of h')

/-! ## Scaling -/

theorem zpow_of_nonneg (x : ℚ) {e : ℤ} (he : 0 ≤ e) : x ^ e = x ^ e.toNat := by
  rw [← zpow_natCast, Int.toNat_of_nonneg he]

theorem zpow_of_not_nonneg (x : ℚ) {e : ℤ} (he : ¬0 ≤ e) : x ^ e = (x ^ (-e).toNat)⁻¹ := by
  rw [← zpow_natCast, Int.toNat_of_nonneg (by omega), zpow_neg, inv_inv]

-- The definitions have `Nat.pow`, and here `^` is the power of a monoid. The
-- lemmas in `_eq` say once that this is the same.
theorem scaleBinary_eq (num den : Nat) (e : Int) :
    scaleBinary num den e =
      if 0 ≤ e then (num, den * 2 ^ e.toNat) else (num * 2 ^ (-e).toNat, den) := rfl

theorem scaleBinary_den_pos (num : Nat) {den : Nat} (hden : 0 < den) (e : Int) :
    0 < (scaleBinary num den e).2 := by
  rw [scaleBinary_eq]
  split
  · exact Nat.mul_pos hden (by positivity)
  · exact hden

theorem ratio_scaleBinary (num den : Nat) (e : Int) :
    ((scaleBinary num den e).1 : ℚ) / (scaleBinary num den e).2 = num / den / 2 ^ e := by
  rw [scaleBinary_eq]
  by_cases he : 0 ≤ e
  · rw [if_pos he, zpow_of_nonneg 2 he]
    push_cast
    rw [div_div]
  · rw [if_neg he, zpow_of_not_nonneg 2 he]
    push_cast
    rw [div_inv_eq_mul, div_mul_eq_mul_div]

/-- The integer part of a quotient against a bound. -/
theorem le_div_iff_le_ratio {n d k : Nat} (hd : 0 < d) : k ≤ n / d ↔ (k : ℚ) ≤ n / d := by
  rw [Nat.le_div_iff_mul_le hd, le_div_iff₀ (by exact_mod_cast hd)]
  exact_mod_cast Iff.rfl

theorem le_scaled_iff (num : Nat) {den : Nat} (hden : 0 < den) (e : Int) (k : Nat) :
    k ≤ (scaleBinary num den e).1 / (scaleBinary num den e).2 ↔
      (k : ℚ) * 2 ^ e ≤ num / den := by
  rw [le_div_iff_le_ratio (scaleBinary_den_pos num hden e), ratio_scaleBinary,
    le_div_iff₀ (by positivity)]

/-! ## The exponent that is computed -/

theorem cast_lt_two_zpow (n : Nat) : (n : ℚ) < 2 ^ ((n.log2 : ℤ) + 1) := by
  have h : n < 2 ^ (n.log2 + 1) := Nat.lt_log2_self
  exact_mod_cast h

theorem two_zpow_le_cast {n : Nat} (hn : n ≠ 0) : (2 : ℚ) ^ (n.log2 : ℤ) ≤ n := by
  have h : 2 ^ n.log2 ≤ n := Nat.log2_self_le hn
  exact_mod_cast h

theorem two_pow_mul_two_zpow (k : Nat) (e : ℤ) : (2 : ℚ) ^ k * 2 ^ e = 2 ^ (k + e) := by
  rw [zpow_add₀ (by norm_num), zpow_natCast]

theorem two_zpow_mono {a b : ℤ} (h : a ≤ b) : (2 : ℚ) ^ a ≤ 2 ^ b :=
  zpow_le_zpow_right₀ (by norm_num) h

/-- The lengths of two numbers bound their quotient from above. -/
theorem ratio_lt_two_zpow (num : Nat) {den : Nat} (hden : den ≠ 0) :
    (num : ℚ) / den < 2 ^ ((num.log2 : ℤ) - den.log2 + 1) := by
  have hpos : (0 : ℚ) < den := by exact_mod_cast Nat.pos_of_ne_zero hden
  have hsum : (2 : ℚ) ^ ((num.log2 : ℤ) + 1)
      = 2 ^ ((num.log2 : ℤ) - den.log2 + 1) * 2 ^ (den.log2 : ℤ) := by
    rw [← zpow_add₀ (by norm_num)]
    congr 1
    ring
  rw [div_lt_iff₀ hpos]
  calc (num : ℚ) < 2 ^ ((num.log2 : ℤ) - den.log2 + 1) * 2 ^ (den.log2 : ℤ) :=
        hsum ▸ cast_lt_two_zpow num
    _ ≤ 2 ^ ((num.log2 : ℤ) - den.log2 + 1) * den :=
        mul_le_mul_of_nonneg_left (two_zpow_le_cast hden) (by positivity)

/-- The lengths of two numbers bound their quotient from below. -/
theorem two_zpow_lt_ratio {num den : Nat} (hnum : num ≠ 0) (hden : den ≠ 0) :
    (2 : ℚ) ^ ((num.log2 : ℤ) - den.log2 - 1) < num / den := by
  have hpos : (0 : ℚ) < den := by exact_mod_cast Nat.pos_of_ne_zero hden
  have hsum : (2 : ℚ) ^ ((num.log2 : ℤ) - den.log2 - 1) * 2 ^ ((den.log2 : ℤ) + 1)
      = 2 ^ (num.log2 : ℤ) := by
    rw [← zpow_add₀ (by norm_num)]
    congr 1
    ring
  rw [lt_div_iff₀ hpos]
  calc (2 : ℚ) ^ ((num.log2 : ℤ) - den.log2 - 1) * den
      < 2 ^ ((num.log2 : ℤ) - den.log2 - 1) * 2 ^ ((den.log2 : ℤ) + 1) :=
        mul_lt_mul_of_pos_left (cast_lt_two_zpow den) (by positivity)
    _ ≤ num := hsum ▸ two_zpow_le_cast hnum

/-- A guess that is the exponent or one below it is put right by one
comparison. -/
theorem IsBinaryExponent.of_guess {q : ℚ} {g : ℤ} (hupper : q < 2 ^ (g + 54))
    (hlower : 2 ^ (g + 52) < q) :
    IsBinaryExponent q
      (if 2 ^ 53 * 2 ^ max g (-1074) ≤ q then max g (-1074) + 1 else max g (-1074)) := by
  split
  next hbig =>
      have hguess : max g (-1074) = g := by
        apply max_eq_left
        by_contra hlt
        have hsmall : (2 : ℚ) ^ (g + 54) ≤ 2 ^ ((53 : ℕ) + max g (-1074)) :=
          two_zpow_mono (by omega)
        rw [← two_pow_mul_two_zpow] at hsmall
        linarith
      rw [hguess, two_pow_mul_two_zpow] at hbig
      rw [hguess]
      refine ⟨by omega, ?_, Or.inr ?_⟩
      · rw [two_pow_mul_two_zpow]
        exact lt_of_lt_of_le hupper (two_zpow_mono (by omega))
      · rw [two_pow_mul_two_zpow]
        exact le_trans (two_zpow_mono (by omega)) hbig
  next hsmall =>
      refine ⟨le_max_right _ _, not_le.1 hsmall, ?_⟩
      rcases le_total g (-1074) with hle | hle
      · exact Or.inl (max_eq_right hle)
      · rw [max_eq_left hle, two_pow_mul_two_zpow]
        exact Or.inr (le_trans (two_zpow_mono (by omega)) hlower.le)

/-- The exponent that is computed for a quotient is the exponent of its
value. -/
theorem isBinaryExponent_binaryExponent {num den : Nat} (hnum : num ≠ 0) (hden : 0 < den) :
    IsBinaryExponent (num / den) (binaryExponent num den) := by
  have hden' : den ≠ 0 := Nat.pos_iff_ne_zero.1 hden
  have hupper := ratio_lt_two_zpow num hden'
  have hlower := two_zpow_lt_ratio hnum hden'
  have hiff := le_scaled_iff num hden (max ((num.log2 : ℤ) - den.log2 - 53) (-1074)) (2 ^ 53)
  rw [Nat.cast_pow, Nat.cast_ofNat] at hiff
  simp only [binaryExponent, Nat.pow_eq, hiff]
  apply IsBinaryExponent.of_guess
  · convert hupper using 2
    ring
  · convert hlower using 2
    ring

/-! ## The nearest rank -/

theorem roundDiv_mul_right (num : Nat) {den c : Nat} (hc : 0 < c) :
    roundDiv (num * c) (den * c) = roundDiv num den := by
  have hlt (a b : Nat) : a * c < b * c ↔ a < b := Nat.mul_lt_mul_right hc
  simp only [roundDiv, Nat.mul_div_mul_right _ _ hc, Nat.mul_mod_mul_right, ← Nat.mul_assoc, hlt]

@[simp] theorem roundDiv_one (n : Nat) : roundDiv n 1 = n := by
  simp [roundDiv, Nat.mod_one]

/-- Rounding to an integer depends on the value of the quotient only. -/
theorem roundDiv_congr {n d n' d' : Nat} (hd : 0 < d) (hd' : 0 < d')
    (h : n * d' = n' * d) : roundDiv n d = roundDiv n' d' := by
  rw [← roundDiv_mul_right n hd', h, Nat.mul_comm d d', roundDiv_mul_right n' hd]

theorem cross_mul_iff {n d n' d' : Nat} (hd : 0 < d) (hd' : 0 < d') :
    n * d' = n' * d ↔ (n : ℚ) / d = n' / d' := by
  have hq : (d : ℚ) ≠ 0 := by exact_mod_cast hd.ne'
  have hq' : (d' : ℚ) ≠ 0 := by exact_mod_cast hd'.ne'
  rw [div_eq_div_iff hq hq']
  exact_mod_cast Iff.rfl

/-- The rank is the block of the exponent and the rounded significand, for the
one exponent that the value has. -/
theorem nearestRank_eq {num den : Nat} (hnum : num ≠ 0) (hden : 0 < den) {e : Int}
    (he : IsBinaryExponent (num / den) e) :
    nearestRank num den =
      (e + 1074).toNat * 2 ^ 52
        + roundDiv (scaleBinary num den e).1 (scaleBinary num den e).2 := by
  simp only [nearestRank, if_neg hnum, (isBinaryExponent_binaryExponent hnum hden).unique he,
    Nat.pow_eq]

/-- Equal quotients have the same nearest rank. -/
theorem nearestRank_congr {num den num' den' : Nat} (hden : 0 < den) (hden' : 0 < den')
    (h : num * den' = num' * den) : nearestRank num den = nearestRank num' den' := by
  have hratio := (cross_mul_iff hden hden').1 h
  by_cases hnum : num = 0
  · have hnum' : num' = 0 := by
      rw [hnum, Nat.zero_mul] at h
      exact (Nat.mul_eq_zero.1 h.symm).resolve_right hden.ne'
    simp [nearestRank, hnum, hnum']
  · have hnum' : num' ≠ 0 := by
      intro hzero
      rw [hzero, Nat.zero_mul] at h
      exact hnum ((Nat.mul_eq_zero.1 h).resolve_right hden'.ne')
    have he := isBinaryExponent_binaryExponent hnum hden
    rw [nearestRank_eq hnum hden he, nearestRank_eq hnum' hden' (hratio ▸ he)]
    congr 1
    apply roundDiv_congr (scaleBinary_den_pos _ hden _) (scaleBinary_den_pos _ hden' _)
    rw [cross_mul_iff (scaleBinary_den_pos _ hden _) (scaleBinary_den_pos _ hden' _),
      ratio_scaleBinary, ratio_scaleBinary, hratio]

/-! ## The ends of the range -/

theorem le_roundDiv (n d : Nat) : n / d ≤ roundDiv n d := by
  rcases roundDiv_eq_or n d with h | h <;> omega

theorem finiteCount_eq : finiteCount = 2047 * 2 ^ 52 := rfl

/-- A quotient of at least `2 ^ 1024` overflows. -/
theorem finiteCount_le_nearestRank {num den : Nat} (hden : 0 < den)
    (h : (2 : ℚ) ^ (1024 : ℤ) ≤ num / den) : finiteCount ≤ nearestRank num den := by
  have hnum : num ≠ 0 := by
    rintro rfl
    rw [Nat.cast_zero, zero_div] at h
    exact absurd h (not_le.2 (by positivity))
  have he := isBinaryExponent_binaryExponent hnum hden
  generalize binaryExponent num den = e at he
  have hlarge : 972 ≤ e := by
    by_contra hlt
    have hpow : (2 : ℚ) ^ ((53 : ℕ) + e) ≤ 2 ^ (1024 : ℤ) := two_zpow_mono (by omega)
    rw [← two_pow_mul_two_zpow] at hpow
    have hupper := he.lt
    linarith
  have hbits : ((2 ^ 52 : ℕ) : ℚ) * 2 ^ e ≤ num / den := by
    rw [Nat.cast_pow, Nat.cast_ofNat]
    exact he.le.resolve_left (by omega)
  have hfloor := (le_scaled_iff num hden e (2 ^ 52)).2 hbits
  have hround := le_trans hfloor (le_roundDiv _ _)
  have hblock : 2046 * 2 ^ 52 ≤ (e + 1074).toNat * 2 ^ 52 := by
    apply Nat.mul_le_mul_right
    omega
  rw [nearestRank_eq hnum hden he, finiteCount_eq]
  omega

/-- A quotient below half the least magnitude is rounded to zero. -/
theorem nearestRank_eq_zero {num den : Nat} (hden : 0 < den)
    (h : (num : ℚ) / den < 2 ^ (-1075 : ℤ)) : nearestRank num den = 0 := by
  by_cases hnum : num = 0
  · simp [nearestRank, hnum]
  · have he : IsBinaryExponent (num / den) (-1074) := by
      refine ⟨le_rfl, lt_trans h ?_, Or.inl rfl⟩
      rw [two_pow_mul_two_zpow]
      exact zpow_lt_zpow_right₀ (by norm_num) (by norm_num)
    have hpos := scaleBinary_den_pos num hden (-1074)
    have hhalf : 2 * (scaleBinary num den (-1074)).1 < (scaleBinary num den (-1074)).2 := by
      have hlt : ((scaleBinary num den (-1074)).1 : ℚ) / (scaleBinary num den (-1074)).2
          < 1 / 2 := by
        have hstep : (1 / 2 : ℚ) * 2 ^ (-1074 : ℤ) = 2 ^ (-1074 - 1 : ℤ) := by
          rw [zpow_sub_one₀ (by norm_num), one_div, mul_comm]
        rw [ratio_scaleBinary, div_lt_iff₀ (by positivity), hstep]
        exact h
      rw [div_lt_div_iff₀ (by exact_mod_cast hpos) (by norm_num), one_mul, mul_comm] at hlt
      exact_mod_cast hlt
    have hsmall : (scaleBinary num den (-1074)).1 < (scaleBinary num den (-1074)).2 := by omega
    rw [nearestRank_eq hnum hden he, roundDiv, Nat.div_eq_of_lt hsmall, Nat.mod_eq_of_lt hsmall,
      if_pos hhalf]
    rfl

/-! ## The magnitudes of the format -/

namespace Binary64

theorem significand_eq (rank : Nat) :
    significand rank = if rank < 2 ^ 52 then rank else 2 ^ 52 + rank % 2 ^ 52 := rfl

theorem exponent_eq (rank : Nat) :
    exponent rank = if rank < 2 ^ 52 then -1074 else ((rank / 2 ^ 52 : Nat) : Int) - 1075 := rfl

theorem quotient_eq (rank : Nat) :
    quotient rank =
      if 0 ≤ exponent rank then (significand rank * 2 ^ (exponent rank).toNat, 1)
      else (significand rank, 2 ^ (-exponent rank).toNat) := rfl

theorem quotient_den_pos (rank : Nat) : 0 < (quotient rank).2 := by
  rw [quotient_eq]
  split
  · exact Nat.one_pos
  · positivity

theorem ratio_quotient (rank : Nat) :
    ((quotient rank).1 : ℚ) / (quotient rank).2 = significand rank * 2 ^ exponent rank := by
  rw [quotient_eq]
  by_cases he : 0 ≤ exponent rank
  · rw [if_pos he, zpow_of_nonneg 2 he]
    push_cast
    rw [div_one]
  · rw [if_neg he, zpow_of_not_nonneg 2 he]
    push_cast
    rw [div_eq_mul_inv]

theorem significand_lt (rank : Nat) : significand rank < 2 ^ 53 := by
  rw [significand_eq]
  split <;> omega

theorem significand_ne_zero {rank : Nat} (h : rank ≠ 0) : significand rank ≠ 0 := by
  rw [significand_eq]
  split <;> omega

theorem isBinaryExponent_exponent (rank : Nat) :
    IsBinaryExponent (significand rank * 2 ^ exponent rank) (exponent rank) := by
  have hpos : (0 : ℚ) < 2 ^ exponent rank := by positivity
  refine ⟨?_, ?_, ?_⟩
  · rw [exponent_eq]
    split <;> omega
  · apply mul_lt_mul_of_pos_right _ hpos
    exact_mod_cast significand_lt rank
  · by_cases hrank : rank < 2 ^ 52
    · left
      rw [exponent_eq, if_pos hrank]
    · right
      apply mul_le_mul_of_nonneg_right _ hpos.le
      have hle : 2 ^ 52 ≤ significand rank := by
        rw [significand_eq, if_neg hrank]
        omega
      exact_mod_cast hle

/-- The rank is its block and its significand, where the leading bit of the
significand counts for one block. -/
theorem block_add_significand (rank : Nat) :
    (exponent rank + 1074).toNat * 2 ^ 52 + significand rank = rank := by
  rw [exponent_eq, significand_eq]
  split <;> omega

/-- A magnitude of the format is its own nearest one. -/
theorem nearestRank_quotient (rank : Nat) :
    nearestRank (quotient rank).1 (quotient rank).2 = rank := by
  have hden := quotient_den_pos rank
  have hratio := ratio_quotient rank
  by_cases hrank : rank = 0
  · subst hrank
    decide
  · have hnum : (quotient rank).1 ≠ 0 := by
      intro hzero
      rw [hzero, Nat.cast_zero, zero_div] at hratio
      have hsig : (significand rank : ℚ) ≠ 0 := by exact_mod_cast significand_ne_zero hrank
      exact mul_ne_zero hsig (by positivity) hratio.symm
    have hscaled := scaleBinary_den_pos (quotient rank).1 hden (exponent rank)
    rw [nearestRank_eq hnum hden (hratio ▸ isBinaryExponent_exponent rank)]
    have hround : roundDiv (scaleBinary (quotient rank).1 (quotient rank).2 (exponent rank)).1
        (scaleBinary (quotient rank).1 (quotient rank).2 (exponent rank)).2
        = roundDiv (significand rank) 1 := by
      apply roundDiv_congr hscaled Nat.one_pos
      rw [cross_mul_iff hscaled Nat.one_pos, ratio_scaleBinary, hratio, Nat.cast_one, div_one,
        mul_div_cancel_right₀ _ (by positivity)]
    rw [hround, roundDiv_one]
    exact block_add_significand rank

end Binary64

end IdsRules.Numeral
