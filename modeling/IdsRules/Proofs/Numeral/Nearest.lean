import IdsRules.Proofs.Numeral.Decimal

/-!
# Rounding finds the nearest number

Rounding is said here without computing it. A magnitude is nearest to a rational
number when no other one is nearer; where another one is as near, the significand
is even. The magnitudes beyond the finite ones take part in this, so a number
overflows exactly when the nearest magnitude is not finite, which is the case
from the middle between the greatest finite magnitude and the next one on.

The rank that is computed rounds to an integer in units of one power of two. The
magnitudes with a greater exponent are integers in these units as well, and
those with a smaller one stand below the first magnitude of the block, so the
nearest integer gives the nearest magnitude.
-/

namespace IdsRules.Numeral

/-! ## Rounding to an integer -/

/-- The integer is at most half away from `x`, and it is even if it is just half
away. -/
structure IsRounded (x : ℚ) (m : Nat) : Prop where
  le_half : |(m : ℚ) - x| ≤ 1 / 2
  even : |(m : ℚ) - x| = 1 / 2 → m % 2 = 0

theorem isRounded_roundDiv (n : Nat) {d : Nat} (hd : 0 < d) :
    IsRounded (n / d) (roundDiv n d) := by
  have hpos : (0 : ℚ) < d := by exact_mod_cast hd
  have hsplit : (n : ℚ) / d = (n / d : Nat) + (n % d : Nat) / d := by
    rw [div_eq_iff hpos.ne', add_mul, div_mul_cancel₀ _ hpos.ne']
    exact_mod_cast (Nat.div_add_mod' n d).symm
  have hrest : (0 : ℚ) ≤ (n % d : Nat) / d := by positivity
  have hfull : ((n % d : Nat) : ℚ) / d < 1 := by
    rw [div_lt_one hpos]
    exact_mod_cast Nat.mod_lt n hd
  have hless : 2 * (n % d) < d ↔ ((n % d : Nat) : ℚ) / d < 1 / 2 := by
    rw [div_lt_div_iff₀ hpos (by norm_num), one_mul, mul_comm]
    exact_mod_cast Iff.rfl
  have hmore : d < 2 * (n % d) ↔ 1 / 2 < ((n % d : Nat) : ℚ) / d := by
    rw [div_lt_div_iff₀ (by norm_num) hpos, one_mul, mul_comm]
    exact_mod_cast Iff.rfl
  rw [hsplit, roundDiv]
  simp only [hless, hmore]
  -- from here on the fraction behind the integer part is some number
  generalize ((n % d : Nat) : ℚ) / d = f at *
  split
  next hf =>
      have hnear : |((n / d : Nat) : ℚ) - ((n / d : Nat) + f)| < 1 / 2 := by
        rw [abs_lt]
        constructor <;> linarith
      exact ⟨hnear.le, fun heq => absurd heq hnear.ne⟩
  next =>
      split
      next hf =>
          have hnear : |((n / d + 1 : Nat) : ℚ) - ((n / d : Nat) + f)| < 1 / 2 := by
            push_cast
            rw [abs_lt]
            constructor <;> linarith
          exact ⟨hnear.le, fun heq => absurd heq hnear.ne⟩
      next =>
          refine ⟨?_, fun _ => by omega⟩
          rcases Nat.mod_two_eq_zero_or_one (n / d) with h | h <;> rw [h] <;> push_cast <;>
            rw [abs_le] <;> constructor <;> linarith

namespace IsRounded

variable {x : ℚ} {m : Nat}

/-- No other integer is nearer, and one that is as near is chosen only if it is
even. -/
theorem le_abs (h : IsRounded x m) (k : Nat) :
    |(m : ℚ) - x| ≤ |(k : ℚ) - x| ∧ (|(k : ℚ) - x| = |(m : ℚ) - x| → k = m ∨ m % 2 = 0) := by
  by_cases hk : k = m
  · subst hk
    exact ⟨le_rfl, fun _ => .inl rfl⟩
  · have hstep : (1 : ℚ) ≤ |(m : ℚ) - k| := by
      have hint : (1 : ℤ) ≤ |(m : ℤ) - k| := Int.one_le_abs (by omega)
      exact_mod_cast hint
    have hsum : |(m : ℚ) - k| ≤ |(m : ℚ) - x| + |(k : ℚ) - x| := by
      rw [abs_sub_comm (k : ℚ) x]
      exact abs_sub_le _ _ _
    have hhalf := h.le_half
    refine ⟨by linarith, fun heq => .inr (h.even ?_)⟩
    linarith

/-- An even integer is not reached before the middle below it. -/
theorem lt_iff (h : IsRounded x m) {k : Nat} (hk : k % 2 = 0) :
    m < k ↔ x < k - 1 / 2 := by
  obtain ⟨hlow, hhigh⟩ := abs_le.1 h.le_half
  constructor
  · intro hlt
    have hstep : (m : ℚ) + 1 ≤ k := by exact_mod_cast hlt
    apply lt_of_le_of_ne (by linarith)
    intro heq
    -- in the middle the even neighbour is taken, and the one below is odd
    have hsucc : (m : ℚ) + 1 = k := by linarith
    have hodd : m + 1 = k := by exact_mod_cast hsucc
    have heven : m % 2 = 0 := by
      apply h.even
      rw [heq, ← hsucc, abs_of_nonpos (by linarith)]
      ring
    omega
  · intro hlt
    by_contra hle
    have hstep : (k : ℚ) ≤ m := by exact_mod_cast Nat.not_lt.1 hle
    linarith

end IsRounded

/-! ## Rounding to a magnitude -/

namespace Binary64

/-- The magnitude of a rank, finite or beyond. -/
def magnitude (rank : Nat) : ℚ :=
  significand rank * 2 ^ exponent rank

/-- No magnitude is nearer to `q` than that of the rank, and where another one is
as near, the significand is even. -/
structure IsNearestRank (q : ℚ) (rank : Nat) : Prop where
  le_abs : ∀ other, |magnitude rank - q| ≤ |magnitude other - q|
  even : ∀ other, |magnitude other - q| = |magnitude rank - q| →
    magnitude other = magnitude rank ∨ significand rank % 2 = 0

/-- The number has the sign, and its magnitude is finite and the nearest one. -/
def IsNearest (negative : Bool) (q : ℚ) (x : Binary64) : Prop :=
  ∃ rank : Fin finiteCount, x = .finite negative rank ∧ IsNearestRank q rank

/-- So many units of `2 ^ e` in the block that belongs to the exponent. A carry out
of the significand gives the first magnitude of the next block. -/
theorem magnitude_block {e : ℤ} (he : -1074 ≤ e) {m : Nat} (hm : m ≤ 2 ^ 53)
    (hnormal : e = -1074 ∨ 2 ^ 52 ≤ m) :
    magnitude ((e + 1074).toNat * 2 ^ 52 + m) = m * 2 ^ e := by
  rw [magnitude]
  by_cases hcarry : m = 2 ^ 53
  · have hexponent : exponent ((e + 1074).toNat * 2 ^ 52 + m) = e + 1 := by
      rw [exponent_eq, if_neg (by omega)]
      omega
    have hsignificand : significand ((e + 1074).toNat * 2 ^ 52 + m) = 2 ^ 52 := by
      rw [significand_eq, if_neg (by omega)]
      omega
    rw [hexponent, hsignificand, hcarry, zpow_add_one₀ (by norm_num)]
    push_cast
    ring
  · have hexponent : exponent ((e + 1074).toNat * 2 ^ 52 + m) = e := by
      rw [exponent_eq]
      split <;> omega
    have hsignificand : significand ((e + 1074).toNat * 2 ^ 52 + m) = m := by
      rw [significand_eq]
      split <;> omega
    rw [hexponent, hsignificand]

theorem significand_mod_two (b m : Nat) : significand (b * 2 ^ 52 + m) % 2 = m % 2 := by
  rw [significand_eq]
  split <;> omega

/-- A magnitude is an integer in the units of the exponent of `q`, or it stands
below the block of `q`. -/
theorem exists_magnitude_eq_or_lt {q : ℚ} {e : ℤ} (hq : IsBinaryExponent q e) (rank : Nat) :
    (∃ k : Nat, magnitude rank = k * 2 ^ e) ∨
      magnitude rank < 2 ^ 52 * 2 ^ e ∧ 2 ^ 52 * 2 ^ e ≤ q := by
  have hrank := isBinaryExponent_exponent rank
  by_cases he : e ≤ exponent rank
  · refine .inl ⟨significand rank * 2 ^ (exponent rank - e).toNat, ?_⟩
    have hpow : (2 : ℚ) ^ exponent rank = 2 ^ (exponent rank - e).toNat * 2 ^ e := by
      rw [← zpow_of_nonneg 2 (by omega), ← zpow_add₀ (by norm_num), sub_add_cancel]
    rw [magnitude, hpow]
    push_cast
    ring
  · refine .inr ⟨?_, hq.le.resolve_left ?_⟩
    · have hstep : (2 : ℚ) ^ ((53 : ℕ) + exponent rank) ≤ 2 ^ ((52 : ℕ) + e) :=
        two_zpow_mono (by omega)
      rw [← two_pow_mul_two_zpow, ← two_pow_mul_two_zpow] at hstep
      exact lt_of_lt_of_le hrank.lt hstep
    · have hleast := hrank.least
      omega

end Binary64

/-- The rank of a quotient is that of the block of its exponent and of the integer
nearest to it in the units of that exponent. -/
theorem exists_nearestRank_eq {num den : Nat} (hnum : num ≠ 0) (hden : 0 < den) :
    ∃ e m, IsBinaryExponent ((num : ℚ) / den) e ∧ IsRounded ((num : ℚ) / den / 2 ^ e) m ∧
      m ≤ 2 ^ 53 ∧ (e = -1074 ∨ 2 ^ 52 ≤ m) ∧
      nearestRank num den = (e + 1074).toNat * 2 ^ 52 + m := by
  have he := isBinaryExponent_binaryExponent hnum hden
  have hrank := nearestRank_eq hnum hden he
  have hm := isRounded_roundDiv (scaleBinary num den (binaryExponent num den)).1
    (scaleBinary_den_pos num hden (binaryExponent num den))
  rw [ratio_scaleBinary] at hm
  refine ⟨_, _, he, hm, ?_, ?_, hrank⟩
  · have hx := (div_lt_iff₀ (by positivity)).2 he.lt
    obtain ⟨-, hhigh⟩ := abs_le.1 hm.le_half
    have hlt : (roundDiv (scaleBinary num den (binaryExponent num den)).1
        (scaleBinary num den (binaryExponent num den)).2 : ℚ) < (2 ^ 53 + 1 : ℕ) := by
      push_cast
      linarith
    have hnat := Nat.cast_lt.1 hlt
    omega
  · refine he.le.imp_right fun hle => ?_
    have hx := (le_div_iff₀ (by positivity)).2 hle
    by_contra hlt
    have hmiddle := (hm.lt_iff (k := 2 ^ 52) (by norm_num)).1 (Nat.not_le.1 hlt)
    push_cast at hmiddle
    linarith

/-- The rank that is computed for a quotient is nearest to it. -/
theorem isNearestRank_nearestRank (num : Nat) {den : Nat} (hden : 0 < den) :
    Binary64.IsNearestRank (num / den) (nearestRank num den) := by
  by_cases hnum : num = 0
  · have hzero : Binary64.magnitude 0 = 0 := by simp [Binary64.magnitude, Binary64.significand_eq]
    subst hnum
    rw [nearestRank, if_pos rfl, Nat.cast_zero, zero_div]
    refine ⟨fun other => ?_, fun other _ => .inr (by decide)⟩
    rw [hzero, sub_zero, abs_zero]
    exact abs_nonneg _
  · obtain ⟨e, m, he, hm, hcarry, hnormal, hrank⟩ := exists_nearestRank_eq hnum hden
    have hmagnitude := Binary64.magnitude_block he.least hcarry hnormal
    have hunit : (0 : ℚ) < 2 ^ e := by positivity
    have hscale (k : ℚ) : |k * 2 ^ e - num / den| = |k - num / den / 2 ^ e| * 2 ^ e := by
      rw [← abs_of_pos hunit, ← abs_mul, abs_of_pos hunit, sub_mul, div_mul_cancel₀ _ hunit.ne']
    have hother (other : Nat) :
        |(m : ℚ) * 2 ^ e - num / den| ≤ |Binary64.magnitude other - num / den| ∧
          (|Binary64.magnitude other - num / den| = |(m : ℚ) * 2 ^ e - num / den| →
            Binary64.magnitude other = m * 2 ^ e ∨ m % 2 = 0) := by
      rcases Binary64.exists_magnitude_eq_or_lt he other with ⟨k, hk⟩ | ⟨hbelow, hblock⟩
      · obtain ⟨hnear, htie⟩ := hm.le_abs k
        rw [hk, hscale, hscale]
        refine ⟨mul_le_mul_of_nonneg_right hnear hunit.le, fun heq => ?_⟩
        exact (htie (mul_right_cancel₀ hunit.ne' heq)).imp_left fun h => by rw [h]
      · -- the first magnitude of the block is between the other one and the quotient
        have hnear := (hm.le_abs (2 ^ 52)).1
        rw [Nat.cast_pow, Nat.cast_ofNat] at hnear
        have hfirst : |(m : ℚ) * 2 ^ e - num / den| ≤ |(2 : ℚ) ^ 52 * 2 ^ e - num / den| := by
          rw [hscale, hscale]
          exact mul_le_mul_of_nonneg_right hnear hunit.le
        rw [abs_of_nonpos (sub_nonpos.2 hblock)] at hfirst
        have hfar : |(m : ℚ) * 2 ^ e - num / den| < |Binary64.magnitude other - num / den| := by
          rw [abs_of_nonpos (by linarith : Binary64.magnitude other - num / den ≤ 0)]
          linarith
        exact ⟨hfar.le, fun heq => absurd heq hfar.ne'⟩
    rw [hrank]
    refine ⟨fun other => ?_, fun other heq => ?_⟩
    · rw [hmagnitude]
      exact (hother other).1
    · rw [hmagnitude] at heq ⊢
      rw [Binary64.significand_mod_two]
      exact (hother other).2 heq

/-! ## Overflow -/

/-- The middle between the greatest finite magnitude and the next one is half a
unit below the end of the last block. -/
theorem overflow_eq : (2 : ℚ) ^ 1024 - 2 ^ 970 = (2 ^ 53 - 1 / 2) * 2 ^ (971 : ℤ) := by
  have hhalf : 1 / 2 * (2 : ℚ) ^ 971 = 2 ^ 970 := by
    rw [pow_succ' (2 : ℚ) 970, ← mul_assoc]
    norm_num
  rw [zpow_ofNat, sub_mul, ← pow_add, hhalf]

/-- A quotient is rounded to a finite magnitude when it is below the middle between
the greatest one and the next. -/
theorem nearestRank_lt_finiteCount_iff (num : Nat) {den : Nat} (hden : 0 < den) :
    nearestRank num den < finiteCount ↔ (num : ℚ) / den < 2 ^ 1024 - 2 ^ 970 := by
  have hunit : (0 : ℚ) < 2 ^ (971 : ℤ) := by positivity
  rw [overflow_eq]
  by_cases hnum : num = 0
  · subst hnum
    rw [nearestRank, if_pos rfl, Nat.cast_zero, zero_div]
    exact iff_of_true (by decide) (mul_pos (by norm_num) hunit)
  · obtain ⟨e, m, he, hm, hcarry, hnormal, hrank⟩ := exists_nearestRank_eq hnum hden
    rcases lt_trichotomy e 971 with hlow | rfl | hhigh
    · -- in the blocks below the last one every magnitude is finite
      have hrange : (2 : ℚ) ^ ((53 : ℕ) + e) ≤ 2 ^ ((52 : ℕ) + (971 : ℤ)) :=
        two_zpow_mono (by omega)
      rw [← two_pow_mul_two_zpow, ← two_pow_mul_two_zpow] at hrange
      refine iff_of_true ?_ ?_
      · rw [hrank, finiteCount_eq]
        omega
      · calc (num : ℚ) / den < 2 ^ 53 * 2 ^ e := he.lt
          _ ≤ 2 ^ 52 * 2 ^ (971 : ℤ) := hrange
          _ ≤ (2 ^ 53 - 1 / 2) * 2 ^ (971 : ℤ) :=
            mul_le_mul_of_nonneg_right (by norm_num) hunit.le
    · -- in the last block the first integer too many is `2 ^ 53`
      have hblock : nearestRank num den < finiteCount ↔ m < 2 ^ 53 := by
        rw [hrank, finiteCount_eq]
        omega
      rw [hblock, hm.lt_iff (by norm_num), div_lt_iff₀ hunit, Nat.cast_pow, Nat.cast_ofNat]
    · have hrange : (2 : ℚ) ^ (1024 : ℤ) ≤ 2 ^ ((52 : ℕ) + e) := two_zpow_mono (by omega)
      rw [← two_pow_mul_two_zpow] at hrange
      have hlarge : (2 : ℚ) ^ (1024 : ℤ) ≤ num / den :=
        le_trans hrange (he.le.resolve_left (by omega))
      refine iff_of_false (not_lt.2 (finiteCount_le_nearestRank hden hlarge)) (not_lt.2 ?_)
      rw [← overflow_eq]
      rw [zpow_ofNat] at hlarge
      exact le_trans (sub_le_self _ (by positivity)) hlarge

namespace Decimal

theorem isFinite_toBinary64_iff (d : Decimal) :
    d.toBinary64.isFinite = true ↔ d.value < 2 ^ 1024 - 2 ^ 970 := by
  rw [toBinary64_eq_ofRank, Binary64.isFinite_ofRank, decide_eq_true_iff,
    nearestRank_lt_finiteCount_iff _ d.quotient_den_pos, ratio_quotient]

/-- The binary number of a decimal is the nearest to it, if it is finite. -/
theorem isNearest_toBinary64 {d : Decimal} (h : d.toBinary64.isFinite = true) :
    d.toBinary64.IsNearest d.negative d.value := by
  have hnearest := isNearestRank_nearestRank d.quotient.1 d.quotient_den_pos
  rw [ratio_quotient] at hnearest
  rw [toBinary64_eq_ofRank, Binary64.isFinite_ofRank, decide_eq_true_iff] at h
  rw [toBinary64_eq_ofRank, Binary64.ofRank, dif_pos h]
  exact ⟨_, rfl, hnearest⟩

end Decimal

end IdsRules.Numeral
