import IdsRules.Numeral.Decimal
import IdsRules.Proofs.Numeral.Rounding

/-!
# The value of a decimal decides its binary number

Reading a decimal takes a short way where the power of ten is so large or so
small that the answer is plain without it. The short ways give the answer of the
long one: `toBinary64_eq_ofRank` has no case for them. So decimals of one value
are read as the same number, however their digits and their power of ten share
it between them.
-/

namespace IdsRules.Numeral

namespace Decimal

def value (d : Decimal) : ℚ :=
  d.significand * 10 ^ d.exponent

theorem quotient_eq (d : Decimal) :
    d.quotient =
      if 0 ≤ d.exponent then (d.significand * 10 ^ d.exponent.toNat, 1)
      else (d.significand, 10 ^ (-d.exponent).toNat) := rfl

theorem quotient_den_pos (d : Decimal) : 0 < d.quotient.2 := by
  rw [quotient_eq]
  split
  · exact Nat.one_pos
  · positivity

theorem ratio_quotient (d : Decimal) : (d.quotient.1 : ℚ) / d.quotient.2 = d.value := by
  rw [quotient_eq, value]
  by_cases he : 0 ≤ d.exponent
  · rw [if_pos he, zpow_of_nonneg 10 he]
    push_cast
    rw [div_one]
  · rw [if_neg he, zpow_of_not_nonneg 10 he]
    push_cast
    rw [div_eq_mul_inv]

/-- Three bits are less than one decimal digit. -/
theorem two_pow_le_ten_pow {a k : Nat} (h : a ≤ 3 * k) : (2 : ℚ) ^ a ≤ 10 ^ k := by
  calc (2 : ℚ) ^ a ≤ 2 ^ (3 * k) := pow_le_pow_right₀ (by norm_num) h
    _ = (2 ^ 3) ^ k := pow_mul 2 3 k
    _ ≤ 10 ^ k := pow_le_pow_left₀ (by norm_num) (by norm_num) k

/-- A power of ten above 400 overflows with every significand but zero. -/
theorem two_zpow_le_value {d : Decimal} (hsig : d.significand ≠ 0) (he : 400 < d.exponent) :
    (2 : ℚ) ^ (1024 : ℤ) ≤ d.value := by
  have hone : (1 : ℚ) ≤ d.significand := by exact_mod_cast Nat.one_le_iff_ne_zero.2 hsig
  have hbits : 1024 ≤ 3 * d.exponent.toNat := by omega
  calc (2 : ℚ) ^ (1024 : ℤ) = 2 ^ 1024 := zpow_natCast 2 1024
    _ ≤ 10 ^ d.exponent.toNat := two_pow_le_ten_pow hbits
    _ = 10 ^ d.exponent := (zpow_of_nonneg 10 (by omega)).symm
    _ ≤ d.value := le_mul_of_one_le_left (by positivity) hone

/-- A power of ten that is small enough for the length of the significand
leaves less than half the least magnitude. -/
theorem value_lt_two_zpow {d : Decimal}
    (he : d.exponent < -((d.significand.log2 : Int) + 500)) : d.value < 2 ^ (-1075 : ℤ) := by
  have hbits : d.significand.log2 + 1076 ≤ 3 * (-d.exponent).toNat := by omega
  have hpow : (10 : ℚ) ^ d.exponent ≤ 2 ^ (-((d.significand.log2 : ℤ) + 1076)) := by
    rw [zpow_of_not_nonneg 10 (by omega), zpow_neg]
    apply inv_anti₀ (by positivity)
    exact_mod_cast two_pow_le_ten_pow hbits
  calc d.value ≤ d.significand * 2 ^ (-((d.significand.log2 : ℤ) + 1076)) :=
        mul_le_mul_of_nonneg_left hpow (by positivity)
    _ < 2 ^ ((d.significand.log2 : ℤ) + 1) * 2 ^ (-((d.significand.log2 : ℤ) + 1076)) :=
        mul_lt_mul_of_pos_right (cast_lt_two_zpow _) (by positivity)
    _ = 2 ^ (-1075 : ℤ) := by
        rw [← zpow_add₀ (by norm_num)]
        congr 1
        ring

/-- Reading a decimal is rounding its quotient, also where the quotient is not
computed. -/
theorem toBinary64_eq_ofRank (d : Decimal) :
    d.toBinary64 = .ofRank d.negative (nearestRank d.quotient.1 d.quotient.2) := by
  have hden := d.quotient_den_pos
  have hzero (h : nearestRank d.quotient.1 d.quotient.2 = 0) :
      Binary64.zero d.negative = .ofRank d.negative (nearestRank d.quotient.1 d.quotient.2) := by
    rw [h]
    rfl
  unfold toBinary64
  split
  next hsig =>
      apply hzero
      have hvalue : d.value = 0 := by simp [value, hsig]
      apply nearestRank_eq_zero hden
      rw [ratio_quotient, hvalue]
      positivity
  next hsig =>
      split
      next hlarge =>
          have hrank := finiteCount_le_nearestRank hden
            (d.ratio_quotient ▸ two_zpow_le_value hsig hlarge)
          rw [Binary64.ofRank, dif_neg (not_lt.2 hrank)]
      next =>
          split
          next hsmall =>
              apply hzero
              apply nearestRank_eq_zero hden
              rw [ratio_quotient]
              exact value_lt_two_zpow hsmall
          next => rfl

/-- The rank of a decimal is that of its value. -/
theorem nearestRank_quotient_congr {c d : Decimal} (h : c.value = d.value) :
    nearestRank c.quotient.1 c.quotient.2 = nearestRank d.quotient.1 d.quotient.2 := by
  apply nearestRank_congr c.quotient_den_pos d.quotient_den_pos
  rw [cross_mul_iff c.quotient_den_pos d.quotient_den_pos, ratio_quotient, ratio_quotient, h]

/-- Decimals of one sign and one value are read as the same number. -/
theorem toBinary64_congr {c d : Decimal} (hneg : c.negative = d.negative)
    (h : c.value = d.value) : c.toBinary64 = d.toBinary64 := by
  rw [toBinary64_eq_ofRank, toBinary64_eq_ofRank, hneg, nearestRank_quotient_congr h]

/-- Zeros at the end of the significand can go to the power of ten. -/
theorem value_shift (negative : Bool) (n k : Nat) (e : Int) :
    value ⟨negative, n * 10 ^ k, e⟩ = value ⟨negative, n, e + k⟩ := by
  simp only [value]
  rw [zpow_add₀ (by norm_num), zpow_natCast]
  push_cast
  ring

end Decimal

end IdsRules.Numeral
