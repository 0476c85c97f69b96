import Mathlib.Algebra.Group.Nat.Defs
import Mathlib.Data.List.Basic
import Mathlib.Data.List.TakeWhile
import IdsRules.Numeral.Layout

/-!
# Digits and the numbers they denote

Texts of digits denote numbers in base ten: putting texts together and filling
them with zeros on either side are operations on the numbers. The digits in
which a number is written without the zeros at its end are the numeral up to
those zeros, and they do not start with a zero unless the number is zero.
-/

namespace IdsRules.Numeral

theorem naturalOf_append (s t : Text) :
    naturalOf (s ++ t) = naturalOf s * 10 ^ t.length + naturalOf t := by
  rw [naturalOf, Nat.ofDigitChars_append, Nat.ofDigitChars_eq_ofDigitChars_zero, Nat.mul_comm]
  rfl

@[simp] theorem naturalOf_zeros (n : Nat) : naturalOf (List.replicate n '0') = 0 := by
  rw [naturalOf, Nat.ofDigitChars_replicate_zero, Nat.mul_zero]

theorem isDigit_of_mem_zeros {n : Nat} {c : Char} (hc : c ∈ List.replicate n '0') :
    c.isDigit = true := by
  rw [List.eq_of_mem_replicate hc]
  decide

/-- Zeros in front change nothing. -/
theorem naturalOf_zeros_append (n : Nat) (s : Text) :
    naturalOf (List.replicate n '0' ++ s) = naturalOf s := by
  rw [naturalOf_append, naturalOf_zeros, Nat.zero_mul, Nat.zero_add]

/-- Zeros behind are powers of ten. -/
theorem naturalOf_append_zeros (s : Text) (n : Nat) :
    naturalOf (s ++ List.replicate n '0') = naturalOf s * 10 ^ n := by
  rw [naturalOf_append, naturalOf_zeros, List.length_replicate, Nat.add_zero]

/-- A numeral starts with a zero only if it is the numeral of zero. -/
theorem head?_naturalText {n : Nat} (hn : n ≠ 0) : (naturalText n).head? ≠ some '0' := by
  induction n using Nat.base_induction 10 (by decide) with
  | single m hm =>
      have hdigit : ∀ k : Fin 10, k.val ≠ 0 → Nat.digitChar k.val ≠ '0' := by decide
      rw [naturalText, Nat.toDigits_of_lt_base hm, List.head?_cons]
      intro h
      exact hdigit ⟨m, hm⟩ hn (Option.some.inj h)
  | digit m k hk hm ih =>
      have hfirst : (Nat.toDigits 10 m).head? ≠ some '0' := ih (Nat.pos_iff_ne_zero.1 hm)
      rw [naturalText, ← Nat.toDigits_append_toDigits (by decide) hm hk,
        List.head?_append_of_ne_nil _ Nat.toDigits_ne_nil]
      exact hfirst

namespace Layout

theorem significantDigits_ne_nil (n : Nat) : significantDigits n ≠ [] := by
  unfold significantDigits
  split
  next => exact List.cons_ne_nil _ _
  next hne =>
      intro h
      exact hne (List.reverse_eq_nil_iff.1 h)

/-- The numeral of a number but zero is its significant digits and zeros. -/
theorem exists_naturalText_eq {n : Nat} (hn : n ≠ 0) :
    ∃ zeros, naturalText n = significantDigits n ++ List.replicate zeros '0' := by
  have hsplit := (naturalText n).reverse.takeWhile_append_dropWhile (p := (· = '0'))
  have hzeros : (naturalText n).reverse.takeWhile (· = '0')
      = List.replicate ((naturalText n).reverse.takeWhile (· = '0')).length '0' := by
    apply List.eq_replicate_of_mem
    intro c hc
    have hdec : decide (c = '0') = true := List.mem_takeWhile_imp (p := (· = '0')) hc
    exact of_decide_eq_true hdec
  generalize (naturalText n).reverse.takeWhile (· = '0') = front at hsplit hzeros
  unfold significantDigits
  split
  next hnil =>
      -- a numeral of zeros alone is that of zero
      rw [hnil, List.append_nil] at hsplit
      have hnumeral : naturalText n = List.replicate front.length '0' := by
        rw [← List.reverse_replicate, ← hzeros, hsplit, List.reverse_reverse]
      have hvalue := naturalOf_naturalText n
      rw [hnumeral, naturalOf_zeros] at hvalue
      exact absurd hvalue.symm hn
  next rest _ =>
      refine ⟨front.length, ?_⟩
      rw [← List.reverse_replicate, ← hzeros, ← List.reverse_append, hsplit, List.reverse_reverse]

theorem isDigit_of_mem_significantDigits {n : Nat} (hn : n ≠ 0) {c : Char}
    (hc : c ∈ significantDigits n) : c.isDigit = true := by
  obtain ⟨zeros, hz⟩ := exists_naturalText_eq hn
  apply isDigit_of_mem_naturalText (n := n)
  rw [hz]
  exact List.mem_append_left _ hc

theorem head?_significantDigits {n : Nat} (hn : n ≠ 0) :
    (significantDigits n).head? ≠ some '0' := by
  obtain ⟨zeros, hz⟩ := exists_naturalText_eq hn
  have hfirst := head?_naturalText hn
  rw [hz, List.head?_append_of_ne_nil _ (significantDigits_ne_nil n)] at hfirst
  exact hfirst

end Layout

end IdsRules.Numeral
