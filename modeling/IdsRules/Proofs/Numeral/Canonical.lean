import Mathlib.Data.List.Induction
import IdsRules.Proofs.Numeral.Digits

/-!
# Canonical numerals

The numerals that integers are written as are recognised by their form: nothing
but a lone zero starts with a zero, and no sign stands in front but the minus of
a number that is not zero. A text of this form is the numeral of the number that
its digits denote.
-/

namespace IdsRules.Numeral

theorem exists_digitChar_eq {c : Char} (hc : c.isDigit = true) :
    ∃ d < 10, Nat.digitChar d = c := by
  have hrange : 48 ≤ c.toNat ∧ c.toNat ≤ 57 := by
    rw [Char.isDigit, Bool.and_eq_true, decide_eq_true_eq, decide_eq_true_eq] at hc
    exact hc
  refine ⟨c.toNat - 48, by omega, Char.toNat_inj.1 ?_⟩
  rw [Nat.toNat_digitChar_of_lt_ten (by omega)]
  omega

/-- Digits of which the first is not a zero. -/
structure IsPositiveNumeral (s : Text) : Prop where
  ne_nil : s ≠ []
  isDigit : ∀ c ∈ s, c.isDigit = true
  head?_ne : s.head? ≠ some '0'

/-- A zero, or digits of which the first is not a zero, with or without a minus
sign. -/
def IsCanonicalNumeral (s : Text) : Prop :=
  s = ['0'] ∨ IsPositiveNumeral s ∨ ∃ digits, s = '-' :: digits ∧ IsPositiveNumeral digits

instance : DecidablePred IsPositiveNumeral := fun s =>
  decidable_of_iff (s ≠ [] ∧ s.all Char.isDigit = true ∧ s.head? ≠ some '0')
    ⟨fun h => ⟨h.1, List.all_eq_true.1 h.2.1, h.2.2⟩,
      fun h => ⟨h.ne_nil, List.all_eq_true.2 h.isDigit, h.head?_ne⟩⟩

instance : DecidablePred IsCanonicalNumeral := fun s =>
  decidable_of_iff (s = ['0'] ∨ IsPositiveNumeral s ∨
    s.head? = some '-' ∧ IsPositiveNumeral s.tail) <| by
      cases s <;> simp [IsCanonicalNumeral]

theorem isPositiveNumeral_naturalText {n : Nat} (hn : n ≠ 0) :
    IsPositiveNumeral (naturalText n) :=
  ⟨naturalText_ne_nil n, fun _ => isDigit_of_mem_naturalText, head?_naturalText hn⟩

theorem IsPositiveNumeral.naturalText_naturalOf {s : Text} (h : IsPositiveNumeral s) :
    naturalOf s ≠ 0 ∧ naturalText (naturalOf s) = s := by
  induction s using List.reverseRecOn with
  | nil => exact absurd rfl h.ne_nil
  | append_singleton front c ih =>
      obtain ⟨d, hd, rfl⟩ := exists_digitChar_eq (h.isDigit c (by simp))
      have hvalue : naturalOf (front ++ [d.digitChar]) = 10 * naturalOf front + d := by
        rw [naturalOf_append, Nat.mul_comm]
        congr 1
        rw [naturalOf, Nat.ofDigitChars_cons_digitChar_of_lt_ten hd, Nat.ofDigitChars_nil,
          Nat.mul_zero, Nat.zero_add]
      rw [hvalue]
      by_cases hfront : front = []
      · subst hfront
        have hpositive : d ≠ 0 := by
          rintro rfl
          exact h.head?_ne rfl
        rw [naturalText, naturalOf, Nat.ofDigitChars_nil, Nat.mul_zero, Nat.zero_add,
          Nat.toDigits_of_lt_base hd]
        exact ⟨hpositive, rfl⟩
      · have hhead : front.head? ≠ some '0' := by
          rw [← List.head?_append_of_ne_nil _ hfront]
          exact h.head?_ne
        obtain ⟨hne, htext⟩ :=
          ih ⟨hfront, fun c hc => h.isDigit c (List.mem_append_left _ hc), hhead⟩
        refine ⟨by omega, ?_⟩
        rw [naturalText, ← Nat.toDigits_append_toDigits (by decide) (Nat.pos_of_ne_zero hne) hd,
          Nat.toDigits_of_lt_base hd]
        exact congrArg (· ++ [d.digitChar]) htext

/-- The numerals of integers are the canonical ones. -/
theorem exists_integerText_eq_iff {s : Text} :
    (∃ n : Int, integerText n = s) ↔ IsCanonicalNumeral s := by
  constructor
  · rintro ⟨n, rfl⟩
    cases n with
    | ofNat n =>
        by_cases hn : n = 0
        · subst hn
          exact Or.inl rfl
        · exact Or.inr (Or.inl (isPositiveNumeral_naturalText hn))
    | negSucc n =>
        exact Or.inr (Or.inr ⟨_, rfl, isPositiveNumeral_naturalText (Nat.succ_ne_zero n)⟩)
  · rintro (rfl | hdigits | ⟨digits, rfl, hdigits⟩)
    · exact ⟨0, rfl⟩
    · exact ⟨naturalOf s, hdigits.naturalText_naturalOf.2⟩
    · obtain ⟨hne, htext⟩ := hdigits.naturalText_naturalOf
      obtain ⟨n, hn⟩ := Nat.exists_eq_succ_of_ne_zero hne
      refine ⟨.negSucc n, ?_⟩
      rw [integerText, ← Nat.succ_eq_add_one, ← hn, htext]

example : (["0", "7", "-40"].all fun s => IsCanonicalNumeral s.toList) ∧
    ["", "-0", "+7", "07", "-07", " 7", "7 ", "7.0", "٧"].all fun s =>
      ¬IsCanonicalNumeral s.toList := by
  decide

end IdsRules.Numeral
