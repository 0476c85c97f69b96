import IdsRules.Json.Token
import IdsRules.Proofs.Numeral.Layout

/-!
# Number tokens

The text of an integer is read as that integer, and the text of a finite
floating-point number as that number, so a document tells `1` from `1.0`. What
is read as a number holds none of the characters that end a word, so a number
in a document is one word.
-/

namespace IdsRules.Json.Token

open Numeral Layout Decimal

/-! ## Reading what is written -/

/-- The sign of a number is split off in front of its digits. -/
theorem sign_withSign (negative : Bool) {s : Text} (h : ∀ c ∈ s.head?, c.isDigit = true) :
    (if (withSign negative s).head? = some '-' then (true, (withSign negative s).tail)
      else (false, withSign negative s)) = (negative, s) := by
  cases negative with
  | true => rfl
  | false =>
      have hminus : s.head? ≠ some '-' := by
        intro hs
        exact absurd (h '-' hs) (by decide)
      exact if_neg hminus

theorem number?_of_isNumeral {p : NumeralParts} {e : Int} (h : p.IsNumeral e) (negative : Bool) :
    number? (withSign negative p.text) = some (.float (p.decimal negative e).toBinary64) := by
  have hwhole : ¬(p.whole = [] ∨ (p.whole.head? = some '0' ∧ p.whole ≠ ['0'])) := by
    intro hbad
    rcases hbad with hnil | ⟨hzero, hne⟩
    · exact h.ne_nil hnil
    · exact hne (h.leading hzero)
  have hrest : p.rest ≠ [] := by
    unfold NumeralParts.rest
    split
    next hnil =>
        rcases h.marked with hfraction | htail
        · exact absurd hnil hfraction
        · exact htail
    next => exact List.cons_ne_nil _ _
  have hfraction : ¬(p.rest.head? = some '.' ∧ p.fraction = []) := by
    intro hbad
    have htail := head_of_readExponent? h.tail
    rw [NumeralParts.rest, if_pos hbad.2] at hbad
    exact (htail '.' hbad.1).2 rfl
  simp only [number?, sign_withSign negative h.head_whole, h.takeWhile_text, h.dropWhile_text,
    if_neg hwhole, if_neg hrest, h.splitFraction_rest, if_neg hfraction, h.parse?_text,
    Option.map_some]

theorem integerText_eq_withSign (n : Int) :
    integerText n = withSign (decide (n < 0)) (naturalText n.natAbs) := by
  cases n with
  | ofNat n => rfl
  | negSucc n => simp [integerText, withSign, Int.negSucc_lt_zero]

theorem signed_natAbs (n : Int) : signed (decide (n < 0)) n.natAbs = n := by
  cases n with
  | ofNat n => rfl
  | negSucc n =>
      rw [decide_eq_true (Int.negSucc_lt_zero n)]
      rfl

/-- The text of an integer is read as the integer. -/
theorem number?_integerText (n : Int) : number? (integerText n) = some (.integer n) := by
  have hdigit : ∀ c ∈ naturalText n.natAbs, c.isDigit = true :=
    fun _ hc => isDigit_of_mem_naturalText hc
  have hhead : ∀ c ∈ (naturalText n.natAbs).head?, c.isDigit = true :=
    fun c hc => hdigit c (List.mem_of_mem_head? hc)
  have htake := takeWhile_isDigit_append (t := []) hdigit (by simp)
  have hdrop := dropWhile_isDigit_append (t := []) hdigit (by simp)
  rw [List.append_nil] at htake hdrop
  have hwhole : ¬(naturalText n.natAbs = [] ∨
      ((naturalText n.natAbs).head? = some '0' ∧ naturalText n.natAbs ≠ ['0'])) := by
    intro hbad
    rcases hbad with hnil | ⟨hzero, hne⟩
    · exact naturalText_ne_nil _ hnil
    · by_cases hn : n.natAbs = 0
      · rw [hn] at hne
        exact hne rfl
      · exact head?_naturalText hn hzero
  rw [integerText_eq_withSign]
  simp only [number?, sign_withSign _ hhead, htake, hdrop, if_neg hwhole, if_true,
    naturalOf_naturalText, signed_natAbs]

/-- The text of a finite number is read as the number. -/
theorem number?_text {x : Binary64} (hx : x.isFinite = true) :
    number? x.text = some (.float x) := by
  cases x with
  | nan => cases hx
  | infinite negative => cases hx
  | finite negative rank =>
      by_cases hzero : rank.val = 0
      · have hrank : rank = ⟨0, by decide⟩ := Fin.ext hzero
        subst hrank
        cases negative with
        | true => rfl
        | false => rfl
      · have hsig := Binary64.significand_shortestDecimal_ne_zero hzero rank.isLt
        obtain ⟨p, e, htext, hp, hvalue⟩ := isNumeralOf_magnitude Layout.document _ hsig
        rw [Binary64.text, Numeral.Layout.write, htext, number?_of_isNumeral hp,
          ← Binary64.toBinary64_shortestDecimal negative rank]
        congr 2
        exact toBinary64_congr rfl (hvalue negative)

/-! ## Numbers as words -/

def isNumberChar (c : Char) : Bool :=
  c.isDigit || c == '-' || c == '+' || c == '.' || c == 'e' || c == 'E'

theorem isNumberChar_of_isDigit {c : Char} (h : c.isDigit = true) : isNumberChar c = true := by
  simp [isNumberChar, h]

theorem endsWord_eq_false_of_isNumberChar {c : Char} (h : isNumberChar c = true) :
    endsWord c = false := by
  have hends : endsWord c = true →
      c ∈ [' ', '\t', '\n', '\r', '"', '\x7B', '\x7D', '[', ']', ',', ':'] := by
    intro hend
    by_contra hmem
    simp only [List.mem_cons, List.not_mem_nil, or_false, not_or] at hmem
    simp [endsWord, isGap, punctuation?, hmem] at hend
  cases hc : endsWord c with
  | false => rfl
  | true =>
      have hall : [' ', '\t', '\n', '\r', '"', '\x7B', '\x7D', '[', ']', ',', ':'].all
          (fun d => !isNumberChar d) = true := by decide
      have hnot := List.all_eq_true.1 hall c (hends hc)
      rw [h] at hnot
      cases hnot

theorem isNumberChar_of_splitSign {s : Text} (h : ∀ c ∈ (splitSign s).2, isNumberChar c = true) :
    ∀ c ∈ s, isNumberChar c = true := by
  cases s with
  | nil => exact h
  | cons d s =>
      by_cases hminus : d = '-'
      · subst hminus
        simpa [isNumberChar] using h
      · by_cases hplus : d = '+'
        · subst hplus
          simpa [isNumberChar] using h
        · rw [splitSign, if_neg hminus, if_neg hplus] at h
          exact h

theorem isNumberChar_of_dropWhile {s : Text}
    (h : ∀ c ∈ s.dropWhile Char.isDigit, isNumberChar c = true) :
    ∀ c ∈ s, isNumberChar c = true := by
  intro c hc
  rw [← List.takeWhile_append_dropWhile (p := Char.isDigit) (l := s)] at hc
  rcases List.mem_append.1 hc with hdigit | hrest
  · exact isNumberChar_of_isDigit (List.mem_takeWhile_imp hdigit)
  · exact h c hrest

theorem isNumberChar_of_splitFraction {s : Text}
    (h : ∀ c ∈ (splitFraction s).2, isNumberChar c = true) :
    ∀ c ∈ s, isNumberChar c = true := by
  cases s with
  | nil => exact h
  | cons d s =>
      by_cases hpoint : d = '.'
      · subst hpoint
        simpa [isNumberChar] using isNumberChar_of_dropWhile (s := s) h
      · rw [splitFraction, if_neg hpoint] at h
        exact h

theorem isNumberChar_of_readExponent? {s : Text} {e : Int} (h : readExponent? s = some e) :
    ∀ c ∈ s, isNumberChar c = true := by
  cases s with
  | nil => simp
  | cons d s =>
      by_cases hd : d = 'e' ∨ d = 'E'
      · rw [readExponent?, if_pos hd, Option.map_eq_some_iff] at h
        obtain ⟨m, hm, -⟩ := h
        have hdigits : isDigits (splitSign s).2 = true := by
          unfold IntegerNumeral.parse? at hm
          grind
        have hs : ∀ c ∈ s, isNumberChar c = true := by
          apply isNumberChar_of_splitSign
          intro c hc
          simp only [isDigits, Bool.and_eq_true, List.all_eq_true] at hdigits
          exact isNumberChar_of_isDigit (hdigits.2 c hc)
        rcases hd with rfl | rfl <;> simpa [isNumberChar] using hs
      · rw [readExponent?, if_neg hd] at h
        cases h

theorem isNumberChar_of_parse? {s : Text} {d : Decimal} (h : Decimal.parse? s = some d) :
    ∀ c ∈ s, isNumberChar c = true := by
  apply isNumberChar_of_splitSign
  apply isNumberChar_of_dropWhile
  apply isNumberChar_of_splitFraction
  unfold Decimal.parse? at h
  dsimp only at h
  split at h
  next => cases h
  next =>
      obtain ⟨e, he, -⟩ := Option.map_eq_some_iff.1 h
      exact isNumberChar_of_readExponent? he

theorem exists_sign_split (s : Text) :
    ∃ negative unsigned,
      (if s.head? = some '-' then (true, s.tail) else (false, s)) = (negative, unsigned) ∧
        ∀ c ∈ s, c = '-' ∨ c ∈ unsigned := by
  by_cases hminus : s.head? = some '-'
  · refine ⟨true, s.tail, if_pos hminus, ?_⟩
    intro c hc
    rw [← List.cons_head?_tail hminus] at hc
    exact List.mem_cons.1 hc
  · exact ⟨false, s, if_neg hminus, fun c hc => Or.inr hc⟩

/-- What is read as a number is made of the characters of numbers. -/
theorem isNumberChar_of_number? {s : Text} {j : Json} (h : number? s = some j) :
    ∀ c ∈ s, isNumberChar c = true := by
  obtain ⟨negative, unsigned, hsplit, hmem⟩ := exists_sign_split s
  simp only [number?, hsplit, Option.ite_none_left_eq_some] at h
  obtain ⟨-, h⟩ := h
  by_cases hrest : unsigned.dropWhile Char.isDigit = []
  · have hunsigned : ∀ c ∈ unsigned, isNumberChar c = true := by
      apply isNumberChar_of_dropWhile
      rw [hrest]
      simp
    intro c hc
    rcases hmem c hc with rfl | hu
    · decide
    · exact hunsigned c hu
  · rw [if_neg hrest, Option.ite_none_left_eq_some] at h
    obtain ⟨d, hd, -⟩ := Option.map_eq_some_iff.1 h.2
    exact isNumberChar_of_parse? hd

/-- What is read as a number is one word. -/
theorem endsWord_eq_false_of_number? {s : Text} {j : Json} (h : number? s = some j) :
    ∀ c ∈ s, endsWord c = false :=
  fun c hc => endsWord_eq_false_of_isNumberChar (isNumberChar_of_number? h c hc)

/-- Numbers are none of the three literal names, so the word of a number is
read as the number. -/
theorem word?_of_number? {s : Text} {j : Json} (h : number? s = some j) :
    word? s = some (.literal j) := by
  have hname : ∀ name : Text, number? name = none → s ≠ name := by
    intro name hnone hs
    rw [hs, hnone] at h
    cases h
  have hnull : s ≠ "null".toList := hname _ (by decide)
  have htrue : s ≠ "true".toList := hname _ (by decide)
  have hfalse : s ≠ "false".toList := hname _ (by decide)
  rw [word?, if_neg hnull, if_neg htrue, if_neg hfalse, h, Option.map_some]

end IdsRules.Json.Token
