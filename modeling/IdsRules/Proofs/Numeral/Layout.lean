import IdsRules.Proofs.Numeral.Digits
import IdsRules.Proofs.Numeral.Grammar
import IdsRules.Proofs.Numeral.Shortest

/-!
# A written number is a numeral of its decimal

Every layout writes a decimal as digits, a point or an exponent or both, so that
reading the text gives a decimal of the same value. The point and the zeros
around it differ from layout to layout, and no proof needs to know them: a text
of `NumeralParts` is read by its parts, and the two ways of writing are shown to
give parts whose decimal has the right value.
-/

namespace IdsRules.Numeral

open Decimal

/-- The parts of a decimal numeral, without its sign. -/
structure NumeralParts where
  whole : Text
  fraction : Text
  tail : Text

namespace NumeralParts

/-- The text behind the whole digits; a point stands in front of a fraction
only. -/
def rest (p : NumeralParts) : Text :=
  (if p.fraction = [] then [] else '.' :: p.fraction) ++ p.tail

def text (p : NumeralParts) : Text :=
  p.whole ++ p.rest

/-- The decimal of the parts, with a sign and the value of their exponent. -/
def decimal (p : NumeralParts) (negative : Bool) (e : Int) : Decimal :=
  ⟨negative, naturalOf (p.whole ++ p.fraction), e - p.fraction.length⟩

/-- The parts are those of a number with the exponent `e` that a document can
hold: no needless zero in front, and a fraction or an exponent, so that the
number is not an integer. -/
structure IsNumeral (p : NumeralParts) (e : Int) : Prop where
  ne_nil : p.whole ≠ []
  whole : ∀ c ∈ p.whole, c.isDigit = true
  leading : p.whole.head? = some '0' → p.whole = ['0']
  fraction : ∀ c ∈ p.fraction, c.isDigit = true
  tail : readExponent? p.tail = some e
  marked : p.fraction ≠ [] ∨ p.tail ≠ []

end NumeralParts

/-! ## Reading the parts -/

namespace NumeralParts

variable {p : NumeralParts} {e : Int}

/-- The same parts with the sign and the point among them. -/
def decimalText (p : NumeralParts) (negative : Bool) : DecimalText where
  sign := Layout.withSign negative []
  whole := p.whole
  point := if p.fraction = [] then [] else ['.']
  fraction := p.fraction
  exponent := p.tail

theorem rest_decimalText (p : NumeralParts) (negative : Bool) :
    (p.decimalText negative).rest = p.rest := by
  rw [rest, DecimalText.rest, decimalText]
  by_cases hfraction : p.fraction = [] <;> simp [hfraction]

theorem body_decimalText (p : NumeralParts) (negative : Bool) :
    (p.decimalText negative).body = p.text := by
  rw [DecimalText.body, rest_decimalText]
  rfl

theorem text_decimalText (p : NumeralParts) (negative : Bool) :
    (p.decimalText negative).text = Layout.withSign negative p.text := by
  rw [DecimalText.text, body_decimalText]
  cases negative <;> rfl

theorem decimal_decimalText (p : NumeralParts) (negative : Bool) (e : Int) :
    (p.decimalText negative).decimal e = p.decimal negative e := by
  cases negative <;> rfl

theorem IsNumeral.isValid (h : p.IsNumeral e) (negative : Bool) :
    (p.decimalText negative).IsValid e := by
  refine ⟨?_, h.whole, ?_, h.fraction, Or.inl h.ne_nil, readExponent?_eq_some_iff.1 h.tail⟩
  · cases negative <;> simp [decimalText, Layout.withSign, signs]
  · by_cases hfraction : p.fraction = [] <;> simp [decimalText, hfraction]

theorem IsNumeral.head_whole (h : p.IsNumeral e) :
    ∀ c ∈ p.text.head?, c.isDigit = true := by
  intro c hc
  rw [text, List.head?_append_of_ne_nil _ h.ne_nil] at hc
  exact h.whole c (List.mem_of_mem_head? hc)

theorem IsNumeral.takeWhile_text (h : p.IsNumeral e) :
    p.text.takeWhile Char.isDigit = p.whole := by
  rw [← body_decimalText p false, (h.isValid false).takeWhile_body]
  rfl

theorem IsNumeral.dropWhile_text (h : p.IsNumeral e) :
    p.text.dropWhile Char.isDigit = p.rest := by
  rw [← body_decimalText p false, (h.isValid false).dropWhile_body, rest_decimalText]

theorem IsNumeral.splitFraction_rest (h : p.IsNumeral e) :
    splitFraction p.rest = (p.fraction, p.tail) := by
  rw [← rest_decimalText p false, (h.isValid false).splitFraction_rest]
  rfl

/-- A text of parts is read as the decimal of the parts. -/
theorem IsNumeral.parse?_text (h : p.IsNumeral e) (negative : Bool) :
    Decimal.parse? (Layout.withSign negative p.text) = some (p.decimal negative e) := by
  rw [← text_decimalText, (h.isValid negative).parse?_text, decimal_decimalText]

end NumeralParts

/-! ## Writing the parts -/

namespace Layout

/-- A sign, zeros and the digits of a number are an exponent. -/
theorem parse?_exponentText (width : Nat) (e : Int) :
    (IntegerNumeral.parse? (exponentText width e)).map IntegerNumeral.value = some e := by
  have hdigits : isDigits (List.replicate (width - (naturalText e.natAbs).length) '0'
      ++ naturalText e.natAbs) = true := by
    have hne := naturalText_ne_nil e.natAbs
    simp only [isDigits, Bool.and_eq_true, Bool.not_eq_true', List.all_eq_true]
    refine ⟨by simp [hne], ?_⟩
    intro c hc
    rcases List.mem_append.1 hc with hzero | hdigit
    · exact isDigit_of_mem_zeros hzero
    · exact isDigit_of_mem_naturalText hdigit
  unfold exponentText
  dsimp only
  by_cases he : e < 0
  · rw [if_pos he, IntegerNumeral.parse?, splitSign_minus, if_pos hdigits, Option.map_some,
      IntegerNumeral.value, signed_true, naturalOf_zeros_append, naturalOf_naturalText]
    congr 1
    omega
  · rw [if_neg he, IntegerNumeral.parse?, splitSign_plus, if_pos hdigits, Option.map_some,
      IntegerNumeral.value, signed_false, naturalOf_zeros_append, naturalOf_naturalText]
    congr 1
    omega

theorem readExponent?_exponentText (width : Nat) (e : Int) :
    readExponent? ('e' :: exponentText width e) = some e := by
  rw [readExponent?, if_pos (Or.inl rfl), parse?_exponentText]

/-- The digits of a number but zero, as they are written. -/
structure IsDigitText (digits : Text) : Prop where
  ne_nil : digits ≠ []
  digit : ∀ c ∈ digits, c.isDigit = true
  leading : digits.head? ≠ some '0'

theorem isDigitText_significantDigits {n : Nat} (hn : n ≠ 0) :
    IsDigitText (significantDigits n) :=
  ⟨significantDigits_ne_nil n, fun _ hc => isDigit_of_mem_significantDigits hn hc,
    head?_significantDigits hn⟩

/-- The text is a numeral of `n * 10 ^ e`. -/
def IsNumeralOf (s : Text) (n : Nat) (e : Int) : Prop :=
  ∃ (p : NumeralParts) (x : Int), s = p.text ∧ p.IsNumeral x ∧
    ∀ negative, (p.decimal negative x).value = value ⟨negative, n, e⟩

section Positional

variable {digits : Text}

/-- Zeros behind the point, and then the digits. -/
theorem isNumeralOf_zeros_append (h : IsDigitText digits) (k : Nat) :
    IsNumeralOf ('0' :: '.' :: (List.replicate k '0' ++ digits)) (naturalOf digits)
      (-(k + digits.length)) := by
  have hne : List.replicate k '0' ++ digits ≠ [] := by simp [h.ne_nil]
  refine ⟨⟨['0'], List.replicate k '0' ++ digits, []⟩, 0, ?_, ?_, ?_⟩
  · simp [NumeralParts.text, NumeralParts.rest, h.ne_nil]
  · refine ⟨by simp, by simp, by simp, ?_, rfl, Or.inl hne⟩
    intro c hc
    rcases List.mem_append.1 hc with hzero | hdigit
    · exact isDigit_of_mem_zeros hzero
    · exact h.digit c hdigit
  · intro negative
    have hvalue := naturalOf_zeros_append (k + 1) digits
    rw [List.replicate_succ, List.cons_append] at hvalue
    simp only [NumeralParts.decimal, List.singleton_append, hvalue]
    congr 2
    rw [List.length_append, List.length_replicate]
    omega

/-- A whole number: zeros up to the point, and one behind it. -/
theorem isNumeralOf_append_zeros (h : IsDigitText digits) (k : Nat) :
    IsNumeralOf (digits ++ List.replicate k '0' ++ ['.', '0']) (naturalOf digits) k := by
  have hhead : (digits ++ List.replicate k '0').head? ≠ some '0' := by
    rw [List.head?_append_of_ne_nil _ h.ne_nil]
    exact h.leading
  refine ⟨⟨digits ++ List.replicate k '0', ['0'], []⟩, 0, ?_, ?_, ?_⟩
  · simp [NumeralParts.text, NumeralParts.rest]
  · refine ⟨by simp [h.ne_nil], ?_, fun hzero => absurd hzero hhead, by simp, rfl, by simp⟩
    intro c hc
    rcases List.mem_append.1 hc with hdigit | hzero
    · exact h.digit c hdigit
    · exact isDigit_of_mem_zeros hzero
  · intro negative
    have hdigits : digits ++ List.replicate k '0' ++ ['0']
        = digits ++ List.replicate (k + 1) '0' := by
      rw [List.replicate_succ', List.append_assoc]
    simp only [NumeralParts.decimal, hdigits, naturalOf_append_zeros]
    rw [value_shift]
    congr 2
    simp

/-- The point stands among the digits. -/
theorem isNumeralOf_take_drop (h : IsDigitText digits) {k : Nat} (hpos : 0 < k)
    (hk : k < digits.length) :
    IsNumeralOf (digits.take k ++ '.' :: digits.drop k) (naturalOf digits)
      (k - digits.length) := by
  have htake : digits.take k ≠ [] := by simp [h.ne_nil, hpos.ne']
  have hdrop : digits.drop k ≠ [] := by simp [hk]
  have hhead : (digits.take k).head? ≠ some '0' := by
    rw [List.head?_take, if_neg hpos.ne']
    exact h.leading
  refine ⟨⟨digits.take k, digits.drop k, []⟩, 0, ?_, ?_, ?_⟩
  · simp [NumeralParts.text, NumeralParts.rest, hk]
  · exact ⟨htake, fun c hc => h.digit c (List.mem_of_mem_take hc),
      fun hzero => absurd hzero hhead, fun c hc => h.digit c (List.mem_of_mem_drop hc), rfl,
      Or.inl hdrop⟩
  · intro negative
    simp only [NumeralParts.decimal, List.take_append_drop, List.length_drop]
    congr 2
    omega

/-- With a point, the digits are a numeral of the number that has the point
where it was asked for. -/
theorem isNumeralOf_positional (h : IsDigitText digits) (point : Int) :
    IsNumeralOf (positional digits point) (naturalOf digits) (point - digits.length) := by
  unfold positional
  by_cases hpoint : point ≤ 0
  · rw [if_pos hpoint]
    convert isNumeralOf_zeros_append h (-point).toNat using 1
    omega
  · rw [if_neg hpoint]
    by_cases hlong : digits.length ≤ point.toNat
    · rw [if_pos hlong]
      convert isNumeralOf_append_zeros h (point.toNat - digits.length) using 1
      omega
    · rw [if_neg hlong]
      convert isNumeralOf_take_drop h (k := point.toNat) (by omega) (by omega) using 1
      omega

end Positional

/-- With an exponent, the digits are a numeral of the number that has the point
behind the first digit. -/
theorem isNumeralOf_scientific {digits : Text} (h : IsDigitText digits) (width : Nat) (e : Int) :
    IsNumeralOf (scientific width digits e) (naturalOf digits) (e + 1 - digits.length) := by
  match digits, h with
  | [], h => exact absurd rfl h.ne_nil
  | [d], h =>
      refine ⟨⟨[d], [], 'e' :: exponentText width e⟩, e, rfl, ?_, ?_⟩
      · exact ⟨h.ne_nil, h.digit, fun hzero => absurd hzero h.leading, by simp,
          readExponent?_exponentText width e, by simp⟩
      · intro negative
        simp [NumeralParts.decimal]
  | d :: d' :: ds, h =>
      refine ⟨⟨[d], d' :: ds, 'e' :: exponentText width e⟩, e, rfl, ?_, ?_⟩
      · exact ⟨by simp, fun c hc => h.digit c (by simp_all), fun hzero => absurd hzero h.leading,
          fun c hc => h.digit c (List.mem_cons_of_mem d hc), readExponent?_exponentText width e,
          by simp⟩
      · intro negative
        simp only [NumeralParts.decimal, List.singleton_append, List.length_cons]
        congr 2
        omega

/-- Every layout writes the magnitude of a decimal as a numeral of it. -/
theorem isNumeralOf_magnitude (layout : Layout) (d : Decimal) (hd : d.significand ≠ 0) :
    IsNumeralOf (layout.magnitude d) d.significand d.exponent := by
  obtain ⟨zeros, hz⟩ := exists_naturalText_eq hd
  have h := isDigitText_significantDigits hd
  have hsig : d.significand = naturalOf (significantDigits d.significand) * 10 ^ zeros := by
    rw [← naturalOf_append_zeros, ← hz, naturalOf_naturalText]
  have hlength : (naturalText d.significand).length
      = (significantDigits d.significand).length + zeros := by
    rw [hz, List.length_append, List.length_replicate]
  have hnumeral : IsNumeralOf (layout.magnitude d)
      (naturalOf (significantDigits d.significand)) (d.exponent + zeros) := by
    unfold magnitude
    dsimp only
    split
    next =>
        convert isNumeralOf_positional h _ using 1
        omega
    next =>
        convert isNumeralOf_scientific h _ _ using 1
        omega
  obtain ⟨p, x, htext, hp, hvalue⟩ := hnumeral
  refine ⟨p, x, htext, hp, ?_⟩
  intro negative
  rw [hvalue, ← value_shift, ← hsig]

end Layout

end IdsRules.Numeral
