import IdsRules.Proofs.Numeral.Grammar
import IdsRules.Proofs.Numeral.Nearest
import IdsRules.Proofs.Rule.Fault

/-!
# The form of a value decides its type

An option value has one of four types, and each of them belongs to a set of texts:
signed digits in the range of 64 bits, signed names of special values, decimal
numerals below the middle between the greatest binary number and the next one,
and all other texts. The sets are described by the forms of numerals, and no reader
occurs in them. They overlap in one place only, where digits in range are a decimal
numeral as well, and there the integer goes first.

The number of a decimal numeral is the nearest one, so its magnitude is finite: an
infinity is never the value of digits.
-/

namespace IdsRules

namespace OptionValue

open Numeral

/-- The text is signed digits, and they denote `n`, which fits in 64 bits. -/
def IsInt64Text (s : Text) (n : Int) : Prop :=
  IsIntegerText s n ∧ -2 ^ 63 ≤ n ∧ n ≤ 2 ^ 63 - 1

/-- The text is a decimal numeral, and its magnitude does not round to more than
the greatest finite one. -/
def IsFiniteText (s : Text) : Prop :=
  ∃ negative q, IsDecimalText s negative q ∧ q < 2 ^ 1024 - 2 ^ 970

/-- The value has the type that the form of the text asks for. -/
structure IsTyped (s : Text) (v : OptionValue) : Prop where
  integer : ∀ n, v = .integer n ↔ IsInt64Text s n
  special : ∀ x, x.isFinite = false → (v = .float x ↔ IsSpecialText s x)
  finite : (∃ x, x.isFinite = true ∧ v = .float x) ↔
    (∀ n, ¬IsInt64Text s n) ∧ IsFiniteText s
  nearest : ∀ x, v = .float x → ∀ negative q, IsDecimalText s negative q →
    x.IsNearest negative q
  text : ∀ t, v = .text t ↔
    t = s ∧ (∀ n, ¬IsInt64Text s n) ∧ (∀ x, ¬IsSpecialText s x) ∧ ¬IsFiniteText s
  ne_flag : ∀ b, v ≠ .flag b

/-! ## What the readers have found -/

section Readers

variable {s : Text}

theorem isInt64Text_iff (hs : '\n' ∉ s) {r : Option Int} (h : readInt64 s = .ok r) (n : Int) :
    IsInt64Text s n ↔ r = some n := by
  rw [readInt64_eq_some_iff hs h, isInt64_iff, IsInt64Text]

theorem isSpecialText_iff_of_parse? {m : SpecialNumeral} (h : SpecialNumeral.parse? s = some m)
    (hplain : m.plain = true) (x : Binary64) : IsSpecialText s x ↔ m.value = x := by
  rw [← exists_parse?_iff_isSpecialText, h]
  constructor
  · rintro ⟨m', hm', -, rfl⟩
    rw [Option.some.inj hm']
  · exact fun hx => ⟨m, rfl, hplain, hx⟩

theorem not_isSpecialText_of_parse? (h : SpecialNumeral.parse? s = none) (x : Binary64) :
    ¬IsSpecialText s x := by
  rw [← exists_parse?_iff_isSpecialText, h]
  simp

theorem isDecimalText_iff_of_parse? {d : Decimal} (h : Decimal.parse? s = some d)
    (negative : Bool) (q : ℚ) :
    IsDecimalText s negative q ↔ d.negative = negative ∧ d.value = q := by
  rw [← exists_parse?_iff_isDecimalText, h]
  constructor
  · rintro ⟨d', hd', hnegative, hq⟩
    rw [Option.some.inj hd']
    exact ⟨hnegative, hq⟩
  · exact fun hd => ⟨d, rfl, hd⟩

theorem isFiniteText_iff :
    IsFiniteText s ↔ ∃ d, Decimal.parse? s = some d ∧ d.toBinary64.isFinite = true := by
  simp only [IsFiniteText, ← exists_parse?_iff_isDecimalText, Decimal.isFinite_toBinary64_iff]
  constructor
  · rintro ⟨negative, q, ⟨d, hd, -, rfl⟩, hq⟩
    exact ⟨d, hd, hq⟩
  · rintro ⟨d, hd, hq⟩
    exact ⟨d.negative, d.value, ⟨d, hd, rfl, rfl⟩, hq⟩

theorem isFinite_value (m : SpecialNumeral) : m.value.isFinite = false := by
  rw [SpecialNumeral.value]
  cases m.kind <;> rfl

end Readers

/-! ## The type of a value -/

variable {s : Text}

/-- What is read has the type that the form of the text asks for. -/
theorem Reads.isTyped {v : OptionValue} (hs : '\n' ∉ s) (h : Reads s v) : IsTyped s v := by
  cases h with
  | @integer n hint =>
      have hinteger (k : Int) : IsInt64Text s k ↔ n = k := by
        rw [isInt64Text_iff hs hint, Option.some.injEq]
      have hspecial (x : Binary64) : ¬IsSpecialText s x :=
        fun hx => hx.not_isIntegerText n ((hinteger n).2 rfl).1
      constructor
      case integer => simp [hinteger]
      case special => simp [hspecial]
      case finite => simp [hinteger]
      case nearest => simp
      case text => simp [hinteger]
      case ne_flag => simp
  | @special m hint hspecial hplain =>
      rw [Text.chomp_eq_self hs] at hspecial
      have hinteger (k : Int) : ¬IsInt64Text s k := by simp [isInt64Text_iff hs hint]
      have hvalue := isSpecialText_iff_of_parse? hspecial hplain
      have hdecimal := ((hvalue m.value).2 rfl).not_isDecimalText
      have hinfinite := isFinite_value m
      constructor
      case integer => simp [hinteger]
      case special => simp [hvalue]
      case finite => simp [IsFiniteText, hdecimal, hinfinite]
      case nearest => simp [hdecimal]
      case text => simp [hvalue]
      case ne_flag => simp
  | @decimal d hint hspecial hdecimal hfinite =>
      rw [Text.chomp_eq_self hs] at hspecial hdecimal
      have hinteger (k : Int) : ¬IsInt64Text s k := by simp [isInt64Text_iff hs hint]
      have hnone := not_isSpecialText_of_parse? hspecial
      have hfits : IsFiniteText s := isFiniteText_iff.2 ⟨d, hdecimal, hfinite⟩
      constructor
      case integer => simp [hinteger]
      case special =>
        intro x hx
        refine iff_of_false ?_ (hnone x)
        rw [float.injEq]
        rintro rfl
        rw [hfinite] at hx
        cases hx
      case finite => simp [hinteger, hfits, hfinite]
      case nearest =>
        intro x hx negative q hq
        obtain ⟨rfl, rfl⟩ := (isDecimalText_iff_of_parse? hdecimal negative q).1 hq
        cases hx
        exact Decimal.isNearest_toBinary64 hfinite
      case text => simp [hfits]
      case ne_flag => simp
  | text hint hspecial hdecimal =>
      rw [Text.chomp_eq_self hs] at hspecial hdecimal
      have hinteger (k : Int) : ¬IsInt64Text s k := by simp [isInt64Text_iff hs hint]
      have hnone := not_isSpecialText_of_parse? hspecial
      have hlarge : ¬IsFiniteText s := by
        rw [isFiniteText_iff]
        rintro ⟨d, hd, hfinite⟩
        rw [hdecimal d hd] at hfinite
        cases hfinite
      constructor
      case integer => simp [hinteger]
      case special => simp [hnone]
      case finite => simp [hlarge]
      case nearest => simp
      case text => simp [hinteger, hnone, hlarge, eq_comm]
      case ne_flag => simp

/-- A text without line feeds has a value unless it is one of the two kinds of numeral
at fault, and the value has the type that the form of the text asks for. -/
theorem isTyped_read (hs : '\n' ∉ s) :
    ((∃ v, read s = .ok v) ↔ ¬IsForeignInfinity s ∧ ¬IsPaddedInteger s) ∧
      ∀ v, read s = .ok v → IsTyped s v := by
  refine ⟨?_, fun v hv => (reads_of_read hv).isTyped hs⟩
  rw [← not_or, ← exists_read_eq_error_iff hs]
  cases read s with
  | error fault => simp
  | ok v => simp

/-- Nineteen significant digits that denote one less than the least 64-bit integer. -/
def belowInt64 : Text := "-009223372036854775809".toList

theorem isTyped_read_belowInt64 :
    ∃ x, read belowInt64 = .ok (.float x) ∧ (∀ n, ¬IsInt64Text belowInt64 n) ∧
      IsFiniteText belowInt64 ∧ x.IsNearest true (2 ^ 63 + 1) := by
  have hread : read belowInt64 = .ok (.float (.finite true ⟨1086 * 2 ^ 52, by decide⟩)) := by
    decide +kernel
  have htyped := (isTyped_read (s := belowInt64) (by decide)).2 _ hread
  obtain ⟨hinteger, hfinite⟩ := htyped.finite.1 ⟨_, rfl, rfl⟩
  have hdecimal : IsDecimalText belowInt64 true (2 ^ 63 + 1) := by
    refine exists_parse?_iff_isDecimalText.1 ⟨⟨true, 2 ^ 63 + 1, 0⟩, by decide +kernel, rfl, ?_⟩
    norm_num [Decimal.value]
  exact ⟨_, hread, hinteger, hfinite, htyped.nearest _ rfl true _ hdecimal⟩

end OptionValue

end IdsRules
