import IdsRules.Proofs.Table
import IdsRules.Rule.Parser

/-!
# Metadata is always found

Metadata asks the value of an option for an integer, and where that value is a
text it reads the text as a numeral a second time. This second reading cannot
fail: an option has a text for its value only because the first reading has
found that the text is no 64-bit integer. So the only fault that a rule can have
is one of its option block.
-/

namespace IdsRules

namespace OptionValue

open Numeral

/-- How a text comes to its value: the readers are asked in turn, and the text stands
for itself when none of them gives a number or when the number is too large. -/
inductive Reads (s : Text) : OptionValue → Prop
  | integer {n : Int} (hint : readInt64 s = .ok (some n)) : Reads s (.integer n)
  | special {m : SpecialNumeral} (hint : readInt64 s = .ok none)
      (hspecial : SpecialNumeral.parse? (Text.chomp s) = some m) (hplain : m.plain = true) :
      Reads s (.float m.value)
  | decimal {d : Decimal} (hint : readInt64 s = .ok none)
      (hspecial : SpecialNumeral.parse? (Text.chomp s) = none)
      (hdecimal : Decimal.parse? (Text.chomp s) = some d)
      (hfinite : d.toBinary64.isFinite = true) : Reads s (.float d.toBinary64)
  | text (hint : readInt64 s = .ok none)
      (hspecial : SpecialNumeral.parse? (Text.chomp s) = none)
      (hdecimal : ∀ d, Decimal.parse? (Text.chomp s) = some d → d.toBinary64.isFinite = false) :
      Reads s (.text s)

theorem reads_of_read {s : Text} {v : OptionValue} (h : read s = .ok v) : Reads s v := by
  rw [read] at h
  cases hint : readInt64 s with
  | error fault => simp [hint] at h
  | ok r =>
      cases r with
      | some n =>
          rw [hint, Except.ok.injEq] at h
          exact h ▸ .integer hint
      | none =>
          simp only [hint, readNonInteger] at h
          cases hspecial : SpecialNumeral.parse? (Text.chomp s) with
          | some m =>
              simp only [hspecial] at h
              cases hplain : m.plain with
              | false => simp [hplain] at h
              | true =>
                  rw [hplain, if_pos rfl, Except.ok.injEq] at h
                  exact h ▸ .special hint hspecial hplain
          | none =>
              simp only [hspecial] at h
              cases hdecimal : Decimal.parse? (Text.chomp s) with
              | none =>
                  simp only [hdecimal, Except.ok.injEq] at h
                  exact h ▸ .text hint hspecial (by simp [hdecimal])
              | some d =>
                  simp only [hdecimal, Except.ok.injEq] at h
                  cases hfinite : d.toBinary64.isFinite with
                  | true =>
                      rw [hfinite, if_pos rfl] at h
                      exact h ▸ .decimal hint hspecial hdecimal hfinite
                  | false =>
                      rw [hfinite, if_neg (by decide)] at h
                      exact h ▸ .text hint hspecial (by simp [hdecimal, hfinite])

/-- A text that is read as a text is kept, and it is no 64-bit integer. -/
theorem readInt64_of_read_eq_text {s t : Text} (h : read s = .ok (.text t)) :
    t = s ∧ readInt64 s = .ok none := by
  cases reads_of_read h with
  | text hint => exact ⟨rfl, hint⟩

/-- A value that was read contributes an integer. -/
theorem exists_toInteger_of_read {s : Text} {v : OptionValue} (h : read s = .ok v) :
    ∃ n, v.toInteger = .ok n := by
  cases v with
  | flag b => exact ⟨0, rfl⟩
  | integer n => exact ⟨n, rfl⟩
  | float x => exact ⟨0, rfl⟩
  | text t =>
      obtain ⟨rfl, hnone⟩ := readInt64_of_read_eq_text h
      exact ⟨0, by rw [toInteger, hnone]; rfl⟩

end OptionValue

namespace OptionBlock

theorem exists_value_of_mem_rows {fragments : List Text} {out : List (Text × OptionValue)}
    (h : rows fragments = .ok out) {row : Text × OptionValue} (hrow : row ∈ out) :
    ∃ fragment ∈ fragments, row.1 = key fragment ∧ value fragment = .ok row.2 := by
  induction fragments generalizing out with
  | nil =>
      simp only [rows_nil, Except.ok.injEq] at h
      subst h
      exact absurd hrow List.not_mem_nil
  | cons fragment rest ih =>
      obtain ⟨v, vs, hv, hvs, rfl⟩ := rows_cons_eq_ok_iff.1 h
      rcases List.mem_cons.1 hrow with rfl | hmem
      · exact ⟨fragment, by simp, rfl, hv⟩
      · obtain ⟨f, hf, hkey, hvalue⟩ := ih hvs hmem
        exact ⟨f, List.mem_cons_of_mem _ hf, hkey, hvalue⟩

/-- Every option of a block is a flag, or its value was read from a text. -/
theorem eq_flag_or_exists_read {block : Text} {options : Options}
    (h : parse block = .ok options) {k : Text} {v : OptionValue}
    (hv : options.get? k = some v) : v = .flag true ∨ ∃ t, OptionValue.read t = .ok v := by
  obtain ⟨out, hout, rfl⟩ := parse_eq_ok_iff.1 h
  obtain ⟨fragment, -, -, hvalue⟩ :=
    exists_value_of_mem_rows hout (Table.exists_mem_of_get?_ofList hv)
  rw [value] at hvalue
  split at hvalue
  · exact Or.inl (Except.ok.inj hvalue).symm
  · exact Or.inr ⟨_, hvalue⟩

theorem exists_toInteger_of_parse {block : Text} {options : Options}
    (h : parse block = .ok options) {k : Text} {v : OptionValue}
    (hv : options.get? k = some v) : ∃ n, v.toInteger = .ok n := by
  rcases eq_flag_or_exists_read h hv with rfl | ⟨t, hread⟩
  · exact ⟨0, rfl⟩
  · exact OptionValue.exists_toInteger_of_read hread

end OptionBlock

namespace Metadata

theorem exists_integerOf {options : Options} (key : Text)
    (h : ∀ v, options.get? key = some v → ∃ n, v.toInteger = .ok n) :
    ∃ n, integerOf options key = .ok n := by
  rw [integerOf]
  cases hv : options.get? key with
  | none => exact ⟨0, rfl⟩
  | some v => exact h v hv

theorem exists_read?_of_parse {block : Text} {options : Options}
    (h : OptionBlock.parse block = .ok options) : ∃ m, read? options = .ok m := by
  obtain ⟨sid, hsid⟩ := exists_integerOf "sid".toList
    fun _ hv => OptionBlock.exists_toInteger_of_parse h hv
  obtain ⟨revision, hrevision⟩ := exists_integerOf "rev".toList
    fun _ hv => OptionBlock.exists_toInteger_of_parse h hv
  rw [read?, gather, hsid]
  simp only [hrevision]
  exact ⟨_, rfl⟩

end Metadata

namespace Rule

/-- A rule is read from its parts whenever its option block is. -/
theorem exists_ofParts (header : Header) {block : Text} {options : Options}
    (h : OptionBlock.parse block = .ok options) (source : Option Text) :
    ∃ rule, ofParts header block source = .ok rule ∧ rule.header = header ∧
      rule.options = options := by
  obtain ⟨metadata, hm⟩ := Metadata.exists_read?_of_parse h
  exact ⟨_, ofParts_eq_ok_iff.2 ⟨options, metadata, h, hm, rfl⟩, rfl, rfl⟩

end Rule

end IdsRules
