import IdsRules.Proofs.Numeral.Grammar
import IdsRules.Proofs.Rule.Parsed

/-!
# Metadata follow from the typed options

Each field of the metadata asks for one option, and for a value of one form there.
A field is decided by that value alone: a flag is no integer, and neither is a
floating-point number or a text. A text would be read as an integer once more, but
the second reading finds what the first has found, so no text among the options of a
rule ever contributes a number.

The fields determine the metadata, and a rule goes without them exactly when every
field is at its default.
-/

namespace IdsRules

open Numeral

namespace Metadata

/-! ## Fields -/

/-- The value at a key decides a field. The field is `given a` where the value is
`form a`, and `missing` where it has another form or is not there. -/
def IsField {α β : Type} (options : Options) (key : Text) (form : α → OptionValue)
    (given : α → β) (missing field : β) : Prop :=
  (∀ a, options.get? key = some (form a) → field = given a) ∧
    ((∀ a, options.get? key ≠ some (form a)) → field = missing)

namespace IsField

variable {α β : Type} {options : Options} {key : Text} {form : α → OptionValue} {given : α → β}
  {missing field field' : β}

theorem unique (h : IsField options key form given missing field)
    (h' : IsField options key form given missing field') : field = field' := by
  by_cases hform : ∃ a, options.get? key = some (form a)
  · obtain ⟨a, ha⟩ := hform
    rw [h.1 a ha, h'.1 a ha]
  · have hno := not_exists.1 hform
    rw [h.2 hno, h'.2 hno]

theorem eq_missing_iff (h : IsField options key form given missing field) :
    field = missing ↔ ∀ a, options.get? key = some (form a) → given a = missing := by
  constructor
  · rintro rfl a ha
    exact (h.1 a ha).symm
  · intro hmissing
    by_cases hform : ∃ a, options.get? key = some (form a)
    · obtain ⟨a, ha⟩ := hform
      rw [h.1 a ha, hmissing a ha]
    · exact h.2 (not_exists.1 hform)

theorem eq_given_iff (h : IsField options key form given missing field)
    (hgiven : Function.Injective given) (hmissing : ∀ a, given a ≠ missing) (a : α) :
    field = given a ↔ options.get? key = some (form a) := by
  constructor
  · intro hfield
    by_cases hform : ∃ b, options.get? key = some (form b)
    · obtain ⟨b, hb⟩ := hform
      rw [h.1 b hb] at hfield
      exact hgiven hfield ▸ hb
    · exact absurd (hfield.symm.trans (h.2 (not_exists.1 hform))) (hmissing a)
  · exact h.1 a

end IsField

/-- Every field of the metadata is decided by an option. -/
structure IsDerived (options : Options) (m : Metadata) : Prop where
  sid : IsField options "sid".toList .integer id 0 m.sid
  revision : IsField options "rev".toList .integer id 0 m.revision
  references : IsField options "reference".toList .text (fun s => [s]) [] m.references
  cves : IsField options "reference".toList (fun c => .text ("cve,".toList ++ c)) (fun c => [c]) []
    m.cves
  severity : IsField options "classtype".toList .text id [] m.severity

section Derived

variable {options : Options}

/-- The options determine the metadata. -/
theorem IsDerived.unique {m m' : Metadata} (h : IsDerived options m) (h' : IsDerived options m') :
    m = m' := by
  cases m
  cases m'
  rw [Metadata.mk.injEq]
  exact ⟨h.cves.unique h'.cves, h.references.unique h'.references, h.sid.unique h'.sid,
    h.revision.unique h'.revision, h.severity.unique h'.severity⟩

/-- Where no text is a 64-bit integer, an integer comes from an integer. -/
theorem isField_integerOf (htext : ∀ k s, options.get? k = some (.text s) → readInt64 s = .ok none)
    {key : Text} {n : Int} (h : integerOf options key = .ok n) :
    IsField options key .integer id 0 n := by
  rw [integerOf] at h
  rw [IsField]
  cases hv : options.get? key with
  | none =>
      simp only [hv, Except.ok.injEq] at h
      simp [h]
  | some v =>
      rw [hv] at h
      cases v with
      | integer k =>
          cases h
          simp
      | flag b =>
          cases h
          simp
      | float x =>
          cases h
          simp
      | text s =>
          simp only [OptionValue.toInteger, htext key s hv, Except.map, Except.ok.injEq] at h
          simp [← h]

theorem textOf?_eq_some_iff {key s : Text} :
    textOf? options key = some s ↔ options.get? key = some (.text s) := by
  rw [textOf?, Option.bind_eq_some_iff]
  constructor
  · rintro ⟨v, hv, htext⟩
    cases v <;> cases htext
    exact hv
  · exact fun h => ⟨.text s, h, rfl⟩

theorem isField_textOf? {β : Type} (key : Text) (given : Text → β) (missing : β) :
    IsField options key .text given missing ((textOf? options key).elim missing given) := by
  constructor
  · intro s hs
    rw [textOf?_eq_some_iff.2 hs, Option.elim_some]
  · intro hno
    cases htext : textOf? options key with
    | none => rfl
    | some s => exact absurd (textOf?_eq_some_iff.1 htext) (hno s)

theorem isField_cveOf? (key : Text) :
    IsField options key (fun c => .text ("cve,".toList ++ c)) (fun c => [c]) []
      ((textOf? options key).bind cveOf?).toList := by
  constructor
  · intro c hc
    rw [textOf?_eq_some_iff.2 hc, Option.bind_some, cveOf?, Text.after?_eq_some_iff.2 rfl]
    rfl
  · intro hno
    cases htext : textOf? options key with
    | none => rfl
    | some s =>
        cases hcve : cveOf? s with
        | none => rw [Option.bind_some, hcve, Option.toList_none]
        | some c =>
            rw [cveOf?, Text.after?_eq_some_iff] at hcve
            rw [textOf?_eq_some_iff, hcve] at htext
            exact absurd htext (hno c)

theorem isDerived_of_gather
    (htext : ∀ k s, options.get? k = some (.text s) → readInt64 s = .ok none) {m : Metadata}
    (h : gather options = .ok m) : IsDerived options m := by
  obtain ⟨sid, revision, hsid, hrevision, rfl⟩ := gather_eq_ok_iff.1 h
  refine ⟨isField_integerOf htext hsid, isField_integerOf htext hrevision, ?_,
    isField_cveOf? _, ?_⟩
  · convert isField_textOf? "reference".toList (fun s => [s]) [] using 1
    cases textOf? options "reference".toList <;> rfl
  · convert isField_textOf? "classtype".toList id [] using 1
    cases textOf? options "classtype".toList <;> rfl

/-- The metadata are at their defaults exactly when no option says anything else. -/
theorem IsDerived.isEmpty_iff {m : Metadata} (h : IsDerived options m) :
    m.isEmpty = true ↔ m.sid = 0 ∧ m.revision = 0 ∧
      (∀ s, options.get? "reference".toList ≠ some (.text s)) ∧
      ∀ s, options.get? "classtype".toList = some (.text s) → s = [] := by
  have hreference : m.references = [] ↔
      ∀ s, options.get? "reference".toList ≠ some (.text s) := by
    rw [h.references.eq_missing_iff]
    simp
  have hseverity : m.severity = [] ↔
      ∀ s, options.get? "classtype".toList = some (.text s) → s = [] := h.severity.eq_missing_iff
  rw [← hreference, ← hseverity]
  simp only [isEmpty, Bool.and_eq_true, beq_iff_eq, List.isEmpty_iff]
  constructor
  · rintro ⟨⟨⟨⟨hsid, hrevision⟩, -⟩, hreferences⟩, hsev⟩
    exact ⟨hsid, hrevision, hreferences, hsev⟩
  · rintro ⟨hsid, hrevision, hreferences, hsev⟩
    refine ⟨⟨⟨⟨hsid, hrevision⟩, ?_⟩, hreferences⟩, hsev⟩
    exact h.cves.2 fun c => hreference.1 hreferences _

end Derived

end Metadata

namespace OptionBlock

/-- No text among the options of a block is a 64-bit integer. -/
theorem readInt64_of_parse {block : Text} {options : Options} (h : parse block = .ok options)
    {k s : Text} (hs : options.get? k = some (.text s)) : readInt64 s = .ok none := by
  rcases eq_flag_or_exists_read h hs with hflag | ⟨t, hread⟩
  · cases hflag
  · obtain ⟨rfl, hnone⟩ := OptionValue.readInt64_of_read_eq_text hread
    exact hnone

end OptionBlock

namespace Rule

/-- The metadata of a rule are what its typed options say, without another look at a
text, and they are absent exactly when the options say nothing. -/
theorem metadata_of_parse (settings : Settings) {line : Text} {rule : Rule}
    (h : parse settings.keepSource line = .ok rule) :
    (∀ k s, rule.options.get? k = some (.text s) → readInt64 s = .ok none) ∧
      ∃ m, (∀ m', Metadata.IsDerived rule.options m' ↔ m' = m) ∧
        (-2 ^ 63 ≤ m.sid ∧ m.sid ≤ 2 ^ 63 - 1) ∧
        (-2 ^ 63 ≤ m.revision ∧ m.revision ≤ 2 ^ 63 - 1) ∧
        (∀ c, m.cves = [c] ↔
          rule.options.get? "reference".toList = some (.text ("cve,".toList ++ c))) ∧
        (∀ m', rule.metadata = some m' → m' = m) ∧
        (rule.metadata = none ↔ m.sid = 0 ∧ m.revision = 0 ∧
          (∀ s, rule.options.get? "reference".toList ≠ some (.text s)) ∧
          ∀ s, rule.options.get? "classtype".toList = some (.text s) → s = []) := by
  obtain ⟨header, block, -, hparts⟩ := parse_eq_ok_iff.1 h
  obtain ⟨options, metadata, hoptions, hmetadata, rfl⟩ := ofParts_eq_ok_iff.1 hparts
  have htext : ∀ k s, options.get? k = some (.text s) → readInt64 s = .ok none :=
    fun _ _ hs => OptionBlock.readInt64_of_parse hoptions hs
  have hfits : ∀ row ∈ options.rows, ∀ n, row.2 = .integer n → isInt64 n = true :=
    fun _ hrow _ hn => OptionBlock.isInt64_of_mem_rows hoptions hrow hn
  obtain ⟨m, hgather, hm⟩ := Metadata.read?_eq_ok_iff.1 hmetadata
  have hderived := Metadata.isDerived_of_gather htext hgather
  obtain ⟨sid, revision, hsid, hrevision, hfields⟩ := Metadata.gather_eq_ok_iff.1 hgather
  refine ⟨htext, m, fun m' => ⟨fun h' => h'.unique hderived, ?_⟩, ?_, ?_, ?_, ?_, ?_⟩
  · rintro rfl
    exact hderived
  · rw [hfields]
    exact isInt64_iff.1 (Metadata.isInt64_of_integerOf hfits hsid)
  · rw [hfields]
    exact isInt64_iff.1 (Metadata.isInt64_of_integerOf hfits hrevision)
  · exact hderived.cves.eq_given_iff (fun c d hcd => List.singleton_inj.1 hcd) (by simp)
  · intro m' hm'
    change metadata = some m' at hm'
    rw [hm, Option.ite_none_left_eq_some, Option.some.injEq] at hm'
    exact hm'.2.symm
  · change metadata = none ↔ _
    rw [← hderived.isEmpty_iff, hm]
    cases m.isEmpty <;> simp

/-- The identifier is a number in quotes, the revision is a flag, and the class is a
number too large for a finite one. -/
def looseLine : Text :=
  "alert ip any any -> any any (sid:\"+7\"; rev; reference:cve,1; classtype:-1e999)".toList

def looseRule : Rule where
  header := ⟨"alert".toList, "ip".toList, "any".toList, "any".toList, "->".toList, "any".toList,
    "any".toList⟩
  options := ⟨[("sid".toList, .integer 7), ("rev".toList, .flag true),
    ("reference".toList, .text "cve,1".toList), ("classtype".toList, .text "-1e999".toList)],
    by decide⟩
  ports := Ports.read? "any".toList "any".toList
  metadata := some ⟨["1".toList], ["cve,1".toList], 7, 0, "-1e999".toList⟩
  source := some looseLine

theorem metadata_of_parse_looseRule :
    parse true looseLine = .ok looseRule ∧
      Metadata.IsDerived looseRule.options
        ⟨["1".toList], ["cve,1".toList], 7, 0, "-1e999".toList⟩ ∧
      looseRule.options.get? "reference".toList = some (.text "cve,1".toList) ∧
      looseRule.metadata ≠ none := by
  have hparse : parse true looseLine = .ok looseRule := by decide +kernel
  obtain ⟨-, m, hderived, -, -, hcves, hmetadata, hnone⟩ :=
    metadata_of_parse {} hparse
  have hm := hmetadata _ rfl
  refine ⟨hparse, (hderived _).2 hm, (hcves "1".toList).1 (by rw [← hm]), ?_⟩
  intro habsent
  have hsid := (hnone.1 habsent).1
  rw [← hm] at hsid
  cases hsid

end Rule

end IdsRules
