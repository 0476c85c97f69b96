import IdsRules.Proofs.Json.Occurrence
import IdsRules.Proofs.Rule.Members

/-!
# What a document leaves out

Port lists and metadata are asked twice whether they say anything: as records, by a
comparison of every field with its default, and as objects, by what members are left of
them. Both answers are the same (`Ports.isEmpty_iff_portMembers`,
`Metadata.isEmpty_iff_metadataMembers`), so an object is written only if it has a member.
The names of a document are therefore those of the header, the options and of what the
rule has to say besides, and no hollow value stands in it anywhere but for options
without a row.
-/

namespace IdsRules

namespace Rule

/-! ## Members that are left out -/

section OptionalMember

variable {name : Text} {value : Option Json}

theorem optionalMember_eq_nil_iff : optionalMember name value = [] ↔ value = none := by
  cases value <;> simp [optionalMember]

theorem mem_names_optionalMember_iff {n : Text} :
    n ∈ (optionalMember name value).map Prod.fst ↔ n = name ∧ value ≠ none := by
  cases value <;> simp [optionalMember]

end OptionalMember

theorem listValue?_eq_none_iff {items : List Text} : listValue? items = none ↔ items = [] := by
  cases items <;> simp [listValue?]

theorem integerValue?_eq_none_iff {n : Int} : integerValue? n = none ↔ n = 0 := by
  by_cases h : n = 0 <;> simp [integerValue?, h]

theorem textValue?_eq_none_iff {s : Text} : textValue? s = none ↔ s = [] := by
  cases s <;> simp [textValue?]

end Rule

theorem Ports.isEmpty_iff (p : Ports) : p.isEmpty = true ↔ p = ⟨[], []⟩ := by
  cases p
  simp [isEmpty]

/-- Port lists are empty exactly when no member of them is written. -/
theorem Ports.isEmpty_iff_portMembers (p : Ports) :
    p.isEmpty = true ↔ Rule.portMembers p = [] := by
  rw [Rule.portMembers, Rule.listMember_eq, Rule.listMember_eq, List.append_eq_nil_iff,
    Rule.optionalMember_eq_nil_iff, Rule.optionalMember_eq_nil_iff, Rule.listValue?_eq_none_iff,
    Rule.listValue?_eq_none_iff, isEmpty, Bool.and_eq_true, List.isEmpty_iff, List.isEmpty_iff]

/-- Metadata is empty exactly when no member of it is written. -/
theorem Metadata.isEmpty_iff_metadataMembers (m : Metadata) :
    m.isEmpty = true ↔ Rule.metadataMembers m = [] := by
  rw [Rule.metadataMembers, Rule.listMember_eq, Rule.listMember_eq, Rule.integerMember_eq,
    Rule.integerMember_eq, Rule.textMember_eq]
  simp only [List.append_eq_nil_iff, Rule.optionalMember_eq_nil_iff, Rule.listValue?_eq_none_iff,
    Rule.integerValue?_eq_none_iff, Rule.textValue?_eq_none_iff, isEmpty, Bool.and_eq_true,
    beq_iff_eq, List.isEmpty_iff]
  -- the fields are compared in one order and written in another
  constructor
  · rintro ⟨⟨⟨⟨hsid, hrevision⟩, hcves⟩, hreferences⟩, hseverity⟩
    exact ⟨⟨⟨⟨hcves, hreferences⟩, hsid⟩, hrevision⟩, hseverity⟩
  · rintro ⟨⟨⟨⟨hcves, hreferences⟩, hsid⟩, hrevision⟩, hseverity⟩
    exact ⟨⟨⟨⟨hsid, hrevision⟩, hcves⟩, hreferences⟩, hseverity⟩

namespace Rule

/-! ## The names of a document -/

/-- Each of the three names is there exactly when its member is written. -/
theorem mem_optionalNames_iff (r : Rule) :
    ("parsed_ports".toList ∈ r.optionalNames ↔ portsMember r.ports ≠ []) ∧
      ("metadata".toList ∈ r.optionalNames ↔ metadataMember r.metadata ≠ []) ∧
      ("raw_rule".toList ∈ r.optionalNames ↔ sourceMember r.source ≠ []) := by
  have hports : "parsed_ports".toList ≠ "metadata".toList := by decide
  have hmetadata : "metadata".toList ≠ "raw_rule".toList := by decide
  have hsource : "raw_rule".toList ≠ "parsed_ports".toList := by decide
  rw [optionalNames, portsMember_eq, metadataMember_eq, sourceMember_eq, List.map_append,
    List.map_append]
  simp only [List.mem_append, mem_names_optionalMember_iff, ne_eq, optionalMember_eq_nil_iff,
    hports, hports.symm, hmetadata, hmetadata.symm, hsource, hsource.symm, true_and, false_and,
    or_false, false_or, and_self]

theorem portsMember_eq_nil_iff {ports : Option Ports} :
    portsMember ports = [] ↔ ∀ p, ports = some p → p = ⟨[], []⟩ := by
  rw [portsMember_eq, optionalMember_eq_nil_iff, Option.map_eq_none_iff, Option.filter_eq_none_iff]
  simp only [Bool.not_eq_true', Bool.not_eq_false, Ports.isEmpty_iff]

theorem metadataMember_eq_nil_iff {metadata : Option Metadata} :
    metadataMember metadata = [] ↔ ∀ m, metadata = some m → m = {} := by
  rw [metadataMember_eq, optionalMember_eq_nil_iff, Option.map_eq_none_iff,
    Option.filter_eq_none_iff]
  simp only [Bool.not_eq_true', Bool.not_eq_false, Metadata.isEmpty_iff]

theorem sourceMember_eq_nil_iff {source : Option Text} :
    sourceMember source = [] ↔ source = none := by
  cases source <;> simp [sourceMember]

/-! ## The values of a document -/

theorem isFilled_listValue? (items : List Text) : ∀ v ∈ listValue? items, v.IsFilled := by
  intro v hv
  cases items with
  | nil => cases hv
  | cons s items =>
      cases hv
      refine Json.isFilled_array (List.cons_ne_nil _ _) fun item hitem => ?_
      obtain ⟨s, -, rfl⟩ := List.mem_map.1 hitem
      exact Json.IsScalar.isFilled trivial

theorem isFilled_integerValue? (n : Int) : ∀ v ∈ integerValue? n, v.IsFilled := by
  intro v hv
  obtain ⟨-, hvalue⟩ := Option.ite_none_left_eq_some.1 hv
  cases hvalue
  exact Json.IsScalar.isFilled trivial

theorem isFilled_textValue? (s : Text) : ∀ v ∈ textValue? s, v.IsFilled := by
  intro v hv
  obtain ⟨-, hvalue⟩ := Option.ite_none_left_eq_some.1 hv
  cases hvalue
  exact Json.IsScalar.isFilled trivial

theorem isFilled_portMembers {p : Ports} (h : p.isEmpty = false) :
    (Json.object (portMembers p)).IsFilled := by
  refine Json.isFilled_object (fun hnil => ?_) ?_
  · rw [← Ports.isEmpty_iff_portMembers, h] at hnil
    cases hnil
  · exact forall_mem_portMembers isFilled_listValue? p

theorem isFilled_metadataMembers {m : Metadata} (h : m.isEmpty = false) :
    (Json.object (metadataMembers m)).IsFilled := by
  refine Json.isFilled_object (fun hnil => ?_) ?_
  · rw [← Metadata.isEmpty_iff_metadataMembers, h] at hnil
    cases hnil
  · exact forall_mem_metadataMembers isFilled_listValue? isFilled_integerValue?
      isFilled_textValue? m

/-- Every member but the options is filled. -/
theorem isFilled_of_mem_members {r : Rule} {m : Text × Json} (hm : m ∈ r.members) :
    m.2.IsFilled ∨ m = ("options".toList, .object (optionMembers r.options)) := by
  rcases cases_of_mem_members hm with hheader | hoptions | ⟨p, hp, rfl⟩ | ⟨d, hd, rfl⟩ | ⟨s, rfl⟩
  · have hscalar : ∀ m ∈ headerMembers r.header, m.2.IsScalar := by
      simp [headerMembers, Json.IsScalar]
    exact .inl (hscalar m hheader).isFilled
  · exact .inr hoptions
  · exact .inl (isFilled_portMembers hp)
  · exact .inl (isFilled_metadataMembers hd)
  · exact .inl (Json.IsScalar.isFilled trivial)

theorem isFilled_of_mem_optionMembers {options : Options} :
    ∀ m ∈ optionMembers options, m.2.IsFilled := by
  intro m hm
  obtain ⟨row, -, rfl⟩ := List.mem_map.1 hm
  have hscalar : row.2.toJson.IsScalar := by cases row.2 <;> trivial
  exact hscalar.isFilled

/-- A hollow value in a document is the object of the options. -/
theorem eq_options_of_holds {r : Rule} {path : List Json.Selector} {v : Json}
    (h : r.toJson.Holds path v) (hhollow : v.IsHollow) :
    path = [.member "options".toList] ∧ v = .object (optionMembers r.options) := by
  rw [toJson] at h
  cases h with
  | here =>
      rcases hhollow with hnull | harray | hobject
      · cases hnull
      · cases harray
      · cases hobject
  | member hmember hv =>
      rcases isFilled_of_mem_members hmember with hfilled | hoptions
      · exact absurd hhollow (hfilled _ _ hv)
      · obtain ⟨rfl, rfl⟩ := Prod.mk.inj hoptions
        cases hv with
        | here => exact ⟨rfl, rfl⟩
        | member hrow hv => exact absurd hhollow (isFilled_of_mem_optionMembers _ hrow _ _ hv)

theorem exists_metadata_of_mem_members {r : Rule} {value : Json}
    (h : ("metadata".toList, value) ∈ r.members) :
    ∃ m, value = .object (metadataMembers m) := by
  rcases cases_of_mem_members h with hheader | hoptions | ⟨p, -, hm⟩ | ⟨d, -, hm⟩ | ⟨s, hm⟩
  · have hnames : ∀ m ∈ headerMembers r.header, m.1 ≠ "metadata".toList := by
      simp [headerMembers]
    exact absurd rfl (hnames _ hheader)
  · exact absurd (Prod.mk.inj hoptions).1 (by decide)
  · exact absurd (Prod.mk.inj hm).1 (by decide)
  · exact ⟨d, (Prod.mk.inj hm).2⟩
  · exact absurd (Prod.mk.inj hm).1 (by decide)

/-- No member of metadata is zero or an empty text. -/
theorem ne_default_of_mem_metadataMembers {m : Metadata} :
    ∀ x ∈ metadataMembers m, x.2 ≠ .integer 0 ∧ x.2 ≠ .string [] := by
  have hlist : ∀ items, ∀ v ∈ listValue? items, v ≠ .integer 0 ∧ v ≠ .string [] := by
    intro items v hv
    obtain ⟨-, hvalue⟩ := Option.ite_none_left_eq_some.1 hv
    cases hvalue
    exact ⟨nofun, nofun⟩
  have hinteger : ∀ n, ∀ v ∈ integerValue? n, v ≠ .integer 0 ∧ v ≠ .string [] := by
    intro n v hv
    obtain ⟨hne, hvalue⟩ := Option.ite_none_left_eq_some.1 hv
    cases hvalue
    exact ⟨fun h => hne (Json.integer.inj h), nofun⟩
  have htext : ∀ s, ∀ v ∈ textValue? s, v ≠ .integer 0 ∧ v ≠ .string [] := by
    intro s v hv
    obtain ⟨hne, hvalue⟩ := Option.ite_none_left_eq_some.1 hv
    cases hvalue
    exact ⟨nofun, fun h => hne (List.isEmpty_iff.2 (Json.string.inj h))⟩
  exact forall_mem_metadataMembers hlist hinteger htext m

/-- The records and their objects agree on what says nothing. A document has the names of
the header and the options in front of those of the port lists, the metadata and the
source, of which each is there exactly when the rule has it and it says something. Nothing
in a document is `null`, empty or, in the metadata, zero, but the options may be empty. -/
theorem toJson_omits_defaults (r : Rule) :
    (∀ p : Ports, p.isEmpty = true ↔ portMembers p = []) ∧
      (∀ m : Metadata, m.isEmpty = true ↔ metadataMembers m = []) ∧
      (∃ optional, r.toJson.memberNames = headerNames ++ optional ∧
        optional.Sublist ["parsed_ports".toList, "metadata".toList, "raw_rule".toList] ∧
        ("parsed_ports".toList ∈ optional ↔ ∃ p, r.ports = some p ∧ p ≠ ⟨[], []⟩) ∧
        ("metadata".toList ∈ optional ↔ ∃ m, r.metadata = some m ∧ m ≠ {}) ∧
        ("raw_rule".toList ∈ optional ↔ r.source ≠ none)) ∧
      (∀ path v, r.toJson.Holds path v →
        v ≠ .null ∧ v ≠ .array [] ∧ (v = .object [] → path = [.member "options".toList])) ∧
      ∀ name v, r.toJson.Holds [.member "metadata".toList, .member name] v →
        v ≠ .integer 0 ∧ v ≠ .string [] := by
  refine ⟨Ports.isEmpty_iff_portMembers, Metadata.isEmpty_iff_metadataMembers, ?_, ?_, ?_⟩
  · obtain ⟨hports, hmetadata, hsource⟩ := r.mem_optionalNames_iff
    refine ⟨r.optionalNames, r.memberNames_toJson, r.optionalNames_sublist, ?_, ?_, ?_⟩
    · rw [hports, ne_eq, portsMember_eq_nil_iff]
      simp only [not_forall, exists_prop, ne_eq]
    · rw [hmetadata, ne_eq, metadataMember_eq_nil_iff]
      simp only [not_forall, exists_prop, ne_eq]
    · rw [hsource, ne_eq, sourceMember_eq_nil_iff]
  · intro path v hv
    refine ⟨?_, ?_, fun hobject => (eq_options_of_holds hv (Or.inr (Or.inr hobject))).1⟩
    · rintro hnull
      have hoptions := (eq_options_of_holds hv (Or.inl hnull)).2
      rw [hnull] at hoptions
      cases hoptions
    · rintro harray
      have hoptions := (eq_options_of_holds hv (Or.inr (Or.inl harray))).2
      rw [harray] at hoptions
      cases hoptions
  · intro name v hv
    rw [toJson, Json.holds_member_iff] at hv
    obtain ⟨value, hmember, hv⟩ := hv
    obtain ⟨m, rfl⟩ := exists_metadata_of_mem_members hmember
    obtain ⟨value, hmember, hv⟩ := Json.holds_member_iff.1 hv
    rw [Json.holds_nil_iff.1 hv]
    exact ne_default_of_mem_metadataMembers _ hmember

/-- A rule of empty fields, with port lists that are there and empty, metadata with a
negative revision and nothing else, and an empty source. -/
def bareRule : Rule where
  header := ⟨[], [], [], [], [], [], []⟩
  ports := some ⟨[], []⟩
  metadata := some { revision := -1 }
  source := some []

theorem toJson_omits_defaults_bareRule :
    bareRule.toJson.Holds [.member "metadata".toList, .member "revision".toList] (.integer (-1)) ∧
      Json.integer (-1) ≠ .integer 0 ∧
      bareRule.toJson.Holds [.member "options".toList] (.object []) ∧
      Json.object [] ≠ .null ∧
      ∃ optional, bareRule.toJson.memberNames = headerNames ++ optional ∧
        "parsed_ports".toList ∉ optional ∧ "metadata".toList ∈ optional ∧
        "raw_rule".toList ∈ optional := by
  obtain ⟨-, -, ⟨optional, hnames, -, hports, hmetadata, hsource⟩, hvalues, hdefaults⟩ :=
    toJson_omits_defaults bareRule
  have hrevision : bareRule.toJson.Holds [.member "metadata".toList, .member "revision".toList]
      (.integer (-1)) := by
    have hobject : ("metadata".toList, Json.object (metadataMembers { revision := -1 })) ∈
        bareRule.members := by
      simp [members, metadataMember, bareRule, Metadata.isEmpty]
    refine .member hobject (.member ?_ (.here _))
    simp [metadataMembers, integerMember]
  have hoptions : bareRule.toJson.Holds [.member "options".toList] (.object []) := by
    refine .member ?_ (.here _)
    simp [members, optionMembers, bareRule, Table.empty]
  refine ⟨hrevision, (hdefaults _ _ hrevision).1, hoptions, (hvalues _ _ hoptions).1, optional,
    hnames, ?_, hmetadata.2 ⟨_, rfl, by decide⟩, hsource.2 (Option.some_ne_none _)⟩
  intro hmem
  obtain ⟨p, hp, hne⟩ := hports.1 hmem
  cases hp
  exact hne rfl

end Rule

end IdsRules
