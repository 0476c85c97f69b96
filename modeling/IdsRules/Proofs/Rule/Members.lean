import IdsRules.Proofs.Json.MemberNames
import IdsRules.Rule.Document

/-!
# The members of a document

Every member of a document but those of the header and the options has a value
at which it is left out, and each is an `optionalMember`: looking it up gives
its value or nothing, and looking another name up passes it by. What holds of all
members of an object is shown for the kinds of member that it can have. The names
of a document, and of the objects in it, are taken from fixed lists in which no
name stands twice; the keys of the options are distinct because a table's are.
-/

namespace IdsRules

namespace Rule

/-- The member of a name, if it has a value. -/
def optionalMember (name : Text) (value : Option Json) : List (Text × Json) :=
  (value.map fun v => (name, v)).toList

theorem member?_object_append (name : Text) (ms ms' : List (Text × Json)) :
    (Json.object (ms ++ ms')).member? name =
      ((Json.object ms).member? name).or ((Json.object ms').member? name) := by
  simp only [Json.member?, List.find?_append]
  cases ms.find? fun m => m.1 == name with
  | none => rfl
  | some m => rfl

theorem member?_optionalMember (name : Text) (value : Option Json) :
    (Json.object (optionalMember name value)).member? name = value := by
  cases value with
  | none => rfl
  | some v => simp [optionalMember, Json.member?]

theorem member?_optionalMember_of_ne {name name' : Text} (h : name' ≠ name)
    (value : Option Json) : (Json.object (optionalMember name' value)).member? name = none := by
  cases value with
  | none => rfl
  | some v => simp [optionalMember, Json.member?, h]

theorem mem_optionalMember_iff {name : Text} {value : Option Json} {m : Text × Json} :
    m ∈ optionalMember name value ↔ m.1 = name ∧ value = some m.2 := by
  obtain ⟨n, v⟩ := m
  cases value <;> simp [optionalMember, eq_comm]

/-- What is true of the value is true of the member. -/
theorem forall_mem_optionalMember {P : Json → Prop} {name : Text} {value : Option Json}
    (h : ∀ v ∈ value, P v) : ∀ m ∈ optionalMember name value, P m.2 := by
  cases value with
  | none => simp [optionalMember]
  | some v => simpa [optionalMember] using h

/-- A list of texts as a value, if it is not empty. -/
def listValue? (items : List Text) : Option Json :=
  if items.isEmpty then none else some (.array (items.map .string))

/-- An integer as a value, if it is not zero. -/
def integerValue? (n : Int) : Option Json :=
  if n = 0 then none else some (.integer n)

/-- A text as a value, if it is not empty. -/
def textValue? (s : Text) : Option Json :=
  if s.isEmpty then none else some (.string s)

theorem listMember_eq (name : String) (items : List Text) :
    listMember name items = optionalMember name.toList (listValue? items) := by
  unfold listMember listValue?
  split
  next => rfl
  next => rfl

theorem integerMember_eq (name : String) (n : Int) :
    integerMember name n = optionalMember name.toList (integerValue? n) := by
  unfold integerMember integerValue?
  split
  next => rfl
  next => rfl

theorem textMember_eq (name : String) (s : Text) :
    textMember name s = optionalMember name.toList (textValue? s) := by
  unfold textMember textValue?
  split
  next => rfl
  next => rfl

theorem portsMember_eq (p : Option Ports) :
    portsMember p = optionalMember "parsed_ports".toList
      ((p.filter fun p => !p.isEmpty).map fun p => .object (portMembers p)) := by
  cases p with
  | none => rfl
  | some p =>
      by_cases hempty : p.isEmpty = true
      · have hfilter : (some p).filter (fun p => !p.isEmpty) = none := by simp [hempty]
        rw [portsMember, if_pos hempty, hfilter]
        rfl
      · have hfilter : (some p).filter (fun p => !p.isEmpty) = some p := by simp [hempty]
        rw [portsMember, if_neg hempty, hfilter]
        rfl

theorem metadataMember_eq (m : Option Metadata) :
    metadataMember m = optionalMember "metadata".toList
      ((m.filter fun m => !m.isEmpty).map fun m => .object (metadataMembers m)) := by
  cases m with
  | none => rfl
  | some m =>
      by_cases hempty : m.isEmpty = true
      · have hfilter : (some m).filter (fun m => !m.isEmpty) = none := by simp [hempty]
        rw [metadataMember, if_pos hempty, hfilter]
        rfl
      · have hfilter : (some m).filter (fun m => !m.isEmpty) = some m := by simp [hempty]
        rw [metadataMember, if_neg hempty, hfilter]
        rfl

theorem sourceMember_eq (s : Option Text) :
    sourceMember s = optionalMember "raw_rule".toList (s.map .string) := by
  cases s with
  | none => rfl
  | some s => rfl

/-! ## What a member is -/

theorem forall_mem_portMembers {P : Json → Prop} (hlist : ∀ items, ∀ v ∈ listValue? items, P v)
    (p : Ports) : ∀ m ∈ portMembers p, P m.2 := by
  rw [portMembers, listMember_eq, listMember_eq]
  simp only [List.forall_mem_append]
  exact ⟨forall_mem_optionalMember (hlist _), forall_mem_optionalMember (hlist _)⟩

theorem forall_mem_metadataMembers {P : Json → Prop}
    (hlist : ∀ items, ∀ v ∈ listValue? items, P v) (hinteger : ∀ n, ∀ v ∈ integerValue? n, P v)
    (htext : ∀ s, ∀ v ∈ textValue? s, P v) (m : Metadata) : ∀ x ∈ metadataMembers m, P x.2 := by
  rw [metadataMembers, listMember_eq, listMember_eq, integerMember_eq, integerMember_eq,
    textMember_eq]
  simp only [List.forall_mem_append]
  exact ⟨⟨⟨⟨forall_mem_optionalMember (hlist _), forall_mem_optionalMember (hlist _)⟩,
    forall_mem_optionalMember (hinteger _)⟩, forall_mem_optionalMember (hinteger _)⟩,
    forall_mem_optionalMember (htext _)⟩

/-- A member of a document is one of the header, that of the options, or that of one of the
three things that a rule need not have. -/
theorem cases_of_mem_members {r : Rule} {m : Text × Json} (h : m ∈ r.members) :
    m ∈ headerMembers r.header ∨ m = ("options".toList, .object (optionMembers r.options)) ∨
      (∃ p : Ports, p.isEmpty = false ∧ m = ("parsed_ports".toList, .object (portMembers p))) ∨
      (∃ d : Metadata, d.isEmpty = false ∧
        m = ("metadata".toList, .object (metadataMembers d))) ∨
      ∃ s, m = ("raw_rule".toList, .string s) := by
  obtain ⟨name, value⟩ := m
  rw [members, portsMember_eq, metadataMember_eq, sourceMember_eq] at h
  simp only [List.mem_append, List.mem_singleton, mem_optionalMember_iff,
    Option.map_eq_some_iff, Option.filter_eq_some_iff] at h
  rcases h with (((hheader | hoptions) | hports) | hmetadata) | hsource
  · exact .inl hheader
  · exact .inr (.inl hoptions)
  · obtain ⟨rfl, p, ⟨-, hp⟩, rfl⟩ := hports
    exact .inr (.inr (.inl ⟨p, by simpa using hp, rfl⟩))
  · obtain ⟨rfl, d, ⟨-, hd⟩, rfl⟩ := hmetadata
    exact .inr (.inr (.inr (.inl ⟨d, by simpa using hd, rfl⟩)))
  · obtain ⟨rfl, s, -, rfl⟩ := hsource
    exact .inr (.inr (.inr (.inr ⟨s, rfl⟩)))

/-! ## The names of the members -/

theorem names_optionalMember (name : Text) (value : Option Json) :
    ((optionalMember name value).map Prod.fst).Sublist [name] := by
  cases value with
  | none => exact List.nil_sublist _
  | some v => exact List.Sublist.refl _

theorem hasDistinctNames_listValue? (items : List Text) :
    ∀ v ∈ listValue? items, v.HasDistinctNames := by
  intro v hv
  unfold listValue? at hv
  split at hv
  next => cases hv
  next =>
      cases hv
      rw [Json.hasDistinctNames_array_iff]
      intro item hitem
      obtain ⟨s, -, rfl⟩ := List.mem_map.1 hitem
      trivial

theorem hasDistinctNames_integerValue? (n : Int) :
    ∀ v ∈ integerValue? n, v.HasDistinctNames := by
  intro v hv
  unfold integerValue? at hv
  split at hv
  next => cases hv
  next =>
      cases hv
      trivial

theorem hasDistinctNames_textValue? (s : Text) :
    ∀ v ∈ textValue? s, v.HasDistinctNames := by
  intro v hv
  unfold textValue? at hv
  split at hv
  next => cases hv
  next =>
      cases hv
      trivial

theorem hasDistinctNames_portMembers (p : Ports) :
    (Json.object (portMembers p)).HasDistinctNames := by
  rw [Json.hasDistinctNames_object_iff]
  constructor
  · have hnames := (names_optionalMember "source_ports".toList (listValue? p.source)).append
      (names_optionalMember "destination_ports".toList (listValue? p.destination))
    rw [portMembers, listMember_eq, listMember_eq, List.map_append]
    exact hnames.nodup (by decide)
  · exact forall_mem_portMembers hasDistinctNames_listValue? p

theorem hasDistinctNames_metadataMembers (m : Metadata) :
    (Json.object (metadataMembers m)).HasDistinctNames := by
  rw [Json.hasDistinctNames_object_iff]
  constructor
  · have hnames := ((((names_optionalMember "cves".toList (listValue? m.cves)).append
      (names_optionalMember "references".toList (listValue? m.references))).append
      (names_optionalMember "sid".toList (integerValue? m.sid))).append
      (names_optionalMember "revision".toList (integerValue? m.revision))).append
      (names_optionalMember "severity".toList (textValue? m.severity))
    rw [metadataMembers, listMember_eq, listMember_eq, integerMember_eq, integerMember_eq,
      textMember_eq]
    simp only [List.map_append]
    exact hnames.nodup (by decide)
  · exact forall_mem_metadataMembers hasDistinctNames_listValue? hasDistinctNames_integerValue?
      hasDistinctNames_textValue? m

theorem hasDistinctNames_optionMembers (options : Options) :
    (Json.object (optionMembers options)).HasDistinctNames := by
  rw [Json.hasDistinctNames_object_iff, optionMembers, List.map_map]
  refine ⟨options.nodup, ?_⟩
  intro m hm
  obtain ⟨row, -, rfl⟩ := List.mem_map.1 hm
  cases row.2 <;> trivial

def headerNames : List Text :=
  ["action".toList, "protocol".toList, "source_ip".toList, "source_port".toList,
    "direction".toList, "dest_ip".toList, "dest_port".toList, "options".toList]

/-- The names that a document can have, in their order. -/
def documentNames : List Text :=
  headerNames ++ ["parsed_ports".toList] ++ ["metadata".toList] ++ ["raw_rule".toList]

def optionalNames (r : Rule) : List Text :=
  (portsMember r.ports ++ metadataMember r.metadata ++ sourceMember r.source).map Prod.fst

theorem memberNames_toJson (r : Rule) : r.toJson.memberNames = headerNames ++ r.optionalNames := by
  rw [toJson, Json.memberNames, members, optionalNames, List.append_assoc, List.append_assoc,
    List.map_append, List.append_assoc]
  rfl

theorem optionalNames_sublist (r : Rule) :
    r.optionalNames.Sublist ["parsed_ports".toList, "metadata".toList, "raw_rule".toList] := by
  rw [optionalNames, portsMember_eq, metadataMember_eq, sourceMember_eq, List.map_append,
    List.map_append]
  exact ((names_optionalMember _ _).append (names_optionalMember _ _)).append
    (names_optionalMember _ _)

theorem memberNames_sublist (r : Rule) : r.toJson.memberNames.Sublist documentNames := by
  rw [memberNames_toJson]
  exact (List.Sublist.refl headerNames).append r.optionalNames_sublist

/-- A document has no two members of one name, at the top or deeper. -/
theorem hasDistinctNames_toJson (r : Rule) : r.toJson.HasDistinctNames := by
  rw [toJson, Json.hasDistinctNames_object_iff]
  constructor
  · exact r.memberNames_sublist.nodup (by decide)
  · intro m hm
    rcases cases_of_mem_members hm with hheader | rfl | ⟨p, -, rfl⟩ | ⟨d, -, rfl⟩ | ⟨s, rfl⟩
    · have hscalar : ∀ m ∈ headerMembers r.header, m.2.HasDistinctNames := by
        simp [headerMembers, Json.HasDistinctNames]
      exact hscalar m hheader
    · exact hasDistinctNames_optionMembers r.options
    · exact hasDistinctNames_portMembers p
    · exact hasDistinctNames_metadataMembers d
    · trivial

end Rule

end IdsRules
