import IdsRules.Conversion.Verdict
import IdsRules.Proofs.Json.RoundTrip
import IdsRules.Proofs.Rule.Members
import IdsRules.Proofs.Rule.Writable
import IdsRules.Proofs.Table

/-!
# A rule is read back from its document

A document leaves out what is at its default, and a reader puts the defaults
back. The one thing that is lost is whether empty port lists or empty metadata
were there: `Rule.normal` drops them, and a rule is read back as its normal
form. So the text that is written for a rule, in either layout, is a document of
the rule's value, and two rules with one document have one normal form. No
object in it has two members of one name, so it is the same value to every
reader.
-/

namespace IdsRules

namespace Rule

/-- The rule without port lists and metadata that say nothing. -/
def normal (r : Rule) : Rule :=
  { r with
    ports := r.ports.filter fun p => !p.isEmpty
    metadata := r.metadata.filter fun m => !m.isEmpty }

/-! ## Reading members back -/

section Members

variable {name : String} {j : Json}

theorem texts?_map_string (items : List Text) : texts? (items.map .string) = some items := by
  induction items with
  | nil => rfl
  | cons s items ih => rw [List.map_cons, texts?, ih, Option.map_some]

theorem textsAtOr?_of_listValue? {items : List Text}
    (h : j.member? name.toList = listValue? items) : textsAtOr? name j = some items := by
  unfold textsAtOr?
  rw [h, listValue?]
  cases items with
  | nil => rfl
  | cons s items => exact texts?_map_string (s :: items)

theorem integerAtOr?_of_integerValue? {n : Int}
    (h : j.member? name.toList = integerValue? n) : integerAtOr? name j = some n := by
  unfold integerAtOr?
  rw [h, integerValue?]
  by_cases hn : n = 0
  · rw [if_pos hn, hn]
  · rw [if_neg hn]

theorem textAtOr?_of_textValue? {s : Text}
    (h : j.member? name.toList = textValue? s) : textAtOr? name j = some s := by
  unfold textAtOr?
  rw [h, textValue?]
  cases s with
  | nil => rfl
  | cons c s => rfl

end Members

/-- The members of port lists, each at its default if it is left out. -/
theorem ports_of_portMembers (p : Ports) :
    textsAtOr? "source_ports" (.object (portMembers p)) = some p.source ∧
      textsAtOr? "destination_ports" (.object (portMembers p)) = some p.destination := by
  refine ⟨textsAtOr?_of_listValue? ?_, textsAtOr?_of_listValue? ?_⟩ <;>
    simp (disch := decide) only [portMembers, listMember_eq, member?_object_append,
      member?_optionalMember, member?_optionalMember_of_ne, Option.or_none, Option.none_or]

/-- The members of metadata, each at its default if it is left out. -/
theorem metadata_of_metadataMembers (m : Metadata) :
    textsAtOr? "cves" (.object (metadataMembers m)) = some m.cves ∧
      textsAtOr? "references" (.object (metadataMembers m)) = some m.references ∧
      integerAtOr? "sid" (.object (metadataMembers m)) = some m.sid ∧
      integerAtOr? "revision" (.object (metadataMembers m)) = some m.revision ∧
      textAtOr? "severity" (.object (metadataMembers m)) = some m.severity := by
  refine ⟨textsAtOr?_of_listValue? ?_, textsAtOr?_of_listValue? ?_,
    integerAtOr?_of_integerValue? ?_, integerAtOr?_of_integerValue? ?_,
    textAtOr?_of_textValue? ?_⟩ <;>
    simp (disch := decide) only [metadataMembers, listMember_eq, integerMember_eq, textMember_eq,
      member?_object_append, member?_optionalMember, member?_optionalMember_of_ne,
      Option.or_none, Option.none_or]

theorem optionRows?_optionMembers (rows : List (Text × OptionValue)) :
    optionRows? (rows.map fun row => (row.1, row.2.toJson)) = some rows := by
  induction rows with
  | nil => rfl
  | cons row rows ih =>
      rw [List.map_cons, optionRows?, OptionValue.ofJson?_toJson, Option.bind_some, ih,
        Option.map_some]

/-! ## Reading the document back -/

/-- A member that is neither in the header nor the options is one of the three
that may be left out. -/
theorem member?_toJson (r : Rule) {name : Text}
    (h : (Json.object (headerMembers r.header
      ++ [("options".toList, .object (optionMembers r.options))])).member? name = none) :
    r.toJson.member? name =
      (((Json.object (portsMember r.ports)).member? name).or
        ((Json.object (metadataMember r.metadata)).member? name)).or
          ((Json.object (sourceMember r.source)).member? name) := by
  rw [toJson, members, member?_object_append, member?_object_append, member?_object_append, h,
    Option.none_or]

theorem portsOf?_toJson (r : Rule) : portsOf? r.toJson = some r.normal.ports := by
  have hmember : r.toJson.member? "parsed_ports".toList
      = r.normal.ports.map fun p => .object (portMembers p) := by
    rw [member?_toJson r rfl, portsMember_eq, metadataMember_eq, sourceMember_eq,
      member?_optionalMember, member?_optionalMember_of_ne (by decide),
      member?_optionalMember_of_ne (by decide), Option.or_none, Option.or_none]
    rfl
  unfold portsOf?
  rw [hmember]
  cases r.normal.ports with
  | none => rfl
  | some p =>
      obtain ⟨hsource, hdestination⟩ := ports_of_portMembers p
      simp [hsource, hdestination]

theorem member?_metadata_toJson (r : Rule) :
    r.toJson.member? "metadata".toList =
      r.normal.metadata.map fun m => .object (metadataMembers m) := by
  rw [member?_toJson r rfl, portsMember_eq, metadataMember_eq, sourceMember_eq,
    member?_optionalMember, member?_optionalMember_of_ne (by decide),
    member?_optionalMember_of_ne (by decide), Option.none_or, Option.or_none]
  rfl

theorem metadataOf?_toJson (r : Rule) : metadataOf? r.toJson = some r.normal.metadata := by
  unfold metadataOf?
  rw [member?_metadata_toJson]
  cases r.normal.metadata with
  | none => rfl
  | some m =>
      obtain ⟨hcves, hreferences, hsid, hrevision, hseverity⟩ := metadata_of_metadataMembers m
      simp [hcves, hreferences, hsid, hrevision, hseverity]

theorem member?_source_toJson (r : Rule) :
    r.toJson.member? "raw_rule".toList = r.source.map .string := by
  rw [member?_toJson r rfl, portsMember_eq, metadataMember_eq, sourceMember_eq,
    member?_optionalMember, member?_optionalMember_of_ne (by decide),
    member?_optionalMember_of_ne (by decide), Option.none_or, Option.none_or]

theorem sourceOf?_toJson (r : Rule) : sourceOf? r.toJson = some r.source := by
  unfold sourceOf?
  rw [member?_source_toJson]
  cases r.source with
  | none => rfl
  | some s => rfl

theorem optionsOf?_toJson (r : Rule) : optionsOf? r.toJson = some r.options := by
  have hmember : r.toJson.member? "options".toList = some (.object (optionMembers r.options)) :=
    rfl
  have hrows := optionRows?_optionMembers r.options.rows
  unfold optionsOf?
  rw [hmember]
  change (optionRows? (optionMembers r.options)).map Table.ofList = some r.options
  rw [optionMembers, hrows, Option.map_some, Table.ofList_rows]

/-- The document of a rule is read back as the normal form of the rule. -/
theorem ofJson?_toJson (r : Rule) : ofJson? r.toJson = some r.normal := by
  have hheader : headerOf? r.toJson = some r.header := rfl
  unfold ofJson?
  rw [hheader, optionsOf?_toJson, portsOf?_toJson, metadataOf?_toJson, sourceOf?_toJson]
  rfl

def decode? (s : Text) : Option Rule :=
  (Json.parse? s).bind ofJson?

/-- A rule whose numbers can be written has a document in both layouts, and the
document is read back as the normal form of the rule. So two rules with one
document, in whatever layouts, have one normal form. -/
theorem decode?_encode {r : Rule} (h : r.IsWritable) (settings : Settings) :
    (∃ s, settings.encode r = .ok s ∧ Json.parse? s = some r.toJson ∧
      r.toJson.HasDistinctNames ∧ decode? s = some r.normal) ∧
    ∀ (r' : Rule) (settings' : Settings),
      settings'.encode r' = settings.encode r → r'.normal = r.normal := by
  have hfaults : Json.faults r.toJson = [] := (faults_toJson_eq_nil_iff r).2 h
  have hencode : settings.encode r = .ok (Json.text settings.layout r.toJson) :=
    Json.encode_eq_ok_iff.2 ⟨hfaults, rfl⟩
  have hparse := Json.parse?_text settings.layout hfaults
  refine ⟨⟨_, hencode, hparse, hasDistinctNames_toJson r, ?_⟩, ?_⟩
  · rw [decode?, hparse, Option.bind_some, ofJson?_toJson]
  · intro r' settings' heq
    rw [hencode] at heq
    obtain ⟨hfaults', htext⟩ := Json.encode_eq_ok_iff.1 heq
    have hparse' := Json.parse?_text settings'.layout hfaults'
    rw [← htext, hparse, Option.some.injEq] at hparse'
    have hread := ofJson?_toJson r'
    rw [← hparse', ofJson?_toJson, Option.some.injEq] at hread
    exact hread.symm

/-- A rule with the number one as a flag, an integer, a floating-point number
and three texts, with strings that look like pieces of a document, with empty
port lists and with metadata at its defaults. -/
def lookalikes : Rule where
  header := ⟨"a\"".toList, [], "\t".toList, "\\u0041".toList, "->".toList, ['\x00'],
    "[1, 2".toList⟩
  options := Table.ofList [
    ("k\\\",\"k\":\u20281".toList, .flag true), ("integer".toList, .integer 1),
    ("float".toList, .float (.finite false ⟨1023 * 2 ^ 52, by decide⟩)),
    ("flag text".toList, .text "true".toList), ("integer text".toList, .text "1".toList),
    ("float text".toList, .text "1.0".toList)]
  ports := some ⟨[], []⟩
  metadata := some {}
  source := some ['\n', '\uD7FF', '\\', '"']

theorem decode?_encode_lookalikes :
    lookalikes.IsWritable ∧ ∀ settings : Settings, ∃ s, settings.encode lookalikes = .ok s ∧
      decode? s = some { lookalikes with ports := none, metadata := none } := by
  have h : lookalikes.IsWritable := by
    refine ⟨by decide, ?_, ?_⟩
    · intro m hm
      cases hm
      exact hasNumeral_zero
    · intro m hm
      cases hm
      exact hasNumeral_zero
  refine ⟨h, ?_⟩
  intro settings
  obtain ⟨⟨s, hs, -, -, hread⟩, -⟩ := decode?_encode h settings
  exact ⟨s, hs, hread⟩

end Rule

end IdsRules
