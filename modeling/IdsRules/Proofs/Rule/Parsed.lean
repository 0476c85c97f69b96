import IdsRules.Conversion.Verdict
import IdsRules.Proofs.Rule.Fault
import IdsRules.Proofs.Rule.Writable

/-!
# What the rules that are read have in common

Not every rule can be read from a line. The integers of a rule that was read fit
in 64 bits, those of its metadata included, and its metadata is there only if it
says something. So the one obstacle to writing the rule is a floating-point
number among its options that is not finite, and the first of them is what the
printer complains of. The settings have no part in this: two readings of one
line differ in the source text and in nothing else.
-/

namespace IdsRules

open Numeral

theorem hasNumeral_of_isInt64 {n : Int} (h : isInt64 n = true) : HasNumeral n := by
  have hbound : n.natAbs < 10 ^ 19 := by
    simp only [isInt64, Bool.and_eq_true, decide_eq_true_eq, Nat.pow_eq] at h
    omega
  have hlength : (naturalText n.natAbs).length ≤ 19 :=
    (Nat.length_toDigits_le_iff (by decide) (by decide)).2 hbound
  exact Nat.le_trans hlength (by decide)

namespace OptionValue

/-- The number of an option, if it is one that is not finite. -/
def notFinite? : OptionValue → Option Binary64
  | .float x => if x.isFinite then none else some x
  | _ => none

theorem isInt64_of_read {s : Text} {n : Int} (h : read s = .ok (.integer n)) :
    isInt64 n = true := by
  cases reads_of_read h with
  | integer hint => exact isInt64_of_readInt64 hint

theorem isInt64_of_toInteger {v : OptionValue} {n : Int}
    (hv : ∀ m, v = .integer m → isInt64 m = true) (h : v.toInteger = .ok n) :
    isInt64 n = true := by
  cases v with
  | flag b => cases h; decide
  | float x => cases h; decide
  | integer m => cases h; exact hv _ rfl
  | text s =>
      rw [toInteger] at h
      cases hint : readInt64 s with
      | error fault => simp [hint, Except.map] at h
      | ok m =>
          simp only [hint, Except.map, Except.ok.injEq] at h
          subst h
          cases m with
          | none => decide
          | some m => exact isInt64_of_readInt64 hint

/-- A value whose integer fits in 64 bits is at fault only if it is not finite. -/
theorem faults_toJson {v : OptionValue} (hv : ∀ n, v = .integer n → isInt64 n = true) :
    Json.faults v.toJson = v.notFinite?.toList.map .notFinite := by
  cases v with
  | flag b => rfl
  | text s => rfl
  | integer n => exact (Rule.faults_option_eq_nil_iff _).2 (hasNumeral_of_isInt64 (hv n rfl))
  | float x =>
      rw [notFinite?, toJson, Json.faults]
      cases x.isFinite <;> rfl

end OptionValue

namespace OptionBlock

theorem isInt64_of_mem_rows {block : Text} {options : Options} (h : parse block = .ok options)
    {row : Text × OptionValue} (hrow : row ∈ options.rows) {n : Int} (hn : row.2 = .integer n) :
    isInt64 n = true := by
  rcases eq_flag_or_exists_read h (Table.get?_of_mem_rows hrow) with hflag | ⟨t, hread⟩
  · rw [hflag] at hn
    cases hn
  · exact OptionValue.isInt64_of_read (hn ▸ hread)

end OptionBlock

namespace Metadata

theorem isInt64_of_integerOf {options : Options}
    (hoptions : ∀ row ∈ options.rows, ∀ n, row.2 = .integer n → isInt64 n = true) {key : Text}
    {n : Int} (h : integerOf options key = .ok n) : isInt64 n = true := by
  rw [integerOf] at h
  cases hv : options.get? key with
  | none =>
      simp only [hv, Except.ok.injEq] at h
      exact h ▸ by decide
  | some v =>
      simp only [hv] at h
      rw [← Table.ofList_rows options] at hv
      exact OptionValue.isInt64_of_toInteger
        (hoptions _ (Table.exists_mem_of_get?_ofList hv)) h

theorem gather_eq_ok_iff {options : Options} {m : Metadata} :
    gather options = .ok m ↔
      ∃ sid revision, integerOf options "sid".toList = .ok sid ∧
        integerOf options "rev".toList = .ok revision ∧
        m = {
          cves := ((textOf? options "reference".toList).bind cveOf?).toList
          references := (textOf? options "reference".toList).toList
          sid
          revision
          severity := (textOf? options "classtype".toList).getD [] } := by
  rw [gather]
  cases hsid : integerOf options "sid".toList with
  | error fault =>
      constructor
      · intro h
        cases h
      · rintro ⟨sid, revision, h, -⟩
        cases h
  | ok sid =>
      cases hrevision : integerOf options "rev".toList with
      | error fault =>
          constructor
          · intro h
            cases h
          · rintro ⟨sid, revision, -, h, -⟩
            cases h
      | ok revision =>
          constructor
          · intro h
            cases h
            exact ⟨sid, revision, rfl, rfl, rfl⟩
          · rintro ⟨sid', revision', hsid', hrevision', rfl⟩
            cases hsid'
            cases hrevision'
            rfl

theorem read?_eq_ok_iff {options : Options} {metadata : Option Metadata} :
    read? options = .ok metadata ↔
      ∃ m, gather options = .ok m ∧ metadata = if m.isEmpty then none else some m := by
  rw [read?]
  cases gather options with
  | error fault => simp [Except.map]
  | ok m =>
      simp only [Except.map, Except.ok.injEq]
      constructor
      · rintro rfl
        exact ⟨m, rfl, rfl⟩
      · rintro ⟨_, rfl, rfl⟩
        rfl

theorem read?_eq_some_iff {options : Options} {m : Metadata} :
    read? options = .ok (some m) ↔ gather options = .ok m ∧ m.isEmpty = false := by
  rw [read?_eq_ok_iff]
  constructor
  · rintro ⟨m', hgather, hm⟩
    cases hempty : m'.isEmpty with
    | true => simp [hempty] at hm
    | false =>
        rw [hempty, if_neg (by decide), Option.some.injEq] at hm
        exact hm ▸ ⟨hgather, hempty⟩
  · rintro ⟨hgather, hempty⟩
    exact ⟨m, hgather, by rw [hempty, if_neg (by decide)]⟩

end Metadata

namespace Rule

/-- What is true of a rule because it was read. -/
structure IsRead (rule : Rule) : Prop where
  isInt64_option : ∀ row ∈ rule.options.rows, ∀ n, row.2 = .integer n → isInt64 n = true
  isInt64_sid : ∀ m ∈ rule.metadata, isInt64 m.sid = true
  isInt64_revision : ∀ m ∈ rule.metadata, isInt64 m.revision = true
  metadata_isEmpty : ∀ m ∈ rule.metadata, m.isEmpty = false

theorem isRead_of_parse {keepSource : Bool} {line : Text} {rule : Rule}
    (h : parse keepSource line = .ok rule) : rule.IsRead := by
  obtain ⟨header, block, -, hparts⟩ := parse_eq_ok_iff.1 h
  obtain ⟨options, metadata, hoptions, hmetadata, rfl⟩ := ofParts_eq_ok_iff.1 hparts
  have hintegers : ∀ row ∈ options.rows, ∀ n, row.2 = .integer n → isInt64 n = true :=
    fun _ hrow _ hn => OptionBlock.isInt64_of_mem_rows hoptions hrow hn
  have hdata : ∀ m ∈ metadata,
      isInt64 m.sid = true ∧ isInt64 m.revision = true ∧ m.isEmpty = false := by
    rintro m rfl
    obtain ⟨hgather, hempty⟩ := Metadata.read?_eq_some_iff.1 hmetadata
    obtain ⟨sid, revision, hsid, hrevision, rfl⟩ := Metadata.gather_eq_ok_iff.1 hgather
    exact ⟨Metadata.isInt64_of_integerOf hintegers hsid,
      Metadata.isInt64_of_integerOf hintegers hrevision, hempty⟩
  exact ⟨hintegers, fun m hm => (hdata m hm).1, fun m hm => (hdata m hm).2.1,
    fun m hm => (hdata m hm).2.2⟩

/-- A line that is read is read whether its source is kept or not, as the same
rule but for the source. -/
theorem parse_of_parse {keepSource : Bool} {line : Text} {rule : Rule}
    (h : parse keepSource line = .ok rule) (keepSource' : Bool) :
    parse keepSource' line =
      .ok { rule with source := if keepSource' then some (Text.trim line) else none } := by
  obtain ⟨header, block, hread, hparts⟩ := parse_eq_ok_iff.1 h
  obtain ⟨options, metadata, hoptions, hmetadata, rfl⟩ := ofParts_eq_ok_iff.1 hparts
  exact parse_eq_ok_iff.2 ⟨header, block, hread,
    ofParts_eq_ok_iff.2 ⟨options, metadata, hoptions, hmetadata, rfl⟩⟩

/-- Why a line gives no rule does not depend on whether its source is kept. -/
theorem parse_of_parse_error {keepSource : Bool} {line : Text} {error : ParseError}
    (h : parse keepSource line = .error error) (keepSource' : Bool) :
    parse keepSource' line = .error error := by
  cases error with
  | malformed => exact parse_eq_malformed_iff.2 (parse_eq_malformed_iff.1 h)
  | value fault => exact parse_eq_value_iff.2 (parse_eq_value_iff.1 h)

theorem source_of_parse {keepSource : Bool} {line : Text} {rule : Rule}
    (h : parse keepSource line = .ok rule) :
    rule.source = if keepSource then some (Text.trim line) else none := by
  have hself := parse_of_parse h keepSource
  rw [h, Except.ok.injEq] at hself
  exact congrArg Rule.source hself

/-- The numbers among the options that are not finite, in the order of the
options. -/
def notFinite (rule : Rule) : List Binary64 :=
  rule.options.rows.filterMap fun row => row.2.notFinite?

theorem notFinite_eq_nil_iff (rule : Rule) :
    rule.notFinite = [] ↔ ∀ row ∈ rule.options.rows, ∀ x, row.2 = .float x → x.isFinite = true := by
  rw [notFinite, List.filterMap_eq_nil_iff]
  refine forall₂_congr fun row _ => ?_
  cases row.2 with
  | float x => simp [OptionValue.notFinite?]
  | _ => simp [OptionValue.notFinite?]

theorem faultsOfMembers_map_toJson {rows : List (Text × OptionValue)}
    (h : ∀ row ∈ rows, ∀ n, row.2 = .integer n → isInt64 n = true) :
    Json.faultsOfMembers (rows.map fun row => (row.1, row.2.toJson)) =
      (rows.filterMap fun row => row.2.notFinite?).map .notFinite := by
  induction rows with
  | nil => rfl
  | cons row rows ih =>
      rw [List.forall_mem_cons] at h
      rw [List.map_cons, Json.faultsOfMembers, OptionValue.faults_toJson h.1, ih h.2,
        List.filterMap_cons]
      cases row.2.notFinite? <;> rfl

/-- The faults of a rule that was read are its numbers that are not finite. -/
theorem IsRead.faults_toJson {rule : Rule} (h : rule.IsRead) :
    Json.faults rule.toJson = rule.notFinite.map .notFinite := by
  have hheader : Json.faultsOfMembers (headerMembers rule.header) = [] := rfl
  have hmetadata : Json.faultsOfMembers (metadataMember rule.metadata) = [] :=
    (faultsOfMembers_metadataMember_eq_nil_iff _).2 fun m hm =>
      ⟨hasNumeral_of_isInt64 (h.isInt64_sid m hm), hasNumeral_of_isInt64 (h.isInt64_revision m hm)⟩
  have hsource : Json.faultsOfMembers (sourceMember rule.source) = [] := by
    cases rule.source <;> rfl
  have hoptions := faultsOfMembers_map_toJson h.isInt64_option
  rw [toJson, Json.faults, members]
  simp only [faultsOfMembers_append, hheader, hmetadata, hsource, faultsOfMembers_portsMember,
    Json.faultsOfMembers, Json.faults, optionMembers, hoptions, List.nil_append, List.append_nil,
    notFinite]

end Rule

namespace Settings

theorem encode_eq_ok_iff {settings : Settings} {rule : Rule} (h : rule.IsRead) {document : Text} :
    settings.encode rule = .ok document ↔
      rule.notFinite = [] ∧ document = Json.text settings.layout rule.toJson := by
  rw [encode, Json.encode_eq_ok_iff, h.faults_toJson, List.map_eq_nil_iff]

/-- The first number that is not finite is what the printer complains of. -/
theorem encode_eq_error_iff {settings : Settings} {rule : Rule} (h : rule.IsRead)
    {error : Json.EncodeError} :
    settings.encode rule = .error error ↔
      ∃ x, rule.notFinite.head? = some x ∧ error = .notFinite x := by
  rw [encode, Json.encode_eq_error_iff, h.faults_toJson, List.head?_map, Option.map_eq_some_iff]
  simp only [eq_comm]

end Settings

end IdsRules
