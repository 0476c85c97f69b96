import IdsRules.Json.Printer
import IdsRules.Rule.Document

/-!
# Rules that can be written

Two kinds of number have no JSON token: one that is not finite, and an integer
with more digits than a conversion accepts. A rule is without such faults
exactly when the numbers among its options and in its metadata can be written;
strings, lists and flags always can.
-/

namespace IdsRules

open Numeral

/-- An integer has a numeral when a conversion accepts its digits. -/
def HasNumeral (n : Int) : Prop :=
  (naturalText n.natAbs).length ≤ digitLimit

instance (n : Int) : Decidable (HasNumeral n) :=
  inferInstanceAs (Decidable (_ ≤ _))

theorem hasNumeral_zero : HasNumeral 0 := by
  decide

/-- The option values that have a JSON token. -/
def OptionValue.IsWritable : OptionValue → Prop
  | .integer n => HasNumeral n
  | .float x => x.isFinite = true
  | _ => True

instance : DecidablePred OptionValue.IsWritable
  | .flag _ => inferInstanceAs (Decidable True)
  | .integer n => inferInstanceAs (Decidable (HasNumeral n))
  | .float x => inferInstanceAs (Decidable (x.isFinite = true))
  | .text _ => inferInstanceAs (Decidable True)

namespace Rule

/-- Every number of the rule can be written. -/
structure IsWritable (r : Rule) : Prop where
  options : ∀ row ∈ r.options.rows, row.2.IsWritable
  sid : ∀ m ∈ r.metadata, HasNumeral m.sid
  revision : ∀ m ∈ r.metadata, HasNumeral m.revision

/-! ## Faults of a document -/

theorem faultsOfItems_map_string (items : List Text) :
    Json.faultsOfItems (items.map .string) = [] := by
  induction items with
  | nil => rfl
  | cons s items ih => exact ih

theorem faultsOfMembers_append (ms ms' : List (Text × Json)) :
    Json.faultsOfMembers (ms ++ ms') = Json.faultsOfMembers ms ++ Json.faultsOfMembers ms' := by
  induction ms with
  | nil => rfl
  | cons m ms ih =>
      rw [List.cons_append, Json.faultsOfMembers, Json.faultsOfMembers, ih, List.append_assoc]

theorem faults_integer_eq_nil_iff (n : Int) :
    Json.faults (.integer n) = [] ↔ HasNumeral n := by
  unfold Json.faults HasNumeral
  split
  next h => simp [h]
  next h => simpa using h

theorem faults_option_eq_nil_iff (v : OptionValue) :
    Json.faults v.toJson = [] ↔ v.IsWritable := by
  cases v with
  | flag b => exact iff_of_true rfl trivial
  | integer n => exact faults_integer_eq_nil_iff n
  | float x =>
      change (if x.isFinite then [] else [Json.EncodeError.notFinite x]) = [] ↔ _
      split
      next h => exact iff_of_true rfl h
      next h => exact iff_of_false (List.cons_ne_nil _ _) h
  | text s => exact iff_of_true rfl trivial

theorem faultsOfMembers_listMember (name : String) (items : List Text) :
    Json.faultsOfMembers (listMember name items) = [] := by
  unfold listMember
  split
  next => rfl
  next => simp [Json.faultsOfMembers, Json.faults, faultsOfItems_map_string]

theorem faultsOfMembers_textMember (name : String) (s : Text) :
    Json.faultsOfMembers (textMember name s) = [] := by
  unfold textMember
  split
  next => rfl
  next => rfl

/-- Zero is left out, and it has a numeral. -/
theorem faultsOfMembers_integerMember_eq_nil_iff (name : String) (n : Int) :
    Json.faultsOfMembers (integerMember name n) = [] ↔ HasNumeral n := by
  unfold integerMember
  split
  next h =>
      subst h
      exact iff_of_true rfl hasNumeral_zero
  next =>
      simp only [Json.faultsOfMembers, List.append_nil]
      exact faults_integer_eq_nil_iff n

theorem faultsOfMembers_optionMembers_eq_nil_iff (rows : List (Text × OptionValue)) :
    Json.faultsOfMembers (rows.map fun row => (row.1, row.2.toJson)) = [] ↔
      ∀ row ∈ rows, row.2.IsWritable := by
  induction rows with
  | nil => simp [Json.faultsOfMembers]
  | cons row rows ih =>
      simp only [List.map_cons, Json.faultsOfMembers, List.append_eq_nil_iff,
        faults_option_eq_nil_iff, ih, List.forall_mem_cons]

theorem faultsOfMembers_portsMember (p : Option Ports) :
    Json.faultsOfMembers (portsMember p) = [] := by
  unfold portsMember
  split
  next => rfl
  next =>
      split
      next => rfl
      next =>
          simp [Json.faultsOfMembers, Json.faults, portMembers, faultsOfMembers_append,
            faultsOfMembers_listMember]

theorem faultsOfMembers_metadataMember_eq_nil_iff (m : Option Metadata) :
    Json.faultsOfMembers (metadataMember m) = [] ↔
      ∀ data ∈ m, HasNumeral data.sid ∧ HasNumeral data.revision := by
  cases m with
  | none => simp [metadataMember, Json.faultsOfMembers]
  | some data =>
      unfold metadataMember
      by_cases hempty : data.isEmpty = true
      · have hdefault := (Metadata.isEmpty_iff data).1 hempty
        subst hdefault
        refine iff_of_true rfl ?_
        intro d hd
        cases hd
        exact ⟨hasNumeral_zero, hasNumeral_zero⟩
      · simp [hempty, Json.faultsOfMembers, Json.faults, metadataMembers, faultsOfMembers_append,
          faultsOfMembers_listMember, faultsOfMembers_textMember,
          faultsOfMembers_integerMember_eq_nil_iff]

/-- A rule is without faults exactly when every number of it can be written. -/
theorem faults_toJson_eq_nil_iff (r : Rule) : Json.faults r.toJson = [] ↔ r.IsWritable := by
  have hheader : Json.faultsOfMembers (headerMembers r.header) = [] := rfl
  have hsource : Json.faultsOfMembers (sourceMember r.source) = [] := by
    cases r.source with
    | none => rfl
    | some s => rfl
  have hoptions := faultsOfMembers_optionMembers_eq_nil_iff r.options.rows
  have hmetadata := faultsOfMembers_metadataMember_eq_nil_iff r.metadata
  rw [toJson, Json.faults, members]
  simp only [faultsOfMembers_append, List.append_eq_nil_iff, hheader, hsource, hmetadata,
    faultsOfMembers_portsMember, Json.faultsOfMembers, Json.faults, optionMembers, hoptions,
    true_and, and_true]
  constructor
  · intro h
    exact ⟨h.1, fun m hm => (h.2 m hm).1, fun m hm => (h.2 m hm).2⟩
  · intro h
    exact ⟨h.options, fun m hm => ⟨h.sid m hm, h.revision m hm⟩⟩

end Rule

end IdsRules
