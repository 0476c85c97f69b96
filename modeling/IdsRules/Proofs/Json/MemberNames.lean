import Mathlib.Data.List.Nodup
import IdsRules.Json.Basic

/-!
# Values without two members of one name

Readers disagree on an object with two members of one name: one keeps the first,
another the last, a third both. A value in which no object has such members is
the same value to all of them.
-/

namespace IdsRules

namespace Json

mutual

/-- No object in the value has two members of one name. -/
def HasDistinctNames : Json → Prop
  | .array items => ItemsHaveDistinctNames items
  | .object members => (members.map Prod.fst).Nodup ∧ MembersHaveDistinctNames members
  | _ => True

/-- No object in the items has two members of one name. -/
def ItemsHaveDistinctNames : List Json → Prop
  | [] => True
  | item :: items => HasDistinctNames item ∧ ItemsHaveDistinctNames items

/-- No object in the values of the members has two members of one name. -/
def MembersHaveDistinctNames : List (Text × Json) → Prop
  | [] => True
  | (_, value) :: members => HasDistinctNames value ∧ MembersHaveDistinctNames members

end

theorem hasDistinctNames_object_iff (members : List (Text × Json)) :
    (Json.object members).HasDistinctNames ↔
      (members.map Prod.fst).Nodup ∧ ∀ m ∈ members, m.2.HasDistinctNames := by
  have hmembers : MembersHaveDistinctNames members ↔ ∀ m ∈ members, m.2.HasDistinctNames := by
    induction members with
    | nil => simp [MembersHaveDistinctNames]
    | cons m members ih => simp [MembersHaveDistinctNames, ih]
  rw [HasDistinctNames, hmembers]

theorem hasDistinctNames_array_iff (items : List Json) :
    (Json.array items).HasDistinctNames ↔ ∀ item ∈ items, item.HasDistinctNames := by
  have hitems : ItemsHaveDistinctNames items ↔ ∀ item ∈ items, item.HasDistinctNames := by
    induction items with
    | nil => simp [ItemsHaveDistinctNames]
    | cons item items ih => simp [ItemsHaveDistinctNames, ih]
  rw [HasDistinctNames, hitems]

end Json

end IdsRules
