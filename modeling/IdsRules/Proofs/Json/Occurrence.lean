import IdsRules.Json.Basic

/-!
# What stands where in a value

A path leads from a value into its containers, by the place of an item and by the name
of a member. `Holds` says which values stand at the end of which paths; with two members
of one name there are two values at the end of the same path. A value is filled when no
path leads to `null`, to an empty array or to an empty object.
-/

namespace IdsRules

namespace Json

/-- One step into a container. -/
inductive Selector where
  /-- To the item at a place of an array. -/
  | item (index : Nat)
  | member (name : Text)
deriving DecidableEq, Repr

/-- At the end of the path stands the value `v`. -/
inductive Holds : Json → List Selector → Json → Prop
  | here (v : Json) : Holds v [] v
  | item {items : List Json} {index : Nat} {item v : Json} {path : List Selector}
      (hitem : items[index]? = some item) (hv : Holds item path v) :
      Holds (.array items) (.item index :: path) v
  | member {members : List (Text × Json)} {name : Text} {value v : Json} {path : List Selector}
      (hmember : (name, value) ∈ members) (hv : Holds value path v) :
      Holds (.object members) (.member name :: path) v

/-- The value is `null` or a container with nothing in it. -/
def IsHollow (v : Json) : Prop :=
  v = .null ∨ v = .array [] ∨ v = .object []

/-- No hollow value stands anywhere in the value. -/
def IsFilled (j : Json) : Prop :=
  ∀ path v, j.Holds path v → ¬v.IsHollow

/-- The value is neither `null` nor a container. -/
def IsScalar : Json → Prop
  | .null => False
  | .array _ => False
  | .object _ => False
  | _ => True

theorem IsScalar.isFilled {j : Json} (h : j.IsScalar) : j.IsFilled := by
  intro path v hv
  cases hv with
  | here => rintro (rfl | rfl | rfl) <;> exact h
  | item hitem hv => exact h.elim
  | member hmember hv => exact h.elim

theorem isFilled_array {items : List Json} (hne : items ≠ [])
    (h : ∀ item ∈ items, item.IsFilled) : (array items).IsFilled := by
  intro path v hv
  cases hv with
  | here =>
      rintro (hnull | hempty | hobject)
      · cases hnull
      · exact hne (Json.array.inj hempty)
      · cases hobject
  | item hitem hv => exact h _ (List.mem_of_getElem? hitem) _ v hv

theorem isFilled_object {members : List (Text × Json)} (hne : members ≠ [])
    (h : ∀ m ∈ members, m.2.IsFilled) : (object members).IsFilled := by
  intro path v hv
  cases hv with
  | here =>
      rintro (hnull | harray | hempty)
      · cases hnull
      · cases harray
      · exact hne (Json.object.inj hempty)
  | member hmember hv => exact h _ hmember _ v hv

theorem holds_member_iff {members : List (Text × Json)} {name : Text} {path : List Selector}
    {v : Json} : (object members).Holds (.member name :: path) v ↔
      ∃ value, (name, value) ∈ members ∧ value.Holds path v := by
  constructor
  · intro h
    cases h with
    | member hmember hv => exact ⟨_, hmember, hv⟩
  · rintro ⟨value, hmember, hv⟩
    exact .member hmember hv

theorem holds_nil_iff {j v : Json} : j.Holds [] v ↔ v = j := by
  constructor
  · intro h
    cases h
    rfl
  · rintro rfl
    exact .here v

end Json

end IdsRules
