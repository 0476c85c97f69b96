/-!
# Tables in insertion order

A table is a list of rows with distinct keys. Inserting a key that the table
has changes the value in its row, so the key keeps its place; a new key goes to
the end. The order of the rows is therefore the order in which the keys were
first met, and the value in a row is the one given last.

The laws say what one insertion does to the keys (`keys_insert`) and to the
look-up (`get?_insert`); everything about tables built from many rows follows
from these by induction over the rows.
-/

namespace IdsRules

section Rows

variable {κ α : Type} [DecidableEq κ]

/-- The rows with a key set to a value: in the row of the key if there is one,
else in a new last row. -/
def setRow (k : κ) (v : α) : List (κ × α) → List (κ × α)
  | [] => [(k, v)]
  | row :: rows => if row.1 = k then (k, v) :: rows else row :: setRow k v rows

theorem keys_setRow (k : κ) (v : α) (rows : List (κ × α)) :
    (setRow k v rows).map Prod.fst =
      if k ∈ rows.map Prod.fst then rows.map Prod.fst else rows.map Prod.fst ++ [k] := by
  induction rows with
  | nil => simp [setRow]
  | cons row rows ih =>
    by_cases h : row.1 = k
    · simp [setRow, h]
    · by_cases hk : k ∈ rows.map Prod.fst
      · rw [if_pos hk] at ih
        rw [setRow, if_neg h, List.map_cons, ih, List.map_cons,
          if_pos (List.mem_cons_of_mem _ hk)]
      · rw [if_neg hk] at ih
        have hk' : k ∉ row.1 :: rows.map Prod.fst := by
          simp only [List.mem_cons, not_or]
          exact ⟨fun e => h e.symm, hk⟩
        rw [setRow, if_neg h, List.map_cons, ih, List.map_cons, if_neg hk', List.cons_append]

theorem nodup_keys_setRow (k : κ) (v : α) {rows : List (κ × α)}
    (h : (rows.map Prod.fst).Nodup) : ((setRow k v rows).map Prod.fst).Nodup := by
  rw [keys_setRow]
  split
  · exact h
  · rename_i hk
    rw [List.nodup_append]
    refine ⟨h, by simp, fun a ha b hb => ?_⟩
    rw [List.mem_singleton] at hb
    rintro rfl
    exact hk (hb ▸ ha)

theorem setRow_of_not_mem {k : κ} {v : α} {rows : List (κ × α)}
    (h : k ∉ rows.map Prod.fst) : setRow k v rows = rows ++ [(k, v)] := by
  induction rows with
  | nil => rfl
  | cons row rows ih =>
    simp only [List.map_cons, List.mem_cons, not_or] at h
    rw [setRow, if_neg fun e => h.1 e.symm, ih h.2, List.cons_append]

def findRow (k : κ) : List (κ × α) → Option α
  | [] => none
  | row :: rows => if row.1 = k then some row.2 else findRow k rows

theorem findRow_setRow (k l : κ) (v : α) (rows : List (κ × α)) :
    findRow l (setRow k v rows) = if k = l then some v else findRow l rows := by
  induction rows with
  | nil => simp [setRow, findRow]
  | cons row rows ih =>
    by_cases h : row.1 = k
    · by_cases hl : k = l
      · simp [setRow, findRow, h, hl]
      · simp [setRow, findRow, h, hl]
    · by_cases hl : row.1 = l
      · have hkl : k ≠ l := fun e => h (hl.trans e.symm)
        rw [setRow, if_neg h, findRow, if_pos hl, findRow, if_pos hl, if_neg hkl]
      · simp [setRow, findRow, h, hl, ih]

end Rows

/-- Rows with distinct keys, in insertion order. -/
structure Table (κ α : Type) where
  rows : List (κ × α)
  nodup : (rows.map Prod.fst).Nodup

namespace Table

variable {κ α : Type}

theorem ext_rows {t u : Table κ α} (h : t.rows = u.rows) : t = u := by
  cases t; cases u; cases h; rfl

instance [DecidableEq κ] [DecidableEq α] : DecidableEq (Table κ α) := fun t u =>
  if h : t.rows = u.rows then isTrue (ext_rows h) else isFalse fun e => h (e ▸ rfl)

def empty : Table κ α := ⟨[], by simp⟩

instance : Inhabited (Table κ α) := ⟨empty⟩

def keys (t : Table κ α) : List κ :=
  t.rows.map Prod.fst

@[simp] theorem keys_empty : (empty : Table κ α).keys = [] := rfl

variable [DecidableEq κ]

def get? (t : Table κ α) (k : κ) : Option α :=
  findRow k t.rows

def insert (t : Table κ α) (k : κ) (v : α) : Table κ α :=
  ⟨setRow k v t.rows, nodup_keys_setRow k v t.nodup⟩

/-- The rows of another table set one after the other. -/
def update (t : Table κ α) (rows : List (κ × α)) : Table κ α :=
  rows.foldl (fun t row => t.insert row.1 row.2) t

/-- The table of a list of rows, in which a later row wins. -/
def ofList (rows : List (κ × α)) : Table κ α :=
  empty.update rows

@[simp] theorem get?_empty (k : κ) : (empty : Table κ α).get? k = none := rfl

theorem get?_insert (t : Table κ α) (k l : κ) (v : α) :
    (t.insert k v).get? l = if k = l then some v else t.get? l :=
  findRow_setRow k l v t.rows

/-- Inserting changes the keys only when the key is new, and then at the end. -/
theorem keys_insert (t : Table κ α) (k : κ) (v : α) :
    (t.insert k v).keys = if k ∈ t.keys then t.keys else t.keys ++ [k] :=
  keys_setRow k v t.rows

@[simp] theorem update_nil (t : Table κ α) : t.update [] = t := rfl

theorem update_cons (t : Table κ α) (row : κ × α) (rows : List (κ × α)) :
    t.update (row :: rows) = (t.insert row.1 row.2).update rows := rfl

theorem update_append (t : Table κ α) (rows rows' : List (κ × α)) :
    t.update (rows ++ rows') = (t.update rows).update rows' := by
  simp [update, List.foldl_append]

theorem ofList_append (rows rows' : List (κ × α)) :
    ofList (rows ++ rows') = (ofList rows).update rows' :=
  update_append _ _ _

end Table

end IdsRules
