import Mathlib.Data.List.Basic
import Mathlib.Data.List.Induction
import IdsRules.Table

/-!
# Tables built from rows

A table built from a list of rows is a dictionary that is assigned to row after
row: its keys stand in the order in which they are first assigned, and a key has
the value of its last row. The rows of a table build the table again.

A table is known from the order of its keys and the value of each, so two ways of
building it are compared by these two. Setting the rows of a second table in a
first one puts the new keys behind the old ones, and the second table decides
wherever it has the key.
-/

namespace IdsRules

namespace Table

variable {κ α : Type} [DecidableEq κ]

theorem ofList_append_singleton (rows : List (κ × α)) (row : κ × α) :
    ofList (rows ++ [row]) = (ofList rows).insert row.1 row.2 := by
  rw [ofList_append, update_cons, update_nil]

/-- The keys of a table built from rows are the keys of the rows, in the order
in which they are first met. -/
theorem keys_ofList [BEq κ] [LawfulBEq κ] (rows : List (κ × α)) :
    (ofList rows).keys = (rows.map Prod.fst).eraseDups := by
  induction rows using List.reverseRecOn with
  | nil => rfl
  | append_singleton rows row ih =>
      rw [ofList_append_singleton, keys_insert, ih, List.map_append, List.eraseDups_append]
      by_cases hk : row.1 ∈ rows.map Prod.fst
      · rw [if_pos (List.mem_eraseDups.2 hk)]
        simp [List.removeAll, hk]
      · rw [if_neg (fun h => hk (List.mem_eraseDups.1 h))]
        simp [List.removeAll, hk, List.eraseDups_cons]

/-- The value of a key in a table built from rows is that of the last row with
the key. -/
theorem get?_ofList (rows : List (κ × α)) (k : κ) :
    (ofList rows).get? k = (rows.reverse.find? fun row => row.1 = k).map Prod.snd := by
  induction rows using List.reverseRecOn with
  | nil => rfl
  | append_singleton rows row ih =>
      rw [ofList_append_singleton, get?_insert, ih]
      by_cases hk : row.1 = k <;> simp [hk]

theorem get?_ofList_append_cons {before after : List (κ × α)} {k : κ}
    (h : k ∉ after.map Prod.fst) (v : α) :
    (ofList (before ++ (k, v) :: after)).get? k = some v := by
  have hafter : after.reverse.find? (fun row => row.1 = k) = none := by
    rw [List.find?_eq_none]
    intro row hrow hk
    exact h (List.mem_map.2 ⟨row, List.mem_reverse.1 hrow, by simpa using hk⟩)
  rw [get?_ofList, List.reverse_append, List.reverse_cons, List.append_assoc, List.find?_append,
    hafter]
  simp

theorem exists_mem_of_get?_ofList {rows : List (κ × α)} {k : κ} {v : α}
    (h : (ofList rows).get? k = some v) : (k, v) ∈ rows := by
  rw [get?_ofList, Option.map_eq_some_iff] at h
  obtain ⟨⟨k', v'⟩, hfind, rfl⟩ := h
  have hkey : k' = k := by simpa using List.find?_some hfind
  have hmem : (k', v') ∈ rows.reverse := List.mem_of_find?_eq_some hfind
  rw [hkey, List.mem_reverse] at hmem
  exact hmem

/-- The value in a row is the value of the key of the row. -/
theorem get?_of_mem_rows {t : Table κ α} {row : κ × α} (h : row ∈ t.rows) :
    t.get? row.1 = some row.2 := by
  obtain ⟨rows, hnodup⟩ := t
  rw [get?]
  dsimp only at h ⊢
  induction rows with
  | nil => cases h
  | cons first rows ih =>
      rw [List.map_cons, List.nodup_cons] at hnodup
      rcases List.mem_cons.1 h with rfl | hmem
      · rw [findRow, if_pos rfl]
      · have hne : first.1 ≠ row.1 := fun heq => hnodup.1 (heq ▸ List.mem_map_of_mem hmem)
        rw [findRow, if_neg hne, ih hnodup.2 hmem]

/-- Rows with new and distinct keys are appended. -/
theorem rows_update (t : Table κ α) (rows : List (κ × α))
    (h : (t.rows.map Prod.fst ++ rows.map Prod.fst).Nodup) :
    (t.update rows).rows = t.rows ++ rows := by
  induction rows generalizing t with
  | nil => rw [update_nil, List.append_nil]
  | cons row rows ih =>
      have hrow : row.1 ∉ t.rows.map Prod.fst := by
        intro hmem
        rw [List.map_cons, List.nodup_append] at h
        exact h.2.2 row.1 hmem row.1 (by simp) rfl
      have hinsert : (t.insert row.1 row.2).rows = t.rows ++ [row] := setRow_of_not_mem hrow
      rw [update_cons, ih, hinsert, List.append_assoc, List.singleton_append]
      rw [hinsert]
      simpa using h

/-- The rows of a table build the table again. -/
theorem ofList_rows (t : Table κ α) : ofList t.rows = t :=
  ext_rows (rows_update empty t.rows t.nodup)

/-- A value belongs to a key exactly when there is a row with both. -/
theorem get?_eq_some_iff {t : Table κ α} {k : κ} {v : α} :
    t.get? k = some v ↔ (k, v) ∈ t.rows := by
  constructor
  · intro h
    rw [← ofList_rows t] at h
    exact exists_mem_of_get?_ofList h
  · exact fun h => get?_of_mem_rows h

/-! ## Setting rows in a table -/

theorem rows_eq_filterMap (t : Table κ α) :
    t.rows = t.keys.filterMap fun k => (t.get? k).map (Prod.mk k) := by
  have hrows : ∀ row ∈ t.rows, (t.get? row.1).map (Prod.mk row.1) = some row := by
    intro row hrow
    rw [get?_of_mem_rows hrow, Option.map_some]
  rw [keys, List.filterMap_map]
  exact ((List.filterMap_congr hrows).trans List.filterMap_some).symm

/-- A table is known from its keys in their order and the value of each. -/
theorem ext_get? {t u : Table κ α} (hkeys : t.keys = u.keys) (h : ∀ k, t.get? k = u.get? k) :
    t = u := by
  apply ext_rows
  rw [rows_eq_filterMap t, rows_eq_filterMap u, hkeys]
  simp only [h]

/-- Rows that are set in a table add their new keys behind the keys it has. -/
theorem keys_update [BEq κ] [LawfulBEq κ] (t : Table κ α) (rows : List (κ × α)) :
    (t.update rows).keys = t.keys ++ (ofList rows).keys.filter fun k => k ∉ t.keys := by
  induction rows using List.reverseRecOn with
  | nil => exact (List.append_nil t.keys).symm
  | append_singleton rows row ih =>
      rw [update_append, update_cons, update_nil, ofList_append_singleton, keys_insert,
        keys_insert, ih]
      -- the key is added on the right only if neither the table nor the rows have it
      by_cases ht : row.1 ∈ t.keys <;> by_cases hrows : row.1 ∈ (ofList rows).keys <;>
        simp [ht, hrows]

/-- A key has the value that the rows set it to, and otherwise the value it
had. -/
theorem get?_update (t : Table κ α) (rows : List (κ × α)) (k : κ) :
    (t.update rows).get? k = ((ofList rows).get? k).or (t.get? k) := by
  induction rows using List.reverseRecOn with
  | nil => rfl
  | append_singleton rows row ih =>
      rw [update_append, update_cons, update_nil, ofList_append_singleton, get?_insert,
        get?_insert, ih]
      by_cases hk : row.1 = k
      · rw [if_pos hk, if_pos hk, Option.some_or]
      · rw [if_neg hk, if_neg hk]

/-- Setting rows is setting the rows of the table that they build. -/
theorem update_rows_ofList (t : Table κ α) (rows : List (κ × α)) :
    t.update (ofList rows).rows = t.update rows := by
  apply ext_get?
  · rw [keys_update, keys_update, ofList_rows]
  · intro k
    rw [get?_update, get?_update, ofList_rows]

/-- Rows of distinct keys give the same values in any order. -/
theorem get?_ofList_of_perm {rows rows' : List (κ × α)} (hperm : rows.Perm rows')
    (hnodup : (rows.map Prod.fst).Nodup) (k : κ) :
    (ofList rows).get? k = (ofList rows').get? k := by
  have hrows : (ofList rows).rows = rows := rows_update empty rows hnodup
  have hrows' : (ofList rows').rows = rows' :=
    rows_update empty rows' ((hperm.map Prod.fst).nodup_iff.1 hnodup)
  apply Option.ext
  intro v
  rw [get?_eq_some_iff, get?_eq_some_iff, hrows, hrows', hperm.mem_iff]

end Table

end IdsRules
