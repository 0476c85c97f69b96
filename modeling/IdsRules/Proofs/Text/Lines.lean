import IdsRules.Text.Lines

/-!
# Lines of a text that is put together

A text that is cut behind a line feed has the lines of both of its parts. A line
without its end joins no other line if a line end stands behind it: it is the
first line, and the others are those that the rest has behind its own first one,
which is empty.
-/

namespace IdsRules.Text

theorem consLine_append {ls : List Text} (h : ls ≠ []) (c : Char) (ms : List Text) :
    consLine c (ls ++ ms) = consLine c ls ++ ms := by
  cases ls with
  | nil => exact absurd rfl h
  | cons l ls => rfl

theorem afterReturn_append {s t : Text} (h : s.head? = t.head?) (ls ms : List Text) :
    afterReturn s (ls ++ ms) = afterReturn t ls ++ ms := by
  rw [afterReturn, afterReturn, h]
  split <;> rfl

theorem consLine_ne_nil (c : Char) (ls : List Text) : consLine c ls ≠ [] := by
  cases ls with
  | nil => exact List.cons_ne_nil _ _
  | cons l ls => exact List.cons_ne_nil _ _

theorem lines_ne_nil {s : Text} (h : s ≠ []) : lines s ≠ [] := by
  induction s with
  | nil => exact absurd rfl h
  | cons c s ih =>
      rw [lines]
      split
      · exact List.cons_ne_nil _ _
      · split
        · rw [afterReturn]
          split
          next hhead =>
            obtain ⟨rest, hs⟩ := List.head?_eq_some_iff.1 hhead
            exact ih (hs ▸ List.cons_ne_nil _ _)
          next => exact List.cons_ne_nil _ _
        · exact consLine_ne_nil c _

theorem lines_append_lineFeed_append (s t : Text) :
    lines (s ++ '\n' :: t) = lines (s ++ ['\n']) ++ lines t := by
  induction s with
  | nil => rfl
  | cons c s ih =>
      have hhead : (s ++ '\n' :: t).head? = (s ++ ['\n']).head? := by cases s <;> rfl
      have hne : lines (s ++ ['\n']) ≠ [] := lines_ne_nil (by simp)
      rw [List.cons_append, List.cons_append, lines, lines, ih, afterReturn_append hhead,
        consLine_append hne]
      split
      · rfl
      · split <;> rfl

/-- A text that starts with a line end starts with an empty line. -/
theorem lines_eq_nil_cons {t : Text} (hne : t ≠ []) (h : ∀ c ∈ t.head?, isLineEnd c = true) :
    lines t = [] :: (lines t).tail := by
  cases t with
  | nil => exact absurd rfl hne
  | cons c t =>
      have hc : c = '\n' ∨ c = '\r' := by simpa [isLineEnd] using h c rfl
      rcases hc with rfl | rfl
      · rfl
      · by_cases hhead : t.head? = some '\n'
        · obtain ⟨t, rfl⟩ := List.head?_eq_some_iff.1 hhead
          rfl
        · rw [lines_return hhead]
          rfl

theorem lines_append_of_lineEnd {l t : Text} (hne : l ≠ []) (hl : ∀ c ∈ l, isLineEnd c = false)
    (ht : ∀ c ∈ t.head?, isLineEnd c = true) : lines (l ++ t) = l :: (lines t).tail := by
  induction l with
  | nil => exact absurd rfl hne
  | cons c l ih =>
      rw [List.forall_mem_cons] at hl
      rw [List.cons_append, lines_cons hl.1]
      by_cases hnil : l = []
      · subst hnil
        by_cases htnil : t = []
        · subst htnil
          rfl
        · rw [List.nil_append, lines_eq_nil_cons htnil ht]
          rfl
      · rw [ih hnil hl.2]
        rfl

end IdsRules.Text
