import IdsRules.Text.Blank
import IdsRules.Text.Split

/-!
# The fragments of an option block

Options are separated by semicolons. A semicolon between double quotes
separates nothing, and every double quote switches between inside and outside;
there is no escape, and quotes that do not pair up leave the rest of the block
inside. `pieces` cuts a block at the semicolons that separate, and keeps every
other character. `fragments` are the pieces without the blanks around them,
where a piece that holds only blanks is no fragment.
-/

namespace IdsRules

namespace OptionBlock

/-- Whether the end of a text is inside quotes, when its start is or is not. -/
def quotedAfter (quoted : Bool) (s : Text) : Bool :=
  s.foldl (fun q c => if c = '"' then !q else q) quoted

/-- The pieces of a text between the semicolons outside quotes, where `quoted`
says whether the text starts inside quotes. -/
def pieces (quoted : Bool) : Text → List Text
  | [] => [[]]
  | c :: s =>
    if c = ';' ∧ quoted = false then [] :: pieces false s
    else Text.consFirst c (pieces (if c = '"' then !quoted else quoted) s)

@[simp] theorem pieces_nil (quoted : Bool) : pieces quoted [] = [[]] := rfl

theorem pieces_ne_nil (quoted : Bool) (s : Text) : pieces quoted s ≠ [] := by
  cases s with
  | nil => simp
  | cons c s =>
    rw [pieces]
    split
    · simp
    · cases pieces (if c = '"' then !quoted else quoted) s <;> simp [Text.consFirst]

/-- Nothing is lost: the pieces joined by semicolons are the text. -/
theorem join_pieces (quoted : Bool) (s : Text) : Text.join ';' (pieces quoted s) = s := by
  induction s generalizing quoted with
  | nil => rfl
  | cons c s ih =>
    rw [pieces]
    split
    · rename_i h
      rw [Text.join_cons ';' [] (pieces_ne_nil false s), ih, List.nil_append, h.1]
    · rw [Text.join_consFirst, ih]

/-- The options of a block as texts: the pieces without the blanks around them,
empty ones left out. -/
def fragments (s : Text) : List Text :=
  ((pieces false s).map Text.trim).filter fun fragment => !fragment.isEmpty

/-- A fragment is not empty and has no blanks around it. -/
theorem trim_eq_self_of_mem_fragments {s fragment : Text} (h : fragment ∈ fragments s) :
    fragment ≠ [] ∧ Text.trim fragment = fragment := by
  simp only [fragments, List.mem_filter, List.mem_map] at h
  obtain ⟨⟨p, -, rfl⟩, hne⟩ := h
  exact ⟨by rintro hp; simp [hp] at hne, Text.trim_trim p⟩

/-- The text holds an even number of double quotes. -/
def Balanced (s : Text) : Prop :=
  s.count '"' % 2 = 0

/-- Every semicolon of the text is inside quotes. -/
def Guarded (s : Text) : Prop :=
  ∀ a b : Text, s = a ++ ';' :: b → a.count '"' % 2 = 1

end OptionBlock

end IdsRules
