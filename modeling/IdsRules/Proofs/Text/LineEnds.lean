import IdsRules.Proofs.Text.Lines

/-!
# Conventions for line ends

A line may end with a line feed, with a carriage return, or with both in this
order. `HasLines` says which lines a text has without reading it: the text is
its lines, each with one of these ends behind it, where a carriage return in
front of a line feed is never an end by itself and a last line that is not empty
may do without an end. `lines_eq_iff` says that these are the lines that are
read. So no other character ends a line, and it does not matter to the lines of
a text which of the ends it uses (`lines_withLineEnds`), nor whether its last
line has one (`lines_append_lineFeed_of_getLast?`).
-/

namespace IdsRules.Text

inductive LineEnd where
  | lineFeed
  | carriageReturn
  | returnLineFeed
deriving DecidableEq, Repr

def LineEnd.text : LineEnd → Text
  | .lineFeed => ['\n']
  | .carriageReturn => ['\r']
  | .returnLineFeed => ['\r', '\n']

/-- The text with a line end in the place of every line feed. -/
def withLineEnds (e : LineEnd) (s : Text) : Text :=
  s.flatMap fun c => if c = '\n' then e.text else [c]

@[simp] theorem withLineEnds_nil (e : LineEnd) : withLineEnds e [] = [] := rfl

theorem withLineEnds_lineFeed_cons (e : LineEnd) (s : Text) :
    withLineEnds e ('\n' :: s) = e.text ++ withLineEnds e s := rfl

theorem withLineEnds_cons {c : Char} (h : c ≠ '\n') (e : LineEnd) (s : Text) :
    withLineEnds e (c :: s) = c :: withLineEnds e s := by
  simp [withLineEnds, h]

theorem lineFeed_not_mem_withLineEnds (s : Text) : '\n' ∉ withLineEnds .carriageReturn s := by
  induction s with
  | nil => exact List.not_mem_nil
  | cons c s ih =>
      by_cases h : c = '\n'
      · rw [h, withLineEnds_lineFeed_cons]
        simpa [LineEnd.text] using ih
      · rw [withLineEnds_cons h]
        simpa [Ne.symm h] using ih

/-- An end that is not part of a longer one ends an empty line. -/
theorem lines_lineEnd_append {e : LineEnd} {s : Text}
    (h : e = .carriageReturn → s.head? ≠ some '\n') : lines (e.text ++ s) = [] :: lines s := by
  cases e with
  | lineFeed => exact lines_lineFeed s
  | carriageReturn => exact lines_return (h rfl)
  | returnLineFeed => exact lines_return_lineFeed s

theorem lines_append_lineEnd {e : LineEnd} {l s : Text} (hl : ∀ c ∈ l, isLineEnd c = false)
    (h : e = .carriageReturn → s.head? ≠ some '\n') :
    lines (l ++ (e.text ++ s)) = l :: lines s := by
  induction l with
  | nil => exact lines_lineEnd_append h
  | cons c l ih =>
      rw [List.forall_mem_cons] at hl
      rw [List.cons_append, lines_cons hl.1, ih hl.2]
      rfl

/-- Texts with the lines that they have. -/
inductive HasLines : Text → List Text → Prop
  | nil : HasLines [] []
  | last {l : Text} (hne : l ≠ []) (hl : ∀ c ∈ l, isLineEnd c = false) : HasLines l [l]
  | line {l s : Text} {ls : List Text} (e : LineEnd) (hl : ∀ c ∈ l, isLineEnd c = false)
      (he : e = .carriageReturn → s.head? ≠ some '\n') (hs : HasLines s ls) :
      HasLines (l ++ (e.text ++ s)) (l :: ls)

namespace HasLines

theorem lines_eq {s : Text} {ls : List Text} (h : HasLines s ls) : lines s = ls := by
  induction h with
  | nil => rfl
  | last hne hl => exact lines_eq_singleton hne hl
  | line e hl he _ ih => rw [lines_append_lineEnd hl he, ih]

theorem cons {s : Text} {ls : List Text} {c : Char} (hc : isLineEnd c = false)
    (h : HasLines s ls) : HasLines (c :: s) (consLine c ls) := by
  cases h with
  | nil => exact .last (List.cons_ne_nil _ _) (by simpa using hc)
  | last hne hl => exact .last (List.cons_ne_nil _ _) (List.forall_mem_cons.2 ⟨hc, hl⟩)
  | line e hl he hs => exact .line e (List.forall_mem_cons.2 ⟨hc, hl⟩) he hs

end HasLines

/-- A text that starts with a line end starts with one that is not part of a
longer one. -/
theorem exists_eq_lineEnd_append {c : Char} (h : isLineEnd c = true) (s : Text) :
    ∃ (e : LineEnd) (rest : Text), c :: s = e.text ++ rest ∧ rest.length ≤ s.length ∧
      (e = .carriageReturn → rest.head? ≠ some '\n') := by
  have hc : c = '\n' ∨ c = '\r' := by simpa [isLineEnd] using h
  rcases hc with rfl | rfl
  · exact ⟨.lineFeed, s, rfl, Nat.le_refl _, fun h => absurd h (by decide)⟩
  · by_cases hhead : s.head? = some '\n'
    · obtain ⟨rest, rfl⟩ := List.head?_eq_some_iff.1 hhead
      exact ⟨.returnLineFeed, rest, rfl, Nat.le_succ _, fun h => absurd h (by decide)⟩
    · exact ⟨.carriageReturn, s, rfl, Nat.le_refl _, fun _ => hhead⟩

theorem hasLines_lines (s : Text) : HasLines s (lines s) := by
  match s with
  | [] => exact .nil
  | c :: s =>
    cases hend : isLineEnd c with
    | false =>
        rw [lines_cons hend]
        exact (hasLines_lines s).cons hend
    | true =>
        obtain ⟨e, rest, hcs, hlength, he⟩ := exists_eq_lineEnd_append hend s
        rw [hcs, lines_lineEnd_append he]
        exact HasLines.line (l := []) e nofun he (hasLines_lines rest)
termination_by s.length

/-- The lines that are read are those that the text has. -/
theorem lines_eq_iff {s : Text} {ls : List Text} : lines s = ls ↔ HasLines s ls :=
  ⟨fun h => h ▸ hasLines_lines s, HasLines.lines_eq⟩

/-- Every convention gives a text the same lines. -/
theorem lines_withLineEnds (e : LineEnd) {s : Text} (h : '\r' ∉ s) :
    lines (withLineEnds e s) = lines s := by
  induction s with
  | nil => rfl
  | cons c s ih =>
      rw [List.mem_cons, not_or] at h
      by_cases hc : c = '\n'
      · have hhead : e = .carriageReturn → (withLineEnds e s).head? ≠ some '\n' := by
          rintro rfl hhead
          exact lineFeed_not_mem_withLineEnds s (List.mem_of_head? hhead)
        rw [hc, withLineEnds_lineFeed_cons, lines_lineEnd_append hhead, ih h.2, lines_lineFeed]
      · have hend : isLineEnd c = false := by simp [isLineEnd, hc, Ne.symm h.1]
        rw [withLineEnds_cons hc, lines_cons hend, lines_cons hend, ih h.2]

/-- A last line that is not empty may have an end or not. -/
theorem lines_append_lineFeed_of_getLast? {s : Text} (hne : s ≠ [])
    (h : ∀ c ∈ s.getLast?, isLineEnd c = false) : lines (s ++ ['\n']) = lines s := by
  induction s with
  | nil => exact absurd rfl hne
  | cons c s ih =>
      by_cases hs : s = []
      · subst hs
        have hc : isLineEnd c = false := h c rfl
        rw [List.singleton_append, lines_cons hc, lines_cons hc]
        rfl
      · have hhead : (s ++ ['\n']).head? = s.head? := by
          obtain ⟨d, rest, rfl⟩ := List.exists_cons_of_ne_nil hs
          rfl
        rw [List.getLast?_cons_of_ne_nil hs] at h
        rw [List.cons_append, lines, lines, ih hs h, afterReturn, afterReturn, hhead]

end IdsRules.Text
