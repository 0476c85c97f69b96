import IdsRules.Text.Basic

/-!
# Splitting and joining on a separator

`splitOn sep s` cuts a text at every separator and `join sep` puts the pieces
back together; a text with `n` separators has `n + 1` pieces, so the list of
pieces is never empty. The two are inverse to each other (`join_splitOn`,
`splitOn_join`). `cut? sep s` cuts at the first separator only, and is absent
when there is none.
-/

namespace IdsRules.Text

def consFirst (c : Char) : List Text → List Text
  | [] => [[c]]
  | p :: ps => (c :: p) :: ps

/-- The pieces of a text between its separators. -/
def splitOn (sep : Char) : Text → List Text
  | [] => [[]]
  | c :: s => if c = sep then [] :: splitOn sep s else consFirst c (splitOn sep s)

@[simp] theorem splitOn_nil (sep : Char) : splitOn sep [] = [[]] := rfl

theorem splitOn_cons_self (sep : Char) (s : Text) :
    splitOn sep (sep :: s) = [] :: splitOn sep s := by simp [splitOn]

theorem splitOn_cons_of_ne {sep c : Char} (h : c ≠ sep) (s : Text) :
    splitOn sep (c :: s) = consFirst c (splitOn sep s) := by simp [splitOn, h]

theorem splitOn_ne_nil (sep : Char) (s : Text) : splitOn sep s ≠ [] := by
  cases s with
  | nil => simp
  | cons c s =>
    by_cases h : c = sep
    · simp [splitOn, h]
    · rw [splitOn_cons_of_ne h]
      cases splitOn sep s <;> simp [consFirst]

def join (sep : Char) : List Text → Text
  | [] => []
  | [p] => p
  | p :: q :: ps => p ++ sep :: join sep (q :: ps)

@[simp] theorem join_nil (sep : Char) : join sep [] = [] := rfl

@[simp] theorem join_singleton (sep : Char) (p : Text) : join sep [p] = p := rfl

theorem join_cons {ps : List Text} (sep : Char) (p : Text) (h : ps ≠ []) :
    join sep (p :: ps) = p ++ sep :: join sep ps := by
  cases ps with
  | nil => exact absurd rfl h
  | cons q ps => rfl

theorem join_consFirst (sep c : Char) (ps : List Text) :
    join sep (consFirst c ps) = c :: join sep ps := by
  match ps with
  | [] => rfl
  | [p] => rfl
  | p :: q :: ps => rfl

/-- Joining the pieces of a text gives the text back. -/
theorem join_splitOn (sep : Char) (s : Text) : join sep (splitOn sep s) = s := by
  induction s with
  | nil => rfl
  | cons c s ih =>
    by_cases h : c = sep
    · rw [h, splitOn_cons_self, join_cons sep [] (splitOn_ne_nil sep s), ih, List.nil_append]
    · rw [splitOn_cons_of_ne h, join_consFirst, ih]

/-- No piece holds the separator. -/
theorem not_mem_of_mem_splitOn {sep : Char} {s p : Text} (h : p ∈ splitOn sep s) : sep ∉ p := by
  induction s generalizing p with
  | nil => simp_all
  | cons c s ih =>
    by_cases hc : c = sep
    · rw [hc, splitOn_cons_self, List.mem_cons] at h
      rcases h with rfl | h
      · simp
      · exact ih h
    · rw [splitOn_cons_of_ne hc] at h
      cases hs : splitOn sep s with
      | nil => exact absurd hs (splitOn_ne_nil sep s)
      | cons q qs =>
        rw [hs, consFirst, List.mem_cons] at h
        rcases h with rfl | h
        · have hq : sep ∉ q := ih (by simp [hs])
          simp [Ne.symm hc, hq]
        · exact ih (by simp [hs, h])

theorem splitOn_append_sep {sep : Char} {p : Text} (hp : sep ∉ p) (s : Text) :
    splitOn sep (p ++ sep :: s) = p :: splitOn sep s := by
  induction p with
  | nil => exact splitOn_cons_self sep s
  | cons c p ih =>
    have hc : c ≠ sep := fun h => hp (by simp [h])
    have hp' : sep ∉ p := fun h => hp (by simp [h])
    rw [List.cons_append, splitOn_cons_of_ne hc, ih hp', consFirst]

/-- A separator ends the pieces of what stands in front of it. -/
theorem splitOn_append_cons (sep : Char) (s t : Text) :
    splitOn sep (s ++ sep :: t) = splitOn sep s ++ splitOn sep t := by
  induction s with
  | nil => exact splitOn_cons_self sep t
  | cons c s ih =>
    by_cases hc : c = sep
    · rw [hc, List.cons_append, splitOn_cons_self, splitOn_cons_self, ih, List.cons_append]
    · rw [List.cons_append, splitOn_cons_of_ne hc, splitOn_cons_of_ne hc, ih]
      cases hs : splitOn sep s with
      | nil => exact absurd hs (splitOn_ne_nil sep s)
      | cons p ps => rfl

theorem splitOn_eq_singleton {sep : Char} {p : Text} (hp : sep ∉ p) : splitOn sep p = [p] := by
  induction p with
  | nil => rfl
  | cons c p ih =>
    have hc : c ≠ sep := fun h => hp (by simp [h])
    have hp' : sep ∉ p := fun h => hp (by simp [h])
    rw [splitOn_cons_of_ne hc, ih hp', consFirst]

/-- Splitting a join of separator-free pieces gives the pieces back. -/
theorem splitOn_join {sep : Char} {ps : List Text} (hne : ps ≠ [])
    (h : ∀ p ∈ ps, sep ∉ p) : splitOn sep (join sep ps) = ps := by
  induction ps with
  | nil => exact absurd rfl hne
  | cons p ps ih =>
    by_cases hps : ps = []
    · subst hps
      exact splitOn_eq_singleton (h p (by simp))
    · rw [join_cons sep p hps, splitOn_append_sep (h p (by simp)),
        ih hps fun q hq => h q (by simp [hq])]

/-- A text has one more piece than it has separators. -/
theorem length_splitOn (sep : Char) (s : Text) :
    (splitOn sep s).length = s.count sep + 1 := by
  induction s with
  | nil => rfl
  | cons c s ih =>
    by_cases h : c = sep
    · simp [h, splitOn_cons_self, ih]
    · rw [splitOn_cons_of_ne h, List.count_cons_of_ne h, ← ih]
      cases hs : splitOn sep s with
      | nil => exact absurd hs (splitOn_ne_nil sep s)
      | cons q qs => simp [consFirst]

/-- The texts before and after the first separator. -/
def cut? (sep : Char) : Text → Option (Text × Text)
  | [] => none
  | c :: s => if c = sep then some ([], s) else (cut? sep s).map fun p => (c :: p.1, p.2)

@[simp] theorem cut?_nil (sep : Char) : cut? sep [] = none := rfl

theorem cut?_eq_none_iff {sep : Char} {s : Text} : cut? sep s = none ↔ sep ∉ s := by
  induction s with
  | nil => simp
  | cons c s ih =>
    by_cases h : c = sep
    · simp [cut?, h]
    · simp [cut?, h, ih, Ne.symm h]

theorem cut?_eq_some_iff {sep : Char} {s a b : Text} :
    cut? sep s = some (a, b) ↔ s = a ++ sep :: b ∧ sep ∉ a := by
  induction s generalizing a with
  | nil => simp
  | cons c s ih =>
    by_cases h : c = sep
    · subst h
      cases a with
      | nil => simp [cut?]
      | cons d a =>
        simp only [cut?, if_true, Option.some.injEq, Prod.mk.injEq, List.cons_append,
          List.cons.injEq, List.mem_cons, not_or]
        exact ⟨fun hn => absurd hn.1 (by simp), fun hn => absurd hn.1.1 hn.2.1⟩
    · cases a with
      | nil => simp [cut?, h]
      | cons d a =>
        simp only [cut?, h, if_false, Option.map_eq_some_iff, Prod.exists, Prod.mk.injEq,
          List.cons.injEq, List.cons_append, List.mem_cons, not_or]
        constructor
        · rintro ⟨x, y, hxy, ⟨rfl, rfl⟩, rfl⟩
          obtain ⟨rfl, hx⟩ := ih.1 hxy
          exact ⟨⟨rfl, rfl⟩, fun hn => h hn.symm, hx⟩
        · rintro ⟨⟨rfl, rfl⟩, -, ha⟩
          exact ⟨a, b, ih.2 ⟨rfl, ha⟩, ⟨rfl, rfl⟩, rfl⟩

end IdsRules.Text
