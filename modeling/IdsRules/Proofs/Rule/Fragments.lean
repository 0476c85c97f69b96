import IdsRules.Rule.Fragment

/-!
# Cutting option blocks

The state of the cutter is whether it is inside quotes, and every double quote
switches it. A semicolon behind a text that leaves the state outside separates
that text from everything behind it, so the pieces and the fragments of the two
sides are found independently of each other. A text of which every semicolon is
inside quotes is one piece.
-/

namespace IdsRules

namespace OptionBlock

/-- The state behind a text is the state before it, switched once for each
quote. -/
theorem quotedAfter_eq (quoted : Bool) (s : Text) :
    quotedAfter quoted s = (quoted ^^ decide (s.count '"' % 2 = 1)) := by
  induction s generalizing quoted with
  | nil => simp [quotedAfter]
  | cons c s ih =>
      have hstep : quotedAfter quoted (c :: s) =
          quotedAfter (if c = '"' then !quoted else quoted) s := rfl
      rw [hstep, ih, List.count_cons]
      by_cases hc : c = '"'
      · have hparity : decide ((s.count '"' + 1) % 2 = 1) = !decide (s.count '"' % 2 = 1) := by
          rcases Nat.mod_two_eq_zero_or_one (s.count '"') with h | h <;>
            simp [Nat.add_mod, h]
        simp [hc, hparity]
      · simp [hc]

theorem quotedAfter_of_balanced {s : Text} (h : Balanced s) : quotedAfter false s = false := by
  rw [Balanced] at h
  simp [quotedAfter_eq, h]

/-- A semicolon behind a text that does not end inside quotes separates. -/
theorem pieces_append_semicolon {quoted : Bool} {a : Text} (h : quotedAfter quoted a = false)
    (b : Text) : pieces quoted (a ++ ';' :: b) = pieces quoted a ++ pieces false b := by
  induction a generalizing quoted with
  | nil =>
      have hq : quoted = false := h
      simp [pieces, hq]
  | cons c a ih =>
      have hstep : quotedAfter (if c = '"' then !quoted else quoted) a = false := h
      rw [List.cons_append, pieces, pieces]
      by_cases hc : c = ';' ∧ quoted = false
      · obtain ⟨rfl, rfl⟩ := hc
        have hoff : quotedAfter false a = false := hstep
        rw [if_pos ⟨rfl, rfl⟩, if_pos ⟨rfl, rfl⟩, ih hoff, List.cons_append]
      · rw [if_neg hc, if_neg hc, ih hstep]
        cases hp : pieces (if c = '"' then !quoted else quoted) a with
        | nil => exact absurd hp (pieces_ne_nil _ _)
        | cons p ps => rfl

/-- The two sides of a semicolon outside quotes are cut independently. -/
theorem fragments_append_semicolon {a : Text} (h : Balanced a) (b : Text) :
    fragments (a ++ ';' :: b) = fragments a ++ fragments b := by
  simp only [fragments, pieces_append_semicolon (quotedAfter_of_balanced h), List.map_append,
    List.filter_append]

/-- A text of which every semicolon is inside quotes is not cut. -/
theorem pieces_eq_singleton {quoted : Bool} {s : Text}
    (h : ∀ a b, s = a ++ ';' :: b → quotedAfter quoted a = true) : pieces quoted s = [s] := by
  induction s generalizing quoted with
  | nil => rfl
  | cons c s ih =>
      have hc : ¬ (c = ';' ∧ quoted = false) := by
        rintro ⟨rfl, rfl⟩
        exact absurd (h [] s rfl) (by decide)
      have hrest : pieces (if c = '"' then !quoted else quoted) s = [s] := by
        apply ih
        intro a b hs
        exact h (c :: a) b (by rw [hs, List.cons_append])
      rw [pieces, if_neg hc, hrest]
      rfl

theorem pieces_of_guarded {s : Text} (h : Guarded s) : pieces false s = [s] := by
  apply pieces_eq_singleton
  intro a b hs
  simp [quotedAfter_eq, h a b hs]

/-- A text of which every semicolon is inside quotes is one fragment, unless it
is blank. -/
theorem fragments_of_guarded {s : Text} (h : Guarded s) (hs : Text.trim s ≠ []) :
    fragments s = [Text.trim s] := by
  simp [fragments, pieces_of_guarded h, hs]

/-- A semicolon of a text stands behind a beginning without semicolons. -/
theorem exists_append_of_semicolon_not_mem {u t a b : Text} (hu : ';' ∉ u)
    (h : u ++ t = a ++ ';' :: b) : ∃ a', a = u ++ a' ∧ t = a' ++ ';' :: b := by
  rcases List.append_eq_append_iff.1 h with ⟨a', ha, ht⟩ | ⟨c, hc, ht⟩
  · exact ⟨a', ha, ht⟩
  · cases c with
    | nil => exact ⟨[], by simpa using hc.symm, by simpa using ht.symm⟩
    | cons d c =>
        rw [List.cons_append, List.cons.injEq] at ht
        have hmem : ';' ∈ u := by rw [hc, ← ht.1]; simp
        exact absurd hmem hu

end OptionBlock

end IdsRules
