import IdsRules.Text.Blank
import IdsRules.Text.Split

/-!
# Texts without blanks around their separators

A blank is loose when nothing but blanks stands between it and a separator or an
end of the text, on either side. `tighten` drops the loose blanks and keeps every
other character, going through the text once with what it has passed at hand.
Cutting at the separators, trimming the pieces and joining them again comes to the
same (`join_map_trim_splitOn`).
-/

namespace IdsRules.Text

/-- Whether nothing but blanks stands in front of the first separator, or of the
end of the text if it has none. -/
def isBlankUpTo (sep : Char) (s : Text) : Bool :=
  (s.takeWhile (· != sep)).all isBlank

@[simp] theorem isBlankUpTo_nil (sep : Char) : isBlankUpTo sep [] = true := rfl

theorem isBlankUpTo_cons_self (sep : Char) (s : Text) : isBlankUpTo sep (sep :: s) = true := by
  simp [isBlankUpTo]

theorem isBlankUpTo_cons_of_ne {sep c : Char} (h : c ≠ sep) (s : Text) :
    isBlankUpTo sep (c :: s) = (isBlank c && isBlankUpTo sep s) := by
  simp [isBlankUpTo, h]

theorem isBlankUpTo_append {sep : Char} {a : Text} (ha : sep ∉ a) (b : Text) :
    isBlankUpTo sep (a ++ b) = (a.all isBlank && isBlankUpTo sep b) := by
  induction a with
  | nil => rfl
  | cons c a ih =>
      rw [List.mem_cons, not_or] at ha
      rw [List.cons_append, isBlankUpTo_cons_of_ne (Ne.symm ha.1), ih ha.2, List.all_cons,
        Bool.and_assoc]

/-- A text without its loose blanks, where `before` is what stands in front of it, last
character first. -/
def tightenFrom (sep : Char) (before : Text) : Text → Text
  | [] => []
  | c :: s =>
    if isBlank c && (isBlankUpTo sep before || isBlankUpTo sep s) then
      tightenFrom sep (c :: before) s
    else c :: tightenFrom sep (c :: before) s

/-- A text without the blanks at its ends and around its separators. -/
def tighten (sep : Char) (s : Text) : Text :=
  tightenFrom sep [] s

theorem tightenFrom_sublist (sep : Char) (before s : Text) :
    (tightenFrom sep before s).Sublist s := by
  induction s generalizing before with
  | nil => exact List.Sublist.refl []
  | cons c s ih =>
      rw [tightenFrom]
      split
      · exact (ih (c :: before)).cons c
      · exact (ih (c :: before)).cons_cons c

section Pieces

variable {sep : Char} {before : Text}

theorem tightenFrom_cons_of_loose {c : Char} {s : Text} (hc : isBlank c = true)
    (h : isBlankUpTo sep before = true ∨ isBlankUpTo sep s = true) :
    tightenFrom sep before (c :: s) = tightenFrom sep (c :: before) s := by
  rw [tightenFrom, if_pos]
  rcases h with h | h <;> simp [hc, h]

theorem tightenFrom_cons_of_not_blank {c : Char} (hc : isBlank c = false) (s : Text) :
    tightenFrom sep before (c :: s) = c :: tightenFrom sep (c :: before) s := by
  rw [tightenFrom, if_neg]
  simp [hc]

theorem tightenFrom_cons_of_not_loose {c : Char} {s : Text}
    (h : isBlankUpTo sep before = false) (h' : isBlankUpTo sep s = false) :
    tightenFrom sep before (c :: s) = c :: tightenFrom sep (c :: before) s := by
  rw [tightenFrom, if_neg]
  simp [h, h']

theorem sep_not_mem_of_blank (hsep : isBlank sep = false) {w : Text}
    (hw : ∀ c ∈ w, isBlank c = true) : sep ∉ w := by
  intro h
  rw [hw sep h] at hsep
  cases hsep

/-- A run of blanks that reaches a separator or an end is dropped. -/
theorem tightenFrom_blanks_append (hsep : isBlank sep = false) {w rest : Text}
    (hw : ∀ c ∈ w, isBlank c = true)
    (h : isBlankUpTo sep before = true ∨ isBlankUpTo sep rest = true) :
    tightenFrom sep before (w ++ rest) = tightenFrom sep (w.reverse ++ before) rest := by
  induction w generalizing before with
  | nil => rfl
  | cons c w ih =>
      have hnot : sep ∉ c :: w := sep_not_mem_of_blank hsep hw
      rw [List.forall_mem_cons] at hw
      rw [List.mem_cons, not_or] at hnot
      have hbefore : isBlankUpTo sep (c :: before) = isBlankUpTo sep before := by
        rw [isBlankUpTo_cons_of_ne (Ne.symm hnot.1), hw.1, Bool.true_and]
      have hrest : isBlankUpTo sep (w ++ rest) = isBlankUpTo sep rest := by
        rw [isBlankUpTo_append hnot.2, List.all_eq_true.2 hw.2, Bool.true_and]
      rw [List.cons_append, tightenFrom_cons_of_loose hw.1 (hrest ▸ h),
        ih hw.2 (hbefore ▸ h), List.reverse_cons, List.append_assoc, List.singleton_append]

/-- A text loses no blank if a character that is not blank stands at its end, and another
at its start or in front of it, with no separator in between. -/
theorem tightenFrom_append_of_ends {t rest : Text} (ht : sep ∉ t)
    (hhead : ∀ c ∈ t.head?, isBlank c = false ∨ isBlankUpTo sep before = false)
    (hlast : ∀ c ∈ t.getLast?, isBlank c = false) :
    tightenFrom sep before (t ++ rest) = t ++ tightenFrom sep (t.reverse ++ before) rest := by
  induction t generalizing before with
  | nil => rfl
  | cons c t ih =>
      rw [List.mem_cons, not_or] at ht
      have hc := hhead c rfl
      have hbefore : isBlankUpTo sep (c :: before) = false := by
        rw [isBlankUpTo_cons_of_ne (Ne.symm ht.1), Bool.and_eq_false_iff]
        exact hc
      have hlast' : ∀ d ∈ t.getLast?, isBlank d = false := by
        intro d hd
        rw [Option.mem_def] at hd
        refine hlast d ?_
        rw [List.getLast?_cons, hd, Option.getD_some, Option.mem_def]
      have hstep : tightenFrom sep before (c :: (t ++ rest)) =
          c :: tightenFrom sep (c :: before) (t ++ rest) := by
        cases hblank : isBlank c with
        | false => exact tightenFrom_cons_of_not_blank hblank _
        | true =>
            -- a blank is not the last character of the text, and the last one is not blank
            have hloose : isBlankUpTo sep before = false := hc.resolve_left (by simp [hblank])
            cases hd : t.getLast? with
            | none =>
                rw [List.getLast?_eq_none_iff] at hd
                subst hd
                exact absurd (hlast c rfl) (by simp [hblank])
            | some d =>
                have hall : t.all isBlank = false := by
                  rw [List.all_eq_false]
                  exact ⟨d, List.mem_of_getLast? hd, by simp [hlast' d hd]⟩
                refine tightenFrom_cons_of_not_loose hloose ?_
                rw [isBlankUpTo_append ht.2, hall, Bool.false_and]
      rw [List.cons_append, hstep, ih ht.2 (fun _ _ => Or.inr hbefore) hlast', List.reverse_cons,
        List.append_assoc, List.singleton_append, List.cons_append]

theorem tightenFrom_trim_append {p rest : Text} (hp : sep ∉ trim p) :
    tightenFrom sep before (trim p ++ rest) =
      trim p ++ tightenFrom sep ((trim p).reverse ++ before) rest :=
  tightenFrom_append_of_ends hp (fun _ hc => Or.inl (isBlank_head?_trim hc))
    fun _ hc => isBlank_getLast?_trimEnd hc

/-- A piece between two separators or ends is trimmed. -/
theorem tightenFrom_piece_append (hsep : isBlank sep = false) {p rest : Text} (hp : sep ∉ p)
    (hbefore : isBlankUpTo sep before = true) (hrest : isBlankUpTo sep rest = true) :
    tightenFrom sep before (p ++ rest) =
      trim p ++ tightenFrom sep (p.reverse ++ before) rest := by
  obtain ⟨u, v, hu, hv, hsplit⟩ := exists_eq_append_trim_append p
  have hcore : sep ∉ trim p := fun h => hp (mem_of_mem_trim h)
  calc tightenFrom sep before (p ++ rest)
      = tightenFrom sep before (u ++ (trim p ++ (v ++ rest))) := by
        rw [← List.append_assoc, ← List.append_assoc, ← hsplit]
    _ = tightenFrom sep (u.reverse ++ before) (trim p ++ (v ++ rest)) :=
        tightenFrom_blanks_append hsep hu (Or.inl hbefore)
    _ = trim p ++ tightenFrom sep ((trim p).reverse ++ (u.reverse ++ before)) (v ++ rest) :=
        tightenFrom_trim_append hcore
    _ = trim p ++ tightenFrom sep (v.reverse ++ ((trim p).reverse ++ (u.reverse ++ before))) rest :=
        by rw [tightenFrom_blanks_append hsep hv (Or.inr hrest)]
    _ = trim p ++ tightenFrom sep (p.reverse ++ before) rest := by
        have hreverse : p.reverse = v.reverse ++ ((trim p).reverse ++ u.reverse) := by
          simpa using congrArg List.reverse hsplit
        rw [hreverse, List.append_assoc, List.append_assoc]

theorem tightenFrom_join (hsep : isBlank sep = false) {ps : List Text} (hne : ps ≠ [])
    (hps : ∀ p ∈ ps, sep ∉ p) (hbefore : isBlankUpTo sep before = true) :
    tightenFrom sep before (join sep ps) = join sep (ps.map trim) := by
  induction ps generalizing before with
  | nil => exact absurd rfl hne
  | cons p ps ih =>
      rw [List.forall_mem_cons] at hps
      by_cases hnil : ps = []
      · subst hnil
        have hpiece := tightenFrom_piece_append hsep hps.1 hbefore (isBlankUpTo_nil sep)
        rwa [List.append_nil, tightenFrom, List.append_nil] at hpiece
      · rw [join_cons sep p hnil, List.map_cons, join_cons sep (trim p) (by simpa using hnil),
          tightenFrom_piece_append hsep hps.1 hbefore (isBlankUpTo_cons_self sep _),
          tightenFrom_cons_of_not_blank hsep, ih hnil hps.2 (isBlankUpTo_cons_self sep _)]

end Pieces

/-- The trimmed pieces of a text, joined again, are the text without the blanks around
its separators and at its ends. -/
theorem join_map_trim_splitOn {sep : Char} (hsep : isBlank sep = false) (s : Text) :
    join sep ((splitOn sep s).map trim) = tighten sep s := by
  have hpieces : ∀ p ∈ splitOn sep s, sep ∉ p := fun _ hp => not_mem_of_mem_splitOn hp
  rw [← tightenFrom_join hsep (splitOn_ne_nil sep s) hpieces (isBlankUpTo_nil sep), join_splitOn,
    tighten]

example : join ',' ((splitOn ',' "a b , , c".toList).map trim) = "a b,,c".toList := by decide

theorem length_tighten_le (sep : Char) (s : Text) : (tighten sep s).length ≤ s.length :=
  (tightenFrom_sublist sep [] s).length_le

end IdsRules.Text
