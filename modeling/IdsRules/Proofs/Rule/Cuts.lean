import Mathlib.Data.List.Induction
import Mathlib.Data.List.Infix
import IdsRules.Proofs.Rule.Fragments

/-!
# The one way to cut an option block

Between semicolons that separate, a text is in pieces of which every semicolon
is inside quotes, and a piece behind which another one stands leaves no quote
open. These two conditions, which look at one piece at a time, already fix where
a text is cut: `IsCut.eq_pieces` says that there is no other way.

Trimming takes no quote away, and a piece that is dropped because it is blank
has none. So the fragments of a block meet the same two conditions, and a block
that is put together from them is cut into them again.
-/

namespace IdsRules

theorem mem_dropLast_of_mem_dropLast_filter {α : Type*} {keep : α → Bool} {l : List α} {x : α}
    (h : x ∈ (l.filter keep).dropLast) : x ∈ l.dropLast := by
  rcases List.eq_nil_or_concat' l with rfl | ⟨front, last, rfl⟩
  · cases h
  · rw [List.dropLast_concat]
    rw [List.filter_append] at h
    have hfront : x ∈ front.filter keep := by
      cases hlast : keep last with
      | true => simpa [List.filter_cons, hlast] using h
      | false => exact List.mem_of_mem_dropLast (by simpa [List.filter_cons, hlast] using h)
    exact List.mem_of_mem_filter hfront

namespace OptionBlock

/-- Texts that a text is cut into: with semicolons between them they are the text,
only the last may leave a quote open, and a semicolon that is left in one of them
is inside quotes. -/
structure IsCut (s : Text) (ps : List Text) : Prop where
  ne_nil : ps ≠ []
  join_eq : Text.join ';' ps = s
  balanced : ∀ p ∈ ps.dropLast, Balanced p
  guarded : ∀ p ∈ ps, Guarded p

/-- Either every semicolon of a text is inside quotes, or there is a first one
that is not. -/
theorem guarded_or_exists_append (s : Text) :
    Guarded s ∨ ∃ a b, s = a ++ ';' :: b ∧ Guarded a ∧ Balanced a := by
  induction s using List.reverseRecOn with
  | nil => exact .inl fun a b h => by simp at h
  | append_singleton s c ih =>
      rcases ih with hs | ⟨a, b, rfl, ha, hbalanced⟩
      · by_cases hc : c = ';' ∧ Balanced s
        · exact .inr ⟨s, [], by rw [hc.1], hs, hc.2⟩
        · refine .inl fun a b hab => ?_
          -- the semicolon is the last character or stands in front of it
          rcases List.eq_nil_or_concat' b with rfl | ⟨b, d, rfl⟩
          · obtain ⟨rfl, hlast⟩ := List.append_inj' hab rfl
            have hodd : ¬ Balanced s := fun h => hc ⟨by simpa using hlast, h⟩
            exact Nat.mod_two_ne_zero.1 hodd
          · rw [← List.cons_append, ← List.append_assoc] at hab
            exact hs a b (List.append_inj' hab rfl).1
      · exact .inr ⟨a, b ++ [c], by simp, ha, hbalanced⟩

namespace IsCut

theorem of_guarded {s : Text} (h : Guarded s) : IsCut s [s] where
  ne_nil := List.cons_ne_nil _ _
  join_eq := rfl
  balanced := nofun
  guarded := by simpa using h

theorem cons {a b : Text} {ps : List Text} (hguarded : Guarded a) (hbalanced : Balanced a)
    (h : IsCut b ps) : IsCut (a ++ ';' :: b) (a :: ps) where
  ne_nil := List.cons_ne_nil _ _
  join_eq := by rw [Text.join_cons ';' a h.ne_nil, h.join_eq]
  balanced := by
    rw [List.dropLast_cons_of_ne_nil h.ne_nil, List.forall_mem_cons]
    exact ⟨hbalanced, h.balanced⟩
  guarded := List.forall_mem_cons.2 ⟨hguarded, h.guarded⟩

/-- The pieces of a text are the only texts that it can be cut into. -/
theorem eq_pieces {s : Text} {ps : List Text} (h : IsCut s ps) : ps = pieces false s := by
  obtain ⟨hne, rfl, hbalanced, hguarded⟩ := h
  induction ps with
  | nil => exact absurd rfl hne
  | cons p ps ih =>
      rw [List.forall_mem_cons] at hguarded
      by_cases hps : ps = []
      · subst hps
        exact (pieces_of_guarded hguarded.1).symm
      · rw [List.dropLast_cons_of_ne_nil hps, List.forall_mem_cons] at hbalanced
        rw [Text.join_cons ';' p hps,
          pieces_append_semicolon (quotedAfter_of_balanced hbalanced.1),
          pieces_of_guarded hguarded.1, ← ih hps hbalanced.2 hguarded.2, List.singleton_append]

end IsCut

theorem isCut_pieces (s : Text) : IsCut s (pieces false s) := by
  rcases guarded_or_exists_append s with hs | ⟨a, b, hs, ha, hbalanced⟩
  · rw [pieces_of_guarded hs]
    exact .of_guarded hs
  · have hrest := isCut_pieces b
    rw [hs, pieces_append_semicolon (quotedAfter_of_balanced hbalanced), pieces_of_guarded ha]
    exact hrest.cons ha hbalanced
termination_by s.length
decreasing_by
  rw [hs, List.length_append, List.length_cons]
  omega

/-- There is exactly one way to cut a text at semicolons so that every piece but
the last leaves no quote open and no piece has a semicolon outside quotes. The
fragments of the text are its pieces without the blanks around them, in the same
order, less those of which nothing is left. -/
theorem existsUnique_isCut (s : Text) :
    (∃! ps : List Text, IsCut s ps) ∧ ∀ ps : List Text, IsCut s ps →
      fragments s = (ps.map Text.trim).filter fun fragment => !fragment.isEmpty := by
  refine ⟨⟨pieces false s, isCut_pieces s, fun ps h => h.eq_pieces⟩, ?_⟩
  intro ps h
  rw [h.eq_pieces, fragments]

-- a quote that is left open takes the rest of the block with it
example : fragments " a;;\"b\" ;\"c ; d; ".toList =
    ["a".toList, "\"b\"".toList, "\"c ; d;".toList] := by decide

section Trimming

variable {s : Text}

theorem count_quote_of_blank {u : Text} (h : ∀ c ∈ u, Text.isBlank c = true) :
    u.count '"' = 0 := by
  rw [List.count_eq_zero]
  intro hmem
  exact absurd (h '"' hmem) (by decide)

theorem count_quote_trim (s : Text) : (Text.trim s).count '"' = s.count '"' := by
  obtain ⟨u, v, hu, hv, hs⟩ := Text.exists_eq_append_trim_append s
  have hcount := congrArg (List.count '"') hs
  rw [List.count_append, List.count_append, count_quote_of_blank hu,
    count_quote_of_blank hv] at hcount
  omega

theorem Balanced.trim (h : Balanced s) : Balanced (Text.trim s) := by
  rw [Balanced, count_quote_trim]
  exact h

/-- What stands in front of a semicolon has the same quotes after trimming: the
blanks that are missing there are none. -/
theorem Guarded.trim (h : Guarded s) : Guarded (Text.trim s) := by
  obtain ⟨u, v, hu, -, hs⟩ := Text.exists_eq_append_trim_append s
  intro a b hab
  have hodd := h (u ++ a) (b ++ v) (by rw [hs, hab]; simp)
  rwa [List.count_append, count_quote_of_blank hu, Nat.zero_add] at hodd

end Trimming

/-- Lists of fragments: no fragment is empty or has blanks around it, a semicolon
in a fragment is inside quotes, and only the last fragment may leave a quote
open. -/
structure IsFragmentList (ps : List Text) : Prop where
  ne_nil : ∀ p ∈ ps, p ≠ []
  trim_eq : ∀ p ∈ ps, Text.trim p = p
  guarded : ∀ p ∈ ps, Guarded p
  balanced : ∀ p ∈ ps.dropLast, Balanced p

theorem isFragmentList_fragments (s : Text) : IsFragmentList (fragments s) where
  ne_nil p hp := (trim_eq_self_of_mem_fragments hp).1
  trim_eq p hp := (trim_eq_self_of_mem_fragments hp).2
  guarded p hp := by
    obtain ⟨piece, hpiece, rfl⟩ := List.mem_map.1 (List.mem_of_mem_filter hp)
    exact ((isCut_pieces s).guarded piece hpiece).trim
  balanced p hp := by
    have hmap := mem_dropLast_of_mem_dropLast_filter hp
    rw [← List.map_dropLast] at hmap
    obtain ⟨piece, hpiece, rfl⟩ := List.mem_map.1 hmap
    exact ((isCut_pieces s).balanced piece hpiece).trim

namespace IsFragmentList

theorem isCut_join {ps : List Text} (h : IsFragmentList ps) (hne : ps ≠ []) :
    IsCut (Text.join ';' ps) ps :=
  ⟨hne, rfl, h.balanced, h.guarded⟩

/-- Fragments with semicolons between them are cut into themselves. -/
theorem fragments_join {ps : List Text} (h : IsFragmentList ps) :
    fragments (Text.join ';' ps) = ps := by
  by_cases hne : ps = []
  · subst hne
    rfl
  · have htrim : ps.map Text.trim = ps := (List.map_congr_left h.trim_eq).trans (List.map_id ps)
    rw [fragments, ← (h.isCut_join hne).eq_pieces, htrim, List.filter_eq_self]
    intro p hp
    simpa using h.ne_nil p hp

end IsFragmentList

/-- A list of texts has the fragments of some block exactly when it is a list of
fragments. The block of the fragments with semicolons between them has these
fragments, so cutting what was put together from the fragments of any block
changes nothing, whether or not its quotes pair up. -/
theorem exists_fragments_eq_iff (ps : List Text) :
    ((∃ s, fragments s = ps) ↔ IsFragmentList ps) ∧
      (IsFragmentList ps → fragments (Text.join ';' ps) = ps) ∧
      ∀ s, fragments (Text.join ';' (fragments s)) = fragments s := by
  refine ⟨⟨?_, ?_⟩, ?_, ?_⟩
  · rintro ⟨s, rfl⟩
    exact isFragmentList_fragments s
  · exact fun h => ⟨Text.join ';' ps, h.fragments_join⟩
  · exact IsFragmentList.fragments_join
  · exact fun s => (isFragmentList_fragments s).fragments_join

end OptionBlock

end IdsRules
