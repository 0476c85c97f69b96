import Mathlib.Data.List.TakeWhile
import Mathlib.Logic.ExistsUnique
import IdsRules.Files.Naming

/-!
# The parts of a path

A path is cut behind its last slash, and the name that is left there is cut at its
last point. Each cut is described by what stands on its two sides, and a text has one
such cut: the part behind the cut is free of the character, so no later one was
missed. An output path has the parts of the path it is made from, apart from the
extension, and that is why a second renaming changes nothing.

The extension can also be found without taking the path apart, from the places of the
last point and of the last slash in the whole of it. A point in front of the last
slash is one of a directory and marks no extension.
-/

namespace IdsRules

/-! ## Last occurrences -/

namespace Text

variable {c : Char} {s before after : Text} {i : Nat}

/-- A text is cut at the last occurrence of a character in it. -/
theorem exists_eq_append_cons (h : c ∈ s) :
    ∃ before after, s = before ++ c :: after ∧ c ∉ after := by
  obtain ⟨front, back, hs, hfront⟩ := List.eq_append_cons_of_mem (List.mem_reverse.2 h)
  refine ⟨back.reverse, front.reverse, ?_, by rwa [List.mem_reverse]⟩
  rw [← List.reverse_reverse s, hs]
  simp

/-- The last occurrence of a character in a text is at this index. -/
def IsLastAt (c : Char) (s : Text) (i : Nat) : Prop :=
  s[i]? = some c ∧ ∀ j, i < j → s[j]? ≠ some c

theorem isLastAt_iff :
    IsLastAt c s i ↔ ∃ before after, s = before ++ c :: after ∧ c ∉ after ∧ before.length = i := by
  constructor
  · -- the index cuts the text into what stands in front of it and what stands behind it
    rintro ⟨hc, hlast⟩
    obtain ⟨hi, hget⟩ := List.getElem?_eq_some_iff.1 hc
    refine ⟨s.take i, s.drop (i + 1), ?_, ?_, List.length_take_of_le (Nat.le_of_lt hi)⟩
    · rw [← hget, List.getElem_cons_drop, List.take_append_drop]
    · intro hmem
      obtain ⟨k, hk⟩ := List.getElem?_of_mem hmem
      rw [List.getElem?_drop] at hk
      exact hlast _ (by omega) hk
  · rintro ⟨before, after, rfl, hafter, rfl⟩
    refine ⟨by simp, fun j hj hget => hafter ?_⟩
    rw [List.getElem?_append_right (Nat.le_of_lt hj)] at hget
    obtain ⟨k, hk⟩ := Nat.exists_eq_add_of_lt hj
    rw [show j - before.length = k + 1 by omega, List.getElem?_cons_succ] at hget
    exact List.mem_of_getElem? hget

theorem IsLastAt.unique {j : Nat} (hi : IsLastAt c s i) (hj : IsLastAt c s j) : i = j := by
  rcases Nat.lt_trichotomy i j with h | h | h
  · exact absurd hj.1 (hi.2 j h)
  · exact h
  · exact absurd hi.1 (hj.2 i h)

theorem lastIndex?_eq_none_iff : lastIndex? c s = none ↔ c ∉ s := by
  induction s with
  | nil => simp [lastIndex?]
  | cons d s ih =>
      rw [lastIndex?, List.mem_cons, not_or, ← ih]
      cases lastIndex? c s with
      | some i => simp
      | none => simp [eq_comm]

theorem isLastAt_of_lastIndex? (h : lastIndex? c s = some i) : IsLastAt c s i := by
  induction s generalizing i with
  | nil => cases h
  | cons d s ih =>
      rw [lastIndex?] at h
      cases hs : lastIndex? c s with
      | some k =>
          rw [hs] at h
          cases h
          obtain ⟨hget, hlast⟩ := ih hs
          refine ⟨hget, fun j hj => ?_⟩
          obtain ⟨j, rfl⟩ := Nat.exists_eq_succ_of_ne_zero (Nat.ne_of_gt (Nat.zero_lt_of_lt hj))
          exact hlast j (Nat.lt_of_succ_lt_succ hj)
      | none =>
          rw [hs, Option.ite_none_right_eq_some] at h
          obtain ⟨rfl, ⟨⟩⟩ := h
          exact isLastAt_iff.2 ⟨[], s, rfl, lastIndex?_eq_none_iff.1 hs, rfl⟩

theorem lastIndex?_eq_some_iff : lastIndex? c s = some i ↔ IsLastAt c s i := by
  refine ⟨isLastAt_of_lastIndex?, fun h => ?_⟩
  cases hs : lastIndex? c s with
  | none => exact absurd (List.mem_of_getElem? h.1) (lastIndex?_eq_none_iff.1 hs)
  | some j => rw [(isLastAt_of_lastIndex? hs).unique h]

end Text

namespace Naming

/-- The path is a directory part, which is empty or ends with a slash, and a name
without slashes. -/
structure IsSplit (path directory name : Text) : Prop where
  path_eq : path = directory ++ name
  directory_eq : directory = [] ∨ ∃ above, directory = above ++ ['/']
  slash_notMem : '/' ∉ name

/-- The stem of a name is what stands in front of its last point, or the whole name
if it has none. -/
def IsStem (name stem : Text) : Prop :=
  '.' ∉ name ∧ stem = name ∨ ∃ extension, name = stem ++ '.' :: extension ∧ '.' ∉ extension

variable {path directory name stem : Text}

/-! ## The cut of a path -/

theorem exists_isSplit (path : Text) : ∃ directory name, IsSplit path directory name := by
  by_cases hslash : '/' ∈ path
  · obtain ⟨above, name, hpath, hname⟩ := Text.exists_eq_append_cons hslash
    exact ⟨above ++ ['/'], name, by simp [hpath], Or.inr ⟨above, rfl⟩, hname⟩
  · exact ⟨[], path, rfl, Or.inl rfl, hslash⟩

/-- A directory part that is not empty ends with the last slash of the path. -/
theorem IsSplit.isLastAt_slash (h : IsSplit path directory name) {j : Nat} :
    Text.IsLastAt '/' path j ↔ directory.length = j + 1 := by
  obtain ⟨rfl, rfl | ⟨above, rfl⟩, hname⟩ := h
  · refine ⟨fun hlast => absurd (List.mem_of_getElem? hlast.1) hname, nofun⟩
  · have hlast : Text.IsLastAt '/' (above ++ ['/'] ++ name) above.length :=
      Text.isLastAt_iff.2 ⟨above, name, by simp, hname, rfl⟩
    rw [List.length_append, List.length_singleton, Nat.add_right_cancel_iff]
    exact ⟨hlast.unique, fun hj => hj ▸ hlast⟩

theorem IsSplit.directory_eq_take (h : IsSplit path directory name) :
    directory = path.take directory.length := by
  rw [h.path_eq, List.take_left]

theorem existsUnique_isSplit (path : Text) :
    ∃! parts : Text × Text, IsSplit path parts.1 parts.2 := by
  obtain ⟨directory, name, h⟩ := exists_isSplit path
  refine ⟨(directory, name), h, ?_⟩
  rintro ⟨directory', name'⟩ (h' : IsSplit path directory' name')
  have hlength : directory'.length = directory.length := by
    cases hn : directory.length with
    | zero =>
        cases hn' : directory'.length with
        | zero => rfl
        | succ j => exact absurd (h.isLastAt_slash.1 (h'.isLastAt_slash.2 hn')) (by omega)
    | succ j => exact h'.isLastAt_slash.1 (h.isLastAt_slash.2 hn)
  have hdirectory : directory' = directory := by
    rw [h'.directory_eq_take, h.directory_eq_take, hlength]
  subst hdirectory
  rw [List.append_cancel_left (h'.path_eq.symm.trans h.path_eq)]

/-- Behind the same directory part any other name can stand. -/
theorem IsSplit.rename (h : IsSplit path directory name) {name' : Text} (hname : '/' ∉ name') :
    IsSplit (directory ++ name') directory name' :=
  ⟨rfl, h.directory_eq, hname⟩

/-! ## The cut of a name -/

theorem IsStem.eq_take (h : IsStem name stem) {i : Nat} (hpoint : Text.IsLastAt '.' name i) :
    stem = name.take i := by
  rcases h with ⟨hnone, -⟩ | ⟨extension, rfl, hextension⟩
  · exact absurd (List.mem_of_getElem? hpoint.1) hnone
  · have hlast : Text.IsLastAt '.' (stem ++ '.' :: extension) stem.length :=
      Text.isLastAt_iff.2 ⟨stem, extension, rfl, hextension, rfl⟩
    rw [← hlast.unique hpoint, List.take_left]

theorem existsUnique_isStem (name : Text) : ∃! stem, IsStem name stem := by
  by_cases hpoint : '.' ∈ name
  · obtain ⟨stem, extension, hname, hextension⟩ := Text.exists_eq_append_cons hpoint
    have hlast : Text.IsLastAt '.' name stem.length :=
      Text.isLastAt_iff.2 ⟨stem, extension, hname, hextension, rfl⟩
    refine ⟨stem, Or.inr ⟨extension, hname, hextension⟩, fun stem' h' => ?_⟩
    rw [h'.eq_take hlast, hname, List.take_left]
  · refine ⟨name, Or.inl ⟨hpoint, rfl⟩, ?_⟩
    rintro stem' (⟨-, rfl⟩ | ⟨extension, rfl, -⟩)
    · rfl
    · exact absurd (by simp) hpoint

theorem IsStem.subset (h : IsStem name stem) : stem ⊆ name := by
  rcases h with ⟨-, rfl⟩ | ⟨extension, rfl, -⟩
  · exact List.Subset.refl _
  · exact List.subset_append_left _ _

/-- The extension of output files has one point, in front. -/
theorem isStem_append_outputExtension (stem : Text) : IsStem (stem ++ outputExtension) stem :=
  Or.inr ⟨"ndjson".toList, rfl, by decide⟩

/-! ## The path of the output -/

/-- Where the last point stands behind the last slash, the extension begins. -/
theorem outputPath_of_isLastAt {i : Nat} (hpoint : Text.IsLastAt '.' path i)
    (hslash : ∀ j, Text.IsLastAt '/' path j → j < i) :
    outputPath path = path.take i ++ outputExtension := by
  rw [outputPath, Text.lastIndex?_eq_some_iff.2 hpoint]
  cases hlast : Text.lastIndex? '/' path with
  | none => rfl
  | some j => exact if_pos (hslash j (Text.lastIndex?_eq_some_iff.1 hlast))

/-- Where a slash stands behind the last point, or there is no point, the name has no
extension. -/
theorem outputPath_of_lt_slash (h : ∀ i, Text.IsLastAt '.' path i →
    ∃ j, Text.IsLastAt '/' path j ∧ i < j) : outputPath path = path ++ outputExtension := by
  rw [outputPath]
  cases hlast : Text.lastIndex? '.' path with
  | none => rfl
  | some i =>
      obtain ⟨j, hslash, hlt⟩ := h i (Text.lastIndex?_eq_some_iff.1 hlast)
      rw [Text.lastIndex?_eq_some_iff.2 hslash]
      exact if_neg (Nat.not_lt_of_gt hlt)

theorem IsSplit.outputPath_eq (h : IsSplit path directory name) (hstem : IsStem name stem) :
    outputPath path = directory ++ stem ++ outputExtension := by
  rcases hstem with ⟨hnone, rfl⟩ | ⟨extension, rfl, hextension⟩
  · rw [← h.path_eq]
    refine outputPath_of_lt_slash fun i hi => ?_
    -- a point of the path is one of the directory part, and a slash ends that
    have hlt : i < directory.length := by
      by_contra hge
      have hget := hi.1
      rw [h.path_eq, List.getElem?_append_right (Nat.le_of_not_lt hge)] at hget
      exact hnone (List.mem_of_getElem? hget)
    obtain ⟨j, hj⟩ := Nat.exists_eq_add_one_of_ne_zero (Nat.ne_of_gt (Nat.zero_lt_of_lt hlt))
    have hslash := h.isLastAt_slash.2 hj
    have hne : i ≠ j := by
      rintro rfl
      exact absurd (hi.1.symm.trans hslash.1) (by decide)
    exact ⟨j, hslash, by omega⟩
  · have hpath : path = (directory ++ stem) ++ '.' :: extension := by
      rw [h.path_eq, List.append_assoc]
    have hpoint : Text.IsLastAt '.' path (directory ++ stem).length :=
      Text.isLastAt_iff.2 ⟨_, extension, hpath, hextension, rfl⟩
    rw [outputPath_of_isLastAt hpoint, hpath, List.take_left]
    intro j hslash
    have hdirectory := h.isLastAt_slash.1 hslash
    rw [List.length_append]
    omega

theorem IsSplit.isSplit_outputPath (h : IsSplit path directory name) (hstem : IsStem name stem) :
    IsSplit (outputPath path) directory (stem ++ outputExtension) := by
  rw [h.outputPath_eq hstem, List.append_assoc]
  apply h.rename
  rw [List.mem_append, not_or]
  exact ⟨fun hslash => h.slash_notMem (hstem.subset hslash), by decide⟩

/-- A path that has the extension of output files is the path of its own output. -/
theorem outputPath_append_outputExtension (path : Text) :
    outputPath (path ++ outputExtension) = path ++ outputExtension := by
  obtain ⟨directory, name, h⟩ := exists_isSplit path
  have hsplit : IsSplit (path ++ outputExtension) directory (name ++ outputExtension) := by
    rw [h.path_eq, List.append_assoc]
    apply h.rename
    rw [List.mem_append, not_or]
    exact ⟨h.slash_notMem, by decide⟩
  rw [hsplit.outputPath_eq (isStem_append_outputExtension name), ← h.path_eq]

theorem outputExtension_suffix_outputPath (path : Text) : outputExtension <:+ outputPath path := by
  obtain ⟨directory, name, h⟩ := exists_isSplit path
  obtain ⟨stem, hstem, -⟩ := existsUnique_isStem name
  rw [h.outputPath_eq hstem]
  exact List.suffix_append _ _

theorem outputPath_eq_self_iff : outputPath path = path ↔ outputExtension <:+ path := by
  constructor
  · intro h
    rw [← h]
    exact outputExtension_suffix_outputPath path
  · rintro ⟨front, rfl⟩
    exact outputPath_append_outputExtension front

theorem outputPath_outputPath (path : Text) : outputPath (outputPath path) = outputPath path :=
  outputPath_eq_self_iff.2 (outputExtension_suffix_outputPath path)

end Naming

end IdsRules
