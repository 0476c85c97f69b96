import Mathlib.Data.List.Infix
import IdsRules.CommandLine.Grammar

/-!
# What one argument is

The classification of an argument against its grammar. A use of a switch is
taken apart first: without an argument of its own it is the beginning of a
spelling, and there are so few of these that they can be gone through one by
one. An argument behind an equals sign does not change which switch is meant.
-/

namespace IdsRules.CommandLine

open Switch (spellings)

namespace Word

/-! ## Equals signs -/

theorem splitEquals_of_not_mem {s : Text} (h : '=' ∉ s) : splitEquals s = (s, none) := by
  rw [splitEquals, Text.cut?_eq_none_iff.2 h]

theorem splitEquals_append {b : Text} (h : '=' ∉ b) (a : Text) :
    splitEquals (b ++ '=' :: a) = (b, some a) := by
  rw [splitEquals, Text.cut?_eq_some_iff.2 ⟨rfl, h⟩]

/-- A text has an equals sign or has none, and is split in front of the first. -/
theorem splitEquals_cases (s : Text) :
    '=' ∉ s ∨ ∃ b a, s = b ++ '=' :: a ∧ '=' ∉ b := by
  cases hcut : Text.cut? '=' s with
  | none => exact .inl (Text.cut?_eq_none_iff.1 hcut)
  | some parts => exact .inr ⟨parts.1, parts.2, Text.cut?_eq_some_iff.1 hcut⟩

theorem equals_not_mem_spelling : ∀ entry ∈ spellings, '=' ∉ entry.1 := by decide

def carrying (a : Text) (u : SwitchUse) : SwitchUse :=
  { u with attached := some a }

theorem ofSpelling?_eq_some_iff {s : Text} {switch : Switch} :
    Switch.ofSpelling? s = some switch ↔ (s, switch) ∈ spellings := by
  constructor
  · intro h
    obtain ⟨entry, hfind, rfl⟩ := Option.map_eq_some_iff.1 h
    have hs := List.find?_some hfind
    rw [← eq_of_beq hs]
    exact List.mem_of_find?_eq_some hfind
  · have hall : ∀ entry ∈ spellings, Switch.ofSpelling? entry.1 = some entry.2 := by decide
    exact hall (s, switch)

theorem ofSpelling?_append (b a : Text) : Switch.ofSpelling? (b ++ '=' :: a) = none := by
  rw [Option.eq_none_iff_forall_ne_some]
  intro switch h
  exact equals_not_mem_spelling _ (ofSpelling?_eq_some_iff.1 h) (by simp)

theorem fullUse?_of_not_mem {s : Text} (h : '=' ∉ s) :
    fullUse? s = (Switch.ofSpelling? s).map fun switch => ⟨switch, s, none⟩ := by
  rw [fullUse?, splitEquals_of_not_mem h]
  cases Switch.ofSpelling? s <;> rfl

theorem fullUse?_append {b : Text} (h : '=' ∉ b) (a : Text) :
    fullUse? (b ++ '=' :: a) = (fullUse? b).map (carrying a) := by
  rw [fullUse?_of_not_mem h]
  simp [fullUse?, ofSpelling?_append, splitEquals_append h, carrying, Function.comp_def]

theorem longCandidates_append {b : Text} (h : '=' ∉ b) (a : Text) :
    longCandidates (b ++ '=' :: a) = (longCandidates b).map (carrying a) := by
  rw [longCandidates, longCandidates, splitEquals_append h, splitEquals_of_not_mem h,
    List.map_filterMap]
  apply List.filterMap_congr
  intro entry _
  cases b.isPrefixOf entry.1 <;> rfl

/-! ## Uses of switches -/

theorem classify_eq_use_iff {s : Text} {u : SwitchUse} :
    classify s = .ok (.use u) ↔ s.head? = some '-' ∧ s ≠ ['-'] ∧
      (fullUse? s = some u ∨ fullUse? s = none ∧ candidates s = [u]) := by
  rw [classify]
  by_cases hoperand : s.head? ≠ some '-' ∨ s = ['-']
  · rw [if_pos hoperand]
    refine ⟨nofun, fun h => ?_⟩
    rcases hoperand with hhead | hdash
    · exact absurd h.1 hhead
    · exact absurd hdash h.2.1
  · rw [if_neg hoperand]
    rw [not_or, not_not] at hoperand
    simp only [hoperand, ne_eq, not_false_eq_true, true_and]
    cases fullUse? s with
    | some v => simp
    | none =>
        simp only [reduceCtorEq, true_and, false_or]
        split
        next v hv => simp [hv]
        next hnone =>
          rw [hnone]
          split <;> exact ⟨nofun, nofun⟩
        next hother hmany =>
          refine ⟨nofun, fun h => absurd h (hother u)⟩

theorem of_fullUse? {s : Text} {u : SwitchUse} (hs : '=' ∉ s) (h : fullUse? s = some u) :
    (u.spelling, u.switch) ∈ spellings ∧ u.spelling = s ∧ u.attached = none := by
  rw [fullUse?_of_not_mem hs, Option.map_eq_some_iff] at h
  obtain ⟨switch, hswitch, rfl⟩ := h
  exact ⟨ofSpelling?_eq_some_iff.1 hswitch, rfl, rfl⟩

theorem of_mem_longCandidates {s : Text} {u : SwitchUse} (hs : '=' ∉ s)
    (h : u ∈ longCandidates s) :
    (u.spelling, u.switch) ∈ spellings ∧ s <+: u.spelling ∧ u.attached = none := by
  rw [longCandidates, splitEquals_of_not_mem hs] at h
  obtain ⟨entry, hentry, h⟩ := List.mem_filterMap.1 h
  obtain ⟨hbegins, ⟨⟩⟩ := Option.ite_none_right_eq_some.1 h
  exact ⟨hentry, List.isPrefixOf_iff_prefix.1 hbegins, rfl⟩

theorem of_mem_shortCandidates {s : Text} {u : SwitchUse} (h : u ∈ shortCandidates s) :
    (u.spelling, u.switch) ∈ spellings ∧
      (s <+: u.spelling ∧ u.attached = none ∨
        u.spelling = s.take 2 ∧ u.attached = some (s.drop 2)) := by
  obtain ⟨entry, hentry, h⟩ := List.mem_filterMap.1 h
  split at h
  next hletter =>
    cases h
    exact ⟨hentry, .inr ⟨hletter, rfl⟩⟩
  next =>
    obtain ⟨hbegins, ⟨⟩⟩ := Option.ite_none_right_eq_some.1 h
    exact ⟨hentry, .inl ⟨List.isPrefixOf_iff_prefix.1 hbegins, rfl⟩⟩

theorem candidates_of_long {s : Text} (h : "--".toList.isPrefixOf s = true) :
    candidates s = longCandidates s :=
  if_pos h

/-- An argument with two dashes has them in front of its equals sign. -/
theorem isLong_of_append {b a : Text} (h : "--".toList.isPrefixOf (b ++ '=' :: a) = true) :
    "--".toList.isPrefixOf b = true := by
  match b, h with
  | [], h => exact absurd h (by simp)
  | [c], h => exact absurd h (by simp)
  | c :: d :: b, h => simpa using h

theorem isDashed_of_long {s : Text} (h : "--".toList.isPrefixOf s = true) :
    s.head? = some '-' ∧ s ≠ ['-'] := by
  obtain ⟨rest, rfl⟩ := List.isPrefixOf_iff_prefix.1 h
  exact ⟨rfl, by simp⟩

theorem isDashed_spelling :
    ∀ entry ∈ spellings, entry.1.head? = some '-' ∧ entry.1 ≠ ['-'] ∧ 2 ≤ entry.1.length := by
  decide

theorem fullUse?_spelling {u : SwitchUse} (h : (u.spelling, u.switch) ∈ spellings) :
    fullUse? u.spelling = some ⟨u.switch, u.spelling, none⟩ := by
  rw [fullUse?, ofSpelling?_eq_some_iff.2 h]

/-- What stands behind a switch of one letter neither is empty nor begins with an equals
sign, since the switch would be written in full then. -/
theorem of_letter {s : Text} {u : SwitchUse} (hu : (u.spelling, u.switch) ∈ spellings)
    (hletter : u.spelling = s.take 2) (hnone : fullUse? s = none) :
    s = u.spelling ++ s.drop 2 ∧ s.drop 2 ≠ [] ∧ (s.drop 2).head? ≠ some '=' ∧
      u.spelling.length = 2 := by
  have hs : s = u.spelling ++ s.drop 2 := by rw [hletter, List.take_append_drop]
  refine ⟨hs, fun hempty => ?_, fun hequals => ?_, ?_⟩
  · rw [hempty, List.append_nil] at hs
    rw [hs, fullUse?_spelling hu] at hnone
    cases hnone
  · obtain ⟨rest, hrest⟩ := List.head?_eq_some_iff.1 hequals
    rw [hs, hrest, fullUse?_append (equals_not_mem_spelling _ hu), fullUse?_spelling hu] at hnone
    cases hnone
  · have hle : u.spelling.length ≤ 2 := by
      rw [hletter]
      exact List.length_take_le 2 s
    exact Nat.le_antisymm hle (isDashed_spelling _ hu).2.2

/-- A use without an argument is written as the beginning of its spelling, and one with an
argument has it behind an equals sign or behind a switch of one letter. -/
theorem of_classify_eq_use {s : Text} {u : SwitchUse} (h : classify s = .ok (.use u)) :
    (u.spelling, u.switch) ∈ spellings ∧
      match u.attached with
      | none => s <+: u.spelling
      | some a =>
        (∃ b, s = b ++ '=' :: a ∧ classify b = .ok (.use { u with attached := none })) ∨
          s = u.spelling ++ a ∧ a ≠ [] ∧ a.head? ≠ some '=' ∧ u.spelling.length = 2 := by
  obtain ⟨hhead, hdash, hfull | ⟨hnone, hcandidates⟩⟩ := classify_eq_use_iff.1 h
  · rcases splitEquals_cases s with hs | ⟨b, a, rfl, hb⟩
    · obtain ⟨hu, hspelling, hattached⟩ := of_fullUse? hs hfull
      rw [hattached]
      exact ⟨hu, hspelling ▸ List.prefix_rfl⟩
    · rw [fullUse?_append hb, Option.map_eq_some_iff] at hfull
      obtain ⟨⟨switch, spelling, attached⟩, hfull, rfl⟩ := hfull
      obtain ⟨hu, rfl, rfl⟩ := of_fullUse? hb hfull
      obtain ⟨hhead, hdash, -⟩ := isDashed_spelling _ hu
      exact ⟨hu, .inl ⟨_, rfl, classify_eq_use_iff.2 ⟨hhead, hdash, .inl hfull⟩⟩⟩
  · by_cases hlong : "--".toList.isPrefixOf s = true
    · rw [candidates_of_long hlong] at hcandidates
      rcases splitEquals_cases s with hs | ⟨b, a, rfl, hb⟩
      · obtain ⟨hu, hbegins, hattached⟩ := of_mem_longCandidates hs (u := u) (by simp [hcandidates])
        rw [hattached]
        exact ⟨hu, hbegins⟩
      · rw [longCandidates_append hb, List.map_eq_singleton_iff] at hcandidates
        obtain ⟨⟨switch, spelling, attached⟩, hcandidates, rfl⟩ := hcandidates
        obtain ⟨hu, -, rfl⟩ := of_mem_longCandidates hb
          (u := ⟨switch, spelling, attached⟩) (by simp [hcandidates])
        have hlong' := isLong_of_append hlong
        rw [fullUse?_append hb, Option.map_eq_none_iff] at hnone
        obtain ⟨hhead, hdash⟩ := isDashed_of_long hlong'
        refine ⟨hu, .inl ⟨b, rfl, classify_eq_use_iff.2 ⟨hhead, hdash, .inr ⟨hnone, ?_⟩⟩⟩⟩
        rw [candidates_of_long hlong', hcandidates]
        rfl
    · have hmem : u ∈ shortCandidates s := by
        rw [candidates, if_neg hlong] at hcandidates
        simp [hcandidates]
      obtain ⟨hu, ⟨hbegins, hattached⟩ | ⟨hletter, hattached⟩⟩ := of_mem_shortCandidates hmem
      · rw [hattached]
        exact ⟨hu, hbegins⟩
      · rw [hattached]
        exact ⟨hu, .inr (of_letter hu hletter hnone)⟩

/-- The beginnings of spellings that are neither long nor in full are too short to be a
use of anything. -/
theorem isLong_of_beginning : ∀ entry ∈ spellings, ∀ b ∈ entry.1.inits, b.head? = some '-' →
    b ≠ ['-'] → fullUse? b = none → "--".toList.isPrefixOf b = true := by
  decide +kernel

/-- Behind an equals sign, the argument of a use that has none otherwise. -/
theorem classify_append {b : Text} {u : SwitchUse} (h : classify b = .ok (.use u))
    (hu : u.attached = none) (a : Text) :
    classify (b ++ '=' :: a) = .ok (.use (carrying a u)) := by
  have huse := of_classify_eq_use h
  rw [hu] at huse
  obtain ⟨hspelling, hbegins⟩ := huse
  have hb : '=' ∉ b := fun hmem => equals_not_mem_spelling _ hspelling (hbegins.subset hmem)
  obtain ⟨hhead, hdash, hfound⟩ := classify_eq_use_iff.1 h
  obtain ⟨rest, rfl⟩ := List.head?_eq_some_iff.1 hhead
  refine classify_eq_use_iff.2 ⟨rfl, by simp, ?_⟩
  rcases hfound with hfull | ⟨hnone, hcandidates⟩
  · exact .inl (by rw [fullUse?_append hb, hfull]; rfl)
  · have hlong := isLong_of_beginning _ hspelling _ ((List.mem_inits _ _).2 hbegins) hhead hdash hnone
    have hlong' : "--".toList.isPrefixOf (('-' :: rest) ++ '=' :: a) = true :=
      List.isPrefixOf_iff_prefix.2
        ((List.isPrefixOf_iff_prefix.1 hlong).trans (List.prefix_append _ _))
    rw [candidates_of_long hlong] at hcandidates
    refine .inr ⟨by rw [fullUse?_append hb, hnone]; rfl, ?_⟩
    rw [candidates_of_long hlong', longCandidates_append hb, hcandidates]
    rfl

/-- Behind the letter of the output, anything is its argument that leaves the letter a
beginning. -/
theorem classify_letter {v : Text} (hne : v ≠ []) (hequals : v.head? ≠ some '=') :
    classify ("-o".toList ++ v) = .ok (.use ⟨.output, "-o".toList, some v⟩) := by
  obtain ⟨c, rest, rfl⟩ := List.exists_cons_of_ne_nil hne
  have hc : c ≠ '=' := fun hc => hequals (congrArg some hc)
  have hcut : Text.cut? '=' ("-o".toList ++ c :: rest) =
      (Text.cut? '=' rest).map fun parts => ('-' :: 'o' :: c :: parts.1, parts.2) := by
    simp [Text.cut?, hc, Function.comp_def]
  refine classify_eq_use_iff.2 ⟨rfl, by simp, .inr ⟨?_, rfl⟩⟩
  rw [fullUse?, splitEquals, hcut]
  cases Text.cut? '=' rest <;> rfl

/-! ## Ways to write a switch -/

theorem mem_spellings_of_way : ∀ way ∈ Switch.ways, (way.full, way.switch) ∈ spellings := by
  decide

/-- There are few beginnings of spellings, and of each it can be seen which uses it is. -/
theorem writes_iff_of_beginning : ∀ entry ∈ spellings, ∀ s ∈ entry.1.inits,
    entry.2.Writes s ↔ classify s = .ok (.use ⟨entry.2, entry.1, none⟩) := by
  decide +kernel

theorem writes_iff {switch : Switch} {s : Text} :
    switch.Writes s ↔ ∃ spelling, classify s = .ok (.use ⟨switch, spelling, none⟩) := by
  constructor
  · rintro ⟨way, hway, rfl, hlong, hbegins⟩
    exact ⟨way.full, (writes_iff_of_beginning _ (mem_spellings_of_way way hway) s
      ((List.mem_inits _ _).2 hbegins)).1 ⟨way, hway, rfl, hlong, hbegins⟩⟩
  · rintro ⟨spelling, h⟩
    obtain ⟨hspelling, hbegins⟩ := of_classify_eq_use h
    exact (writes_iff_of_beginning _ hspelling s ((List.mem_inits _ _).2 hbegins)).2 h

/-! ## Operands -/

theorem not_mem_of_digits {digits : Text} (h : ∀ c ∈ digits, Text.isDecimalDigit c = true) :
    '.' ∉ digits ∧ '\n' ∉ digits :=
  ⟨fun hmem => absurd (h _ hmem) (by decide), fun hmem => absurd (h _ hmem) (by decide)⟩

theorem isNegativeNumber_iff {s : Text} : isNegativeNumber s = true ↔ IsNegativeNumber s := by
  constructor
  · intro h
    obtain ⟨feed, hfeed, hs⟩ := Text.exists_eq_chomp_append s
    rw [isNegativeNumber] at h
    cases hchomp : Text.chomp s with
    | nil =>
        rw [hchomp] at h
        cases h
    | cons c rest =>
        rw [hchomp] at h hs
        dsimp only at h
        rw [Bool.and_eq_true, beq_iff_eq] at h
        obtain ⟨rfl, h⟩ := h
        cases hcut : Text.cut? '.' rest with
        | none =>
            simp only [hcut, Bool.and_eq_true, Bool.not_eq_true', List.isEmpty_eq_false_iff,
              List.all_eq_true] at h
            exact ⟨rest, [], feed, by simp [hs], h.2, .inl ⟨h.1, rfl⟩, hfeed⟩
        | some parts =>
            obtain ⟨whole, fraction⟩ := parts
            obtain ⟨rfl, -⟩ := Text.cut?_eq_some_iff.1 hcut
            simp only [hcut, Bool.and_eq_true, Bool.not_eq_true', List.isEmpty_eq_false_iff,
              List.all_eq_true] at h
            obtain ⟨hwhole, hne, hfraction⟩ := h
            obtain ⟨c, digits, rfl⟩ := List.exists_cons_of_ne_nil hne
            exact ⟨whole, '.' :: c :: digits, feed, by simp [hs], hwhole,
              .inr ⟨c, digits, rfl, hfraction⟩, hfeed⟩
  · rintro ⟨whole, fraction, feed, rfl, hwhole, hfraction, hfeed⟩
    have hchomp : Text.chomp ('-' :: (whole ++ fraction ++ feed)) = '-' :: (whole ++ fraction) := by
      have hnot : '\n' ∉ '-' :: (whole ++ fraction) := by
        rcases hfraction with ⟨-, rfl⟩ | ⟨c, digits, rfl, hdigits⟩
        · simp [(not_mem_of_digits hwhole).2]
        · have := (not_mem_of_digits hdigits).2
          simp_all [(not_mem_of_digits hwhole).2]
      exact Text.chomp_append hnot hfeed
    rw [isNegativeNumber, hchomp]
    rcases hfraction with ⟨hne, rfl⟩ | ⟨c, digits, rfl, hdigits⟩
    · simpa [Text.cut?_eq_none_iff.2 (not_mem_of_digits hwhole).1, hne] using hwhole
    · simpa [Text.cut?_eq_some_iff.2 ⟨rfl, (not_mem_of_digits hwhole).1⟩] using
        And.intro hwhole (List.forall_mem_cons.1 hdigits)

theorem spelling_cases : ∀ entry ∈ spellings, entry.1 = "-h".toList ∨ entry.1 = "-o".toList ∨
    "--".toList <+: entry.1 ∧ entry.1 ∈ longSpellings := by
  decide

theorem mem_spellings_of_long :
    ∀ spelling ∈ longSpellings, spelling ∈ spellings.map Prod.fst := by
  decide

theorem beginsLikeSwitch_of_long {s b : Text} (hb : "--".toList <+: b)
    (hs : s = b ∨ ∃ a, s = b ++ '=' :: a) {entry : Text × Switch} (hentry : entry ∈ spellings)
    (hbegins : b <+: entry.1) : BeginsLikeSwitch s := by
  have hlong : "--".toList <+: entry.1 := hb.trans hbegins
  rcases spelling_cases entry hentry with h | h | ⟨-, h⟩
  · exact absurd hlong (by rw [h]; decide)
  · exact absurd hlong (by rw [h]; decide)
  · exact .inr (.inr ⟨b, entry.1, hb, h, hbegins, hs⟩)

theorem beginsLikeSwitch_of_fullUse? {s : Text} {u : SwitchUse} (h : fullUse? s = some u) :
    BeginsLikeSwitch s := by
  obtain ⟨b, switch, hb, hs⟩ : ∃ b switch, (b, switch) ∈ spellings ∧
      (s = b ∨ ∃ a, s = b ++ '=' :: a) := by
    rcases splitEquals_cases s with hs | ⟨b, a, rfl, hb⟩
    · obtain ⟨hspelling, rfl, -⟩ := of_fullUse? hs h
      exact ⟨_, _, hspelling, .inl rfl⟩
    · rw [fullUse?_append hb, Option.map_eq_some_iff] at h
      obtain ⟨v, hv, -⟩ := h
      obtain ⟨hspelling, rfl, -⟩ := of_fullUse? hb hv
      exact ⟨_, _, hspelling, .inr ⟨a, rfl⟩⟩
  have hprefix : b <+: s := by
    rcases hs with rfl | ⟨a, rfl⟩
    · exact List.prefix_rfl
    · exact List.prefix_append _ _
  rcases spelling_cases _ hb with rfl | rfl | ⟨hlong, -⟩
  · exact .inl hprefix
  · exact .inr (.inl hprefix)
  · exact beginsLikeSwitch_of_long hlong hs hb List.prefix_rfl

theorem candidates_ne_nil_of_letter {s : Text} (h : "-h".toList <+: s ∨ "-o".toList <+: s) :
    candidates s ≠ [] := by
  rcases h with ⟨rest, rfl⟩ | ⟨rest, rfl⟩
  · exact List.ne_nil_of_mem
      (List.mem_filterMap.2 ⟨("-h".toList, .help), by decide, if_pos rfl⟩)
  · exact List.ne_nil_of_mem
      (List.mem_filterMap.2 ⟨("-o".toList, .output), by decide, if_pos rfl⟩)

theorem longCandidates_ne_nil {b : Text} (hb : '=' ∉ b) {entry : Text × Switch}
    (hentry : entry ∈ spellings) (hbegins : b <+: entry.1) : longCandidates b ≠ [] := by
  rw [longCandidates, splitEquals_of_not_mem hb]
  exact List.ne_nil_of_mem
    (List.mem_filterMap.2 ⟨entry, hentry, if_pos (List.isPrefixOf_iff_prefix.2 hbegins)⟩)

theorem beginsLikeSwitch_of_candidates {s : Text} {u : SwitchUse} (hhead : s.head? = some '-')
    (hdash : s ≠ ['-']) (hnone : fullUse? s = none) (hu : u ∈ candidates s) :
    BeginsLikeSwitch s := by
  by_cases hlong : "--".toList.isPrefixOf s = true
  · rw [candidates_of_long hlong] at hu
    rcases splitEquals_cases s with hs | ⟨b, a, rfl, hb⟩
    · obtain ⟨hspelling, hbegins, -⟩ := of_mem_longCandidates hs hu
      exact beginsLikeSwitch_of_long (List.isPrefixOf_iff_prefix.1 hlong) (.inl rfl) hspelling hbegins
    · rw [longCandidates_append hb] at hu
      obtain ⟨v, hv, -⟩ := List.mem_map.1 hu
      obtain ⟨hspelling, hbegins, -⟩ := of_mem_longCandidates hb hv
      exact beginsLikeSwitch_of_long (List.isPrefixOf_iff_prefix.1 (isLong_of_append hlong))
        (.inr ⟨a, rfl⟩) hspelling hbegins
  · rw [candidates, if_neg hlong] at hu
    obtain ⟨hspelling, ⟨hbegins, -⟩ | ⟨hletter, -⟩⟩ := of_mem_shortCandidates hu
    · exact absurd (isLong_of_beginning _ hspelling _ ((List.mem_inits _ _).2 hbegins) hhead hdash
        hnone) hlong
    · have hprefix : u.spelling <+: s := by
        rw [hletter]
        exact List.take_prefix 2 s
      rcases spelling_cases _ hspelling with h | h | ⟨h, -⟩
      · exact .inl (h ▸ hprefix)
      · exact .inr (.inl (h ▸ hprefix))
      · exact absurd (List.isPrefixOf_iff_prefix.2 (h.trans hprefix)) hlong

/-- An argument with a dash that is no use of a switch in full begins like one exactly if it
may abbreviate one. -/
theorem beginsLikeSwitch_iff {s : Text} (hhead : s.head? = some '-') (hdash : s ≠ ['-'])
    (hnone : fullUse? s = none) : BeginsLikeSwitch s ↔ candidates s ≠ [] := by
  constructor
  · rintro (hbegins | hbegins | ⟨b, spelling, hb, hspelling, hbegins, hs⟩)
    · exact candidates_ne_nil_of_letter (.inl hbegins)
    · exact candidates_ne_nil_of_letter (.inr hbegins)
    · obtain ⟨entry, hentry, rfl⟩ := List.mem_map.1 (mem_spellings_of_long spelling hspelling)
      have hequals : '=' ∉ b := fun hmem => equals_not_mem_spelling _ hentry (hbegins.subset hmem)
      have hlong := longCandidates_ne_nil hequals hentry hbegins
      rcases hs with rfl | ⟨a, rfl⟩
      · rwa [candidates_of_long (List.isPrefixOf_iff_prefix.2 hb)]
      · rw [candidates_of_long (List.isPrefixOf_iff_prefix.2 (hb.trans (List.prefix_append _ _))),
          longCandidates_append hequals]
        simpa using hlong
  · intro hne
    obtain ⟨u, hu⟩ := List.exists_mem_of_ne_nil _ hne
    exact beginsLikeSwitch_of_candidates hhead hdash hnone hu

theorem classify_eq_operand_iff {s t : Text} :
    classify s = .ok (.operand t) ↔ t = s ∧ IsOperand s := by
  rw [classify, IsOperand]
  by_cases hoperand : s.head? ≠ some '-' ∨ s = ['-']
  · rw [if_pos hoperand, ← or_assoc]
    simp [hoperand, eq_comm]
  · rw [if_neg hoperand, ← or_assoc, or_iff_right hoperand]
    rw [not_or, not_not] at hoperand
    cases hfull : fullUse? s with
    | some u =>
        exact ⟨nofun, fun h => absurd (beginsLikeSwitch_of_fullUse? hfull) h.2.2⟩
    | none =>
        dsimp only
        rw [beginsLikeSwitch_iff hoperand.1 hoperand.2 hfull, ← isNegativeNumber_iff]
        split
        next u hu => simp [hu]
        next hnil =>
          split
          next h =>
            constructor
            · rintro ⟨⟩
              exact ⟨rfl, h, fun hne => hne hnil⟩
            · rintro ⟨rfl, -⟩
              rfl
          next h => simp [h]
        next hone hnil => exact ⟨nofun, fun h => absurd (not_not.1 h.2.2) hnil⟩

/-! ## All arguments -/

theorem ne_terminator_of_classify {s : Text} {word : Word} (h : classify s = .ok word) :
    s ≠ "--".toList ∧ word ≠ .terminator := by
  constructor
  · rintro rfl
    have hnone : (classify "--".toList).toOption = none := by decide +kernel
    rw [h] at hnone
    cases hnone
  · rintro rfl
    rw [classify] at h
    repeat' split at h
    all_goals cases h

theorem classifyAll_cons {s : Text} {word : Word} (h : classify s = .ok word) {rest : List Text}
    {words : List Word} (hrest : classifyAll rest = .ok words) :
    classifyAll (s :: rest) = .ok (word :: words) := by
  rw [classifyAll, if_neg (ne_terminator_of_classify h).1, h, hrest]

theorem classifyAll_cons_eq_ok {s : Text} {rest : List Text} {words : List Word}
    (h : classifyAll (s :: rest) = .ok words) :
    s = "--".toList ∧ words = .terminator :: rest.map .operand ∨
      ∃ word words', classify s = .ok word ∧ classifyAll rest = .ok words' ∧
        words = word :: words' := by
  rw [classifyAll] at h
  split at h
  next hs =>
    cases h
    exact .inl ⟨hs, rfl⟩
  next =>
    split at h
    next => cases h
    next word hword =>
      split at h
      next => cases h
      next words' hwords =>
        cases h
        exact .inr ⟨word, words', hword, hwords, rfl⟩

/-- Behind a terminator, all arguments are operands. -/
theorem of_head?_terminator {rest : List Text} {words : List Word}
    (hwords : classifyAll rest = .ok words) (h : words.head? = some .terminator) :
    ∃ rest', rest = "--".toList :: rest' ∧ words = .terminator :: rest'.map .operand := by
  cases rest with
  | nil =>
      cases hwords
      cases h
  | cons s rest =>
      rcases classifyAll_cons_eq_ok hwords with ⟨rfl, rfl⟩ | ⟨word, words', hword, -, rfl⟩
      · exact ⟨rest, rfl, rfl⟩
      · exact absurd (Option.some.inj h) (ne_terminator_of_classify hword).2

/-- An operand comes first among the words exactly if it does among the arguments. -/
theorem of_nextOperand? {rest : List Text} {words : List Word} {v : Text}
    (hwords : classifyAll rest = .ok words) (h : Reading.nextOperand? words = some v) :
    ∃ rest' words', rest = v :: rest' ∧ IsOperand v ∧ classifyAll rest' = .ok words' ∧
      words = .operand v :: words' := by
  cases rest with
  | nil =>
      cases hwords
      cases h
  | cons s rest =>
      rcases classifyAll_cons_eq_ok hwords with ⟨-, rfl⟩ | ⟨word, words', hword, hwords', rfl⟩
      · cases h
      · cases word with
        | operand t =>
            cases h
            obtain ⟨rfl, hv⟩ := classify_eq_operand_iff.1 hword
            exact ⟨rest, words', rfl, hv, hwords', rfl⟩
        | terminator | use _ | unknown _ => cases h

end Word

end IdsRules.CommandLine
