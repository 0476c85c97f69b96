import IdsRules.Rule.Header

/-!
# The grammar of rules

A rule text is seven header fields, each with a run of separators behind it, and
an option block in parentheses. `RuleText` is such a text taken apart, and
`RuleText.text` puts it together again; which texts are rules is said by
`RuleText.IsValid` without reading anything.

The main statement is that `Header.read?` finds a decomposition exactly when
there is one (`Header.read?_eq_some_iff`). Because reading is a function, there
is never more than one.
-/

namespace IdsRules

/-- A rule text taken apart. -/
structure RuleText where
  header : Header
  /-- The separators behind each field. -/
  gaps : List Text
  /-- The option block without its parentheses. -/
  block : Text
deriving DecidableEq, Repr

/-- Fields with a gap behind each, in front of a rest. -/
def weave : (fields gaps : List Text) → (rest : Text) → Text
  | field :: fields, gap :: gaps, rest => field ++ (gap ++ weave fields gaps rest)
  | _, _, rest => rest

@[simp] theorem weave_nil (rest : Text) : weave [] [] rest = rest := rfl

@[simp] theorem weave_cons (field gap : Text) (fields gaps : List Text) (rest : Text) :
    weave (field :: fields) (gap :: gaps) rest = field ++ (gap ++ weave fields gaps rest) := rfl

theorem weave_append (fields gaps : List Text) (rest rest' : Text) :
    weave fields gaps (rest ++ rest') = weave fields gaps rest ++ rest' := by
  induction fields generalizing gaps with
  | nil => rfl
  | cons field fields ih =>
    cases gaps with
    | nil => rfl
    | cons gap gaps => simp [ih]

namespace RuleText

def text (r : RuleText) : Text :=
  weave r.header.fields r.gaps ('(' :: (r.block ++ [')']))

/-- The parts have the forms that the grammar asks for. -/
structure IsValid (r : RuleText) : Prop where
  header_isValid : r.header.isValid = true
  length_gaps : r.gaps.length = 7
  isGap_of_mem : ∀ gap ∈ r.gaps, isGap gap = true
  block_ne_nil : r.block ≠ []
  lineFeed_not_mem : '\n' ∉ r.block

end RuleText

namespace Header

/-- A text that does not start with a separator. -/
def StartsInk (s : Text) : Prop :=
  ∀ c, s.head? = some c → isSeparator c = false

theorem isField_iff {s : Text} :
    isField s = true ↔ s ≠ [] ∧ ∀ c ∈ s, isSeparator c = false := by
  simp [isField]

theorem isGap_iff {s : Text} : isGap s = true ↔ s ≠ [] ∧ ∀ c ∈ s, isSeparator c = true := by
  simp [isGap]

theorem startsInk_of_isField {f : Text} (h : isField f = true) (rest : Text) :
    StartsInk (f ++ rest) := by
  obtain ⟨hne, hf⟩ := isField_iff.1 h
  cases f with
  | nil => exact absurd rfl hne
  | cons d f =>
    intro c hc
    simp only [List.cons_append, List.head?_cons, Option.some.injEq] at hc
    exact hc ▸ hf d (by simp)

/-- Separators in front of a text that does not start with one are dropped, and
no more. -/
theorem dropWhile_isSeparator {g rest : Text} (hg : ∀ c ∈ g, isSeparator c = true)
    (hr : StartsInk rest) : (g ++ rest).dropWhile isSeparator = rest := by
  rw [List.dropWhile_append_of_pos hg]
  cases rest with
  | nil => rfl
  | cons c rest => simp [hr c rfl]

theorem startsInk_dropWhile (s : Text) : StartsInk (s.dropWhile isSeparator) := by
  intro c hc
  have h := List.head?_dropWhile_not isSeparator s
  rw [hc] at h
  exact h

/-- One field and its gap are taken exactly when they are there. -/
theorem takeField?_eq_some_iff {s f rest : Text} :
    takeField? s = some (f, rest) ↔
      ∃ g, isField f = true ∧ isGap g = true ∧ StartsInk rest ∧ s = f ++ (g ++ rest) := by
  constructor
  · intro h
    simp only [takeField?] at h
    split at h
    · simp at h
    · rename_i hne
      simp only [not_or] at hne
      simp only [Option.some.injEq, Prod.mk.injEq] at h
      obtain ⟨rfl, rfl⟩ := h
      refine ⟨(s.dropWhile fun c => !isSeparator c).takeWhile isSeparator, ?_, ?_,
        startsInk_dropWhile _, ?_⟩
      · refine isField_iff.2 ⟨hne.1, fun c hc => ?_⟩
        simpa using List.all_eq_true.1 List.all_takeWhile c hc
      · refine isGap_iff.2 ⟨?_, fun c hc => List.all_eq_true.1 List.all_takeWhile c hc⟩
        have hd := List.head?_dropWhile_not (fun c => !isSeparator c) s
        cases hs : s.dropWhile fun c => !isSeparator c with
        | nil => exact absurd hs hne.2
        | cons d t =>
          rw [hs] at hd
          have hd' : isSeparator d = true := by simpa using hd
          simp [hd']
      · rw [List.takeWhile_append_dropWhile, List.takeWhile_append_dropWhile]
  · rintro ⟨g, hf, hg, hr, rfl⟩
    obtain ⟨hfne, hf⟩ := isField_iff.1 hf
    obtain ⟨hgne, hg⟩ := isGap_iff.1 hg
    have hf' : ∀ c ∈ f, (!isSeparator c) = true := fun c hc => by simp [hf c hc]
    have ht : (f ++ (g ++ rest)).takeWhile (fun c => !isSeparator c) = f := by
      rw [List.takeWhile_append_of_pos hf']
      cases g with
      | nil => exact absurd rfl hgne
      | cons d g => simp [hg d (by simp)]
    have hd : (f ++ (g ++ rest)).dropWhile (fun c => !isSeparator c) = g ++ rest := by
      rw [List.dropWhile_append_of_pos hf']
      cases g with
      | nil => exact absurd rfl hgne
      | cons d g => simp [hg d (by simp)]
    have hgr : g ++ rest ≠ [] := fun h => hgne (List.append_eq_nil_iff.1 h).1
    simp [takeField?, ht, hd, hfne, hgr, dropWhile_isSeparator hg hr]

/-- Woven fields do not start with a separator: the first of them does not, or
there is none and the rest does not. -/
theorem startsInk_weave {fields gaps : List Text} {rest : Text}
    (hl : gaps.length = fields.length) (hf : ∀ f ∈ fields, isField f = true)
    (hr : StartsInk rest) : StartsInk (weave fields gaps rest) := by
  cases fields with
  | nil =>
    rw [List.length_nil, List.length_eq_zero_iff] at hl
    subst hl
    exact hr
  | cons f fields =>
    obtain ⟨g, gaps, rfl⟩ := List.exists_cons_of_length_eq_add_one hl
    exact startsInk_of_isField (hf f (by simp)) _

/-- Fields are taken exactly when the text is those fields with gaps between
them, in front of what does not start with a separator. -/
theorem takeFields?_eq_some_iff {n : Nat} {s rest : Text} {fs : List Text} :
    takeFields? n s = some (fs, rest) ↔
      ∃ gs, gs.length = n ∧ fs.length = n ∧ (∀ f ∈ fs, isField f = true) ∧
        (∀ g ∈ gs, isGap g = true) ∧ (n ≠ 0 → StartsInk rest) ∧ s = weave fs gs rest := by
  induction n generalizing s fs with
  | zero =>
    simp only [takeFields?, Option.some.injEq, Prod.mk.injEq]
    constructor
    · rintro ⟨rfl, rfl⟩
      exact ⟨[], by simp⟩
    · rintro ⟨gs, hgs, hfs, -, -, -, h⟩
      rw [List.length_eq_zero_iff] at hgs hfs
      subst hgs; subst hfs
      exact ⟨rfl, h⟩
  | succ n ih =>
    simp only [takeFields?, Option.bind_eq_some_iff, Option.map_eq_some_iff, Prod.exists,
      Prod.mk.injEq]
    constructor
    · rintro ⟨f, t, hf, others, r, ho, rfl, rfl⟩
      obtain ⟨g, hfield, hgap, hink, rfl⟩ := takeField?_eq_some_iff.1 hf
      obtain ⟨gs, hgs, hfs, hfields, hgaps, hrest, rfl⟩ := ih.1 ho
      refine ⟨g :: gs, by simp [hgs], by simp [hfs], ?_, ?_, fun _ => ?_, by simp⟩
      · simpa using ⟨hfield, hfields⟩
      · simpa using ⟨hgap, hgaps⟩
      · by_cases hn : n = 0
        · subst hn
          rw [List.length_eq_zero_iff] at hgs hfs
          subst hgs; subst hfs
          exact hink
        · exact hrest hn
    · rintro ⟨gs, hgs, hfs, hfields, hgaps, hrest, rfl⟩
      obtain ⟨g, gs, rfl⟩ := List.exists_cons_of_length_eq_add_one hgs
      obtain ⟨f, fs, rfl⟩ := List.exists_cons_of_length_eq_add_one hfs
      simp only [List.length_cons, Nat.add_right_cancel_iff] at hgs hfs
      have hf : isField f = true := hfields f (by simp)
      have hg : isGap g = true := hgaps g (by simp)
      have hfields' : ∀ f ∈ fs, isField f = true := fun f' h => hfields f' (by simp [h])
      have hgaps' : ∀ g ∈ gs, isGap g = true := fun g' h => hgaps g' (by simp [h])
      have hink : StartsInk (weave fs gs rest) :=
        startsInk_weave (hgs.trans hfs.symm) hfields' (hrest (by simp))
      refine ⟨f, weave fs gs rest, takeField?_eq_some_iff.2 ⟨g, hf, hg, hink, rfl⟩, fs, rest, ?_,
        rfl, rfl⟩
      exact ih.2 ⟨gs, hgs, hfs, hfields', hgaps', fun _ => hrest (by simp), rfl⟩

theorem isField_of_isWord {s : Text} (h : isWord s = true) : isField s = true := by
  simp only [isWord, Bool.and_eq_true, Bool.not_eq_true', List.all_eq_true] at h
  refine isField_iff.2 ⟨by simpa using h.1, fun c hc => ?_⟩
  have hw := h.2 c hc
  cases hs : isSeparator c with
  | false => rfl
  | true =>
    simp only [isSeparator, Bool.or_eq_true, beq_iff_eq] at hs
    rcases hs with (((rfl | rfl) | rfl) | rfl) | rfl <;> exact absurd hw (by decide)

theorem isField_of_mem_directions {s : Text} (h : s ∈ directions) : isField s = true := by
  simp only [directions, List.mem_cons, List.not_mem_nil, or_false] at h
  rcases h with rfl | rfl | rfl | rfl <;> decide

/-- All seven fields of a valid header are free of separators. -/
theorem isField_of_mem_fields {h : Header} (hv : h.isValid = true) :
    ∀ f ∈ h.fields, isField f = true := by
  simp only [isValid, Bool.and_eq_true, List.contains_iff_mem] at hv
  obtain ⟨⟨⟨⟨⟨⟨h₁, h₂⟩, h₃⟩, h₄⟩, h₅⟩, h₆⟩, h₇⟩ := hv
  simp only [fields, List.mem_cons, List.not_mem_nil, or_false]
  rintro f (rfl | rfl | rfl | rfl | rfl | rfl | rfl)
  · exact isField_of_isWord h₁
  · exact isField_of_isWord h₂
  · exact h₃
  · exact h₄
  · exact isField_of_mem_directions h₅
  · exact h₆
  · exact h₇

theorem block?_eq_some_iff {s block : Text} :
    block? s = some block ↔ s = '(' :: (block ++ [')']) ∧ block ≠ [] ∧ '\n' ∉ block := by
  simp only [block?, Option.bind_eq_some_iff, Text.between?_eq_some_iff]
  constructor
  · rintro ⟨b, rfl, hb⟩
    split at hb
    · simp at hb
    · rename_i hne
      simp only [not_or] at hne
      cases hb
      exact ⟨rfl, hne⟩
  · rintro ⟨rfl, h₁, h₂⟩
    exact ⟨block, rfl, by simp [h₁, h₂]⟩

/-- A text is read as a header and a block exactly when it is a rule text with
these parts. -/
theorem read?_eq_some_iff {s : Text} {header : Header} {block : Text} :
    read? s = some (header, block) ↔
      ∃ gaps, RuleText.IsValid ⟨header, gaps, block⟩ ∧
        s = RuleText.text ⟨header, gaps, block⟩ := by
  simp only [read?, Option.bind_eq_some_iff, Option.map_eq_some_iff, Prod.mk.injEq, Prod.exists]
  constructor
  · rintro ⟨fs, rest, hf, h, hh, b, hb, rfl, rfl⟩
    obtain ⟨gaps, hgl, -, -, hgaps, -, rfl⟩ := takeFields?_eq_some_iff.1 hf
    obtain ⟨rfl, hv⟩ := ofFields?_eq_some_iff.1 hh
    obtain ⟨rfl, hne, hlf⟩ := block?_eq_some_iff.1 hb
    exact ⟨gaps, ⟨hv, hgl, hgaps, hne, hlf⟩, rfl⟩
  · rintro ⟨gaps, hv, rfl⟩
    refine ⟨header.fields, '(' :: (block ++ [')']), ?_, header,
      ofFields?_eq_some_iff.2 ⟨rfl, hv.header_isValid⟩, block,
      block?_eq_some_iff.2 ⟨rfl, hv.block_ne_nil, hv.lineFeed_not_mem⟩, rfl, rfl⟩
    refine takeFields?_eq_some_iff.2 ⟨gaps, hv.length_gaps, rfl,
      isField_of_mem_fields hv.header_isValid, hv.isGap_of_mem, fun _ c hc => ?_, rfl⟩
    simp only [List.head?_cons, Option.some.injEq] at hc
    subst hc
    decide

end Header

end IdsRules
