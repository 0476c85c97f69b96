import IdsRules.Conversion.Settings
import IdsRules.Rule.Parser
import IdsRules.Rule.Grammar

/-!
# A rule text is taken apart in one way

The grammar says which texts are rules, and reading says what a line holds. Here
the two are put side by side: a line is malformed exactly when its trimmed text
is not made up of the parts of a rule, and otherwise it is made up of them in
one way only, so the header and the options that are read are those parts.

Reading is a function, which settles the fields and the option block. What is
left is the separators: with the fields known, every gap ends where the next
field starts.
-/

namespace IdsRules

namespace Header

/-- With the same fields, woven texts have the same gaps. A gap is cut off at
the first character that is no separator, and what stands behind it starts with
such a character. -/
theorem gaps_eq_of_weave_eq {fields gaps gaps' : List Text} {rest rest' : Text}
    (hl : gaps.length = fields.length) (hl' : gaps'.length = fields.length)
    (hf : ∀ f ∈ fields, isField f = true) (hg : ∀ g ∈ gaps, isGap g = true)
    (hg' : ∀ g ∈ gaps', isGap g = true) (hr : StartsInk rest) (hr' : StartsInk rest')
    (h : weave fields gaps rest = weave fields gaps' rest') : gaps = gaps' := by
  induction fields generalizing gaps gaps' with
  | nil =>
      rw [List.length_nil, List.length_eq_zero_iff] at hl hl'
      rw [hl, hl']
  | cons f fields ih =>
      obtain ⟨g, gaps, rfl⟩ := List.exists_cons_of_length_eq_add_one hl
      obtain ⟨g', gaps', rfl⟩ := List.exists_cons_of_length_eq_add_one hl'
      simp only [List.length_cons, Nat.add_right_cancel_iff] at hl hl'
      rw [List.forall_mem_cons] at hf hg hg'
      rw [weave_cons, weave_cons, List.append_cancel_left_eq] at h
      have hink : StartsInk (weave fields gaps rest) := startsInk_weave hl hf.2 hr
      have hink' : StartsInk (weave fields gaps' rest') := startsInk_weave hl' hf.2 hr'
      have hrest : weave fields gaps rest = weave fields gaps' rest' := by
        rw [← dropWhile_isSeparator (isGap_iff.1 hg.1).2 hink, h,
          dropWhile_isSeparator (isGap_iff.1 hg'.1).2 hink']
      rw [hrest, List.append_cancel_right_eq] at h
      rw [h, ih hl hl' hf.2 hg.2 hg'.2 hrest]

end Header

namespace RuleText

theorem read?_text {r : RuleText} (h : r.IsValid) :
    Header.read? r.text = some (r.header, r.block) :=
  Header.read?_eq_some_iff.2 ⟨r.gaps, h, rfl⟩

theorem exists_text_eq_iff {s : Text} :
    (∃ r : RuleText, r.IsValid ∧ s = r.text) ↔ Header.read? s ≠ none := by
  constructor
  · rintro ⟨r, hvalid, rfl⟩
    rw [read?_text hvalid]
    exact Option.some_ne_none _
  · intro hread
    obtain ⟨parts, hparts⟩ := Option.ne_none_iff_exists'.1 hread
    obtain ⟨gaps, hvalid, htext⟩ := Header.read?_eq_some_iff.1 hparts
    exact ⟨_, hvalid, htext⟩

/-- The parts of a rule text are determined by the text. -/
theorem eq_of_text_eq {r r' : RuleText} (hr : r.IsValid) (hr' : r'.IsValid)
    (h : r.text = r'.text) : r = r' := by
  have hread : some (r.header, r.block) = some (r'.header, r'.block) := by
    rw [← read?_text hr, ← read?_text hr', h]
  obtain ⟨header, gaps, block⟩ := r
  obtain ⟨header', gaps', block'⟩ := r'
  simp only [Option.some.injEq, Prod.mk.injEq] at hread
  obtain ⟨rfl, rfl⟩ := hread
  have hink : Header.StartsInk ('(' :: (block ++ [')'])) := by
    intro c hc
    simp only [List.head?_cons, Option.some.injEq] at hc
    subst hc
    decide
  have hlength : gaps.length = header.fields.length := hr.length_gaps
  have hgaps : gaps = gaps' :=
    Header.gaps_eq_of_weave_eq hlength hr'.length_gaps
      (Header.isField_of_mem_fields hr.header_isValid) hr.isGap_of_mem hr'.isGap_of_mem
      hink hink h
  rw [hgaps]

end RuleText

namespace Rule

/-- A line is malformed exactly when its trimmed text is not made up of the
parts of a rule. When it is, the parts are unique, and a rule that is read from
the line has the header and the options that they say. -/
theorem parse_eq_parts (settings : Settings) (line : Text) :
    (parse settings.keepSource line = .error .malformed ↔
        ¬ ∃ r : RuleText, r.IsValid ∧ Text.trim line = r.text) ∧
      ∀ r : RuleText, r.IsValid → Text.trim line = r.text →
        (∀ r' : RuleText, r'.IsValid → Text.trim line = r'.text → r' = r) ∧
          ∀ rule, parse settings.keepSource line = .ok rule →
            rule.header = r.header ∧ OptionBlock.parse r.block = .ok rule.options ∧
              rule.source = if settings.keepSource then some (Text.trim line) else none := by
  refine ⟨?_, ?_⟩
  · rw [parse_eq_malformed_iff]
    constructor
    · rintro hnone ⟨r, hr, htext⟩
      rw [htext, RuleText.read?_text hr] at hnone
      exact absurd hnone (by simp)
    · intro hno
      cases hread : Header.read? (Text.trim line) with
      | none => rfl
      | some parts =>
          obtain ⟨gaps, hvalid, htext⟩ := Header.read?_eq_some_iff.1 hread
          exact absurd ⟨_, hvalid, htext⟩ hno
  · intro r hr htext
    refine ⟨fun r' hr' htext' => RuleText.eq_of_text_eq hr' hr (htext'.symm.trans htext), ?_⟩
    intro rule hrule
    obtain ⟨header, block, hread, hparts⟩ := parse_eq_ok_iff.1 hrule
    rw [htext, RuleText.read?_text hr, Option.some.injEq, Prod.mk.injEq] at hread
    obtain ⟨rfl, rfl⟩ := hread
    obtain ⟨options, metadata, hoptions, -, rfl⟩ := ofParts_eq_ok_iff.1 hparts
    exact ⟨rfl, hoptions, rfl⟩

/-- A rule text with a no-break space and a parenthesis in a field, an arrow as an address, a line
feed between fields, and parentheses inside its block. -/
def oddText : RuleText where
  header := ⟨"alert".toList, "ip".toList, "(a\u00A0".toList, "any".toList, "->".toList,
    "->".toList, "any".toList⟩
  gaps := [" ".toList, "\n\t".toList, " ".toList, " ".toList, " ".toList, " ".toList, " ".toList]
  block := "->x:\")\";)(\u2028".toList

theorem parse_eq_parts_oddText :
    oddText.IsValid ∧ Text.trim ('\x0B' :: (oddText.text ++ ['\x0B'])) = oddText.text ∧
      ∃ rule, parse true ('\x0B' :: (oddText.text ++ ['\x0B'])) = .ok rule ∧
        rule.header = oddText.header ∧ OptionBlock.parse oddText.block = .ok rule.options ∧
          rule.source = some oddText.text := by
  have hvalid : oddText.IsValid := ⟨by decide, rfl, by decide, by decide, by decide⟩
  have htrim : Text.trim ('\x0B' :: (oddText.text ++ ['\x0B'])) = oddText.text := by decide
  obtain ⟨rule, hrule⟩ : ∃ rule, parse true ('\x0B' :: (oddText.text ++ ['\x0B'])) = .ok rule :=
    ⟨_, rfl⟩
  have hparts := ((parse_eq_parts {} _).2 oddText hvalid htrim).2 rule hrule
  rw [htrim] at hparts
  exact ⟨hvalid, htrim, rule, hrule, hparts⟩

end Rule

end IdsRules
