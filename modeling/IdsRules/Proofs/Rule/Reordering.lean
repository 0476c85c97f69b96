import Mathlib.Data.List.Perm.Basic
import IdsRules.Proofs.Rule.Cuts
import IdsRules.Proofs.Rule.Fault
import IdsRules.Proofs.Rule.RoundTrip

/-!
# Options in another order

The order of the options of a rule is kept, and nothing that is derived from the
rule asks for it. Fragments that leave no quote open can be put together again in
any order, and they are cut into the same fragments. With distinct keys they then
assign the same values to the same keys, only in another order, and the metadata
are found by key. Ports and header do not look at the options at all.
-/

namespace IdsRules

theorem Text.eq_or_exists_of_mem_join {sep : Char} {ps : List Text} {c : Char}
    (hc : c ∈ join sep ps) : c = sep ∨ ∃ p ∈ ps, c ∈ p := by
  induction ps with
  | nil => cases hc
  | cons q ps ih =>
      by_cases hps : ps = []
      · subst hps
        exact .inr ⟨q, List.mem_singleton_self q, hc⟩
      · rw [join_cons sep q hps, List.mem_append, List.mem_cons] at hc
        rcases hc with hq | rfl | hrest
        · exact .inr ⟨q, List.mem_cons_self, hq⟩
        · exact .inl rfl
        · obtain hsep | ⟨p, hp, hcp⟩ := ih hrest
          · exact .inl hsep
          · exact .inr ⟨p, List.mem_cons_of_mem q hp, hcp⟩

namespace Metadata

/-- Metadata look options up by key, and see nothing else of them. -/
theorem read?_congr {options options' : Options} (h : ∀ k, options.get? k = options'.get? k) :
    read? options = read? options' := by
  simp only [read?, gather, integerOf, textOf?, h]

end Metadata

namespace OptionBlock

section Permuted

variable {block : Text} {ps : List Text}

/-- A block put together from the fragments of another one, none of which leaves
a quote open, has these fragments in their new order. -/
theorem fragments_join_of_perm (hbalanced : ∀ p ∈ fragments block, Balanced p)
    (hperm : ps.Perm (fragments block)) : fragments (Text.join ';' ps) = ps := by
  have h := isFragmentList_fragments block
  apply IsFragmentList.fragments_join
  refine ⟨fun p hp => ?_, fun p hp => ?_, fun p hp => ?_, fun p hp => ?_⟩
  · exact h.ne_nil p (hperm.mem_iff.1 hp)
  · exact h.trim_eq p (hperm.mem_iff.1 hp)
  · exact h.guarded p (hperm.mem_iff.1 hp)
  · exact hbalanced p (hperm.mem_iff.1 (List.mem_of_mem_dropLast hp))

/-- Fragments in another order set the same rows in another order. -/
theorem rows_of_perm {qs : List Text} (hperm : ps.Perm qs) {out : List (Text × OptionValue)}
    (h : rows qs = .ok out) : ∃ out', rows ps = .ok out' ∧ out'.Perm out := by
  rw [rows_eq_ok_iff] at h
  obtain ⟨out', hout', hperm'⟩ := List.perm_comp_forall₂ hperm h
  exact ⟨out', rows_eq_ok_iff.2 hout', hperm'⟩

/-- Whether a block is at fault does not depend on the order of its fragments. -/
theorem exists_parse_join_eq_error_iff (hbalanced : ∀ p ∈ fragments block, Balanced p)
    (hperm : ps.Perm (fragments block)) :
    (∃ fault, parse (Text.join ';' ps) = .error fault) ↔ ∃ fault, parse block = .error fault := by
  simp only [exists_parse_eq_error_iff_value, fragments_join_of_perm hbalanced hperm,
    hperm.mem_iff]

/-- The options of a block with distinct keys have the same values whatever the
order of its fragments. -/
theorem exists_parse_join_of_perm (hbalanced : ∀ p ∈ fragments block, Balanced p)
    (hkeys : ((fragments block).map key).Nodup) (hperm : ps.Perm (fragments block))
    {options : Options} (h : parse block = .ok options) :
    ∃ options', parse (Text.join ';' ps) = .ok options' ∧
      ∀ k, options'.get? k = options.get? k := by
  obtain ⟨out, hout, rfl⟩ := parse_eq_ok_iff.1 h
  obtain ⟨out', hout', hperm'⟩ := rows_of_perm hperm hout
  have hnodup : (out'.map Prod.fst).Nodup := by
    rw [keys_rows hout']
    exact (hperm.map key).nodup_iff.2 hkeys
  refine ⟨Table.ofList out', parse_eq_ok_iff.2 ⟨out', ?_, rfl⟩, ?_⟩
  · rw [fragments_join_of_perm hbalanced hperm, hout']
  · exact Table.get?_ofList_of_perm hperm' hnodup

/-- No line feed comes in when a block is put together again. -/
theorem lineFeed_not_mem_join_of_perm (h : '\n' ∉ block) (hperm : ps.Perm (fragments block)) :
    '\n' ∉ Text.join ';' ps := by
  intro hmem
  rcases Text.eq_or_exists_of_mem_join hmem with hsep | ⟨p, hp, hc⟩
  · exact absurd hsep (by decide)
  · exact h (mem_of_mem_fragment (hperm.mem_iff.1 hp) hc)

theorem join_ne_nil_of_perm (h : fragments block ≠ []) (hperm : ps.Perm (fragments block)) :
    Text.join ';' ps ≠ [] := by
  obtain ⟨p, hp⟩ := List.exists_mem_of_ne_nil _ h
  obtain ⟨c, hc⟩ := List.exists_mem_of_ne_nil _ (trim_eq_self_of_mem_fragments hp).1
  exact List.ne_nil_of_mem (Text.mem_join_of_mem (hperm.mem_iff.2 hp) hc)

end Permuted

end OptionBlock

namespace RuleText

/-- The text up to the option block, with the parenthesis that opens it. -/
def front (r : RuleText) : Text :=
  weave r.header.fields r.gaps ['(']

def withBlock (r : RuleText) (block : Text) : RuleText :=
  { r with block }

@[simp] theorem front_withBlock (r : RuleText) (block : Text) :
    (r.withBlock block).front = r.front := rfl

@[simp] theorem block_withBlock (r : RuleText) (block : Text) :
    (r.withBlock block).block = block := rfl

theorem text_eq_front_append (r : RuleText) : r.text = r.front ++ (r.block ++ [')']) := by
  rw [text, front, ← weave_append]
  rfl

theorem IsValid.withBlock {r : RuleText} (h : r.IsValid) {block : Text} (hne : block ≠ [])
    (hlf : '\n' ∉ block) : (r.withBlock block).IsValid :=
  ⟨h.header_isValid, h.length_gaps, h.isGap_of_mem, hne, hlf⟩

end RuleText

namespace Rule

/-- A line with the parts of a rule is at fault when its option block is. -/
theorem parse_eq_value_iff_of_trim_eq {keepSource : Bool} {line : Text} {r : RuleText}
    (hvalid : r.IsValid) (hline : Text.trim line = r.text) {fault : Numeral.Fault} :
    parse keepSource line = .error (.value fault) ↔ OptionBlock.parse r.block = .error fault := by
  rw [parse_eq_value_iff, hline, RuleText.read?_text hvalid]
  constructor
  · rintro ⟨header, block, hparts, hblock⟩
    cases hparts
    exact hblock
  · exact fun hblock => ⟨r.header, r.block, rfl, hblock⟩

/-- What is read from a line with the parts of a rule. -/
theorem parse_eq_ok_iff_of_trim_eq {keepSource : Bool} {line : Text} {r : RuleText}
    (hvalid : r.IsValid) (hline : Text.trim line = r.text) {rule : Rule} :
    parse keepSource line = .ok rule ↔
      ∃ options metadata, OptionBlock.parse r.block = .ok options ∧
        Metadata.read? options = .ok metadata ∧
        rule = ⟨r.header, options, Ports.read? r.header.sourcePort r.header.destinationPort,
          metadata, if keepSource then some r.text else none⟩ := by
  rw [parse_eq_ok_iff, hline, RuleText.read?_text hvalid, ← ofParts_eq_ok_iff]
  constructor
  · rintro ⟨header, block, hparts, hrule⟩
    cases hparts
    exact hrule
  · exact fun hrule => ⟨r.header, r.block, rfl, hrule⟩

/-- The options of a rule can be put in another order. When the fragments of an
option block leave no quote open and set distinct keys, the line that has them in
any other order in its block has the form of a rule too. It is at fault exactly
when the first line is, and otherwise a rule with the same header, ports and
metadata is read from it, in which every key has the same value. -/
theorem parse_of_perm (settings : Settings) {line : Text} {r : RuleText} (hvalid : r.IsValid)
    (hline : Text.trim line = r.text) (hne : OptionBlock.fragments r.block ≠ [])
    (hbalanced : ∀ p ∈ OptionBlock.fragments r.block, OptionBlock.Balanced p)
    (hkeys : ((OptionBlock.fragments r.block).map OptionBlock.key).Nodup) :
    ∃ lead trail : Text, line = lead ++ r.front ++ r.block ++ ')' :: trail ∧
      (∀ c ∈ lead, Text.isBlank c = true) ∧ (∀ c ∈ trail, Text.isBlank c = true) ∧
        ∀ ps, ps.Perm (OptionBlock.fragments r.block) →
          ∀ line', line' = lead ++ r.front ++ Text.join ';' ps ++ [')'] →
            (∃ r' : RuleText, r'.IsValid ∧ Text.trim line' = r'.text) ∧
              ((∃ fault, parse settings.keepSource line' = .error (.value fault)) ↔
                ∃ fault, parse settings.keepSource line = .error (.value fault)) ∧
              ∀ rule, parse settings.keepSource line = .ok rule →
                ∃ rule', parse settings.keepSource line' = .ok rule' ∧
                  rule'.header = rule.header ∧ rule'.ports = rule.ports ∧
                  rule'.metadata = rule.metadata ∧
                  ∀ k, rule'.options.get? k = rule.options.get? k := by
  obtain ⟨lead, trail, hlead, htrail, hsplit⟩ := Text.exists_eq_append_trim_append line
  refine ⟨lead, trail, ?_, hlead, htrail, ?_⟩
  · rw [hsplit, hline, RuleText.text_eq_front_append]
    simp
  intro ps hperm line' hline'
  have hvalid' : (r.withBlock (Text.join ';' ps)).IsValid :=
    hvalid.withBlock (OptionBlock.join_ne_nil_of_perm hne hperm)
      (OptionBlock.lineFeed_not_mem_join_of_perm hvalid.lineFeed_not_mem hperm)
  have htrim : Text.trim line' = (r.withBlock (Text.join ';' ps)).text := by
    have hblanks : line' = lead ++ (r.withBlock (Text.join ';' ps)).text ++ [] := by
      rw [hline', RuleText.text_eq_front_append]
      simp
    rw [hblanks, Text.trim_append_blanks hlead (by simp), RuleText.trim_text hvalid']
  refine ⟨⟨_, hvalid', htrim⟩, ?_, ?_⟩
  · simp only [parse_eq_value_iff_of_trim_eq hvalid' htrim,
      parse_eq_value_iff_of_trim_eq hvalid hline]
    exact OptionBlock.exists_parse_join_eq_error_iff hbalanced hperm
  · intro rule hrule
    obtain ⟨options, metadata, hoptions, hmetadata, rfl⟩ :=
      (parse_eq_ok_iff_of_trim_eq hvalid hline).1 hrule
    obtain ⟨options', hoptions', hvalues⟩ :=
      OptionBlock.exists_parse_join_of_perm hbalanced hkeys hperm hoptions
    refine ⟨_, (parse_eq_ok_iff_of_trim_eq hvalid' htrim).2
      ⟨options', metadata, hoptions', ?_, rfl⟩, rfl, rfl, rfl, hvalues⟩
    rw [Metadata.read?_congr hvalues, hmetadata]

/-- A rule text with a semicolon in a quoted value, a numeral, a text and a flag. -/
def orderedText : RuleText where
  header := ⟨"alert".toList, "ip".toList, "any".toList, "[80,81]".toList, "->".toList,
    "any".toList, "any".toList⟩
  gaps := List.replicate 7 [' ']
  block := "msg:\"b;a)\"; sid:7;reference:cve,9 ;nocase;".toList

theorem parse_of_perm_orderedText :
    ∃ lead : Text, (∀ c ∈ lead, Text.isBlank c = true) ∧
      let line' := lead ++ orderedText.front ++
        "nocase;reference:cve,9;msg:\"b;a)\";sid:7".toList ++ [')']
      ∃ rule rule', parse true ('\t' :: orderedText.text) = .ok rule ∧
        parse true line' = .ok rule' ∧ rule'.header = rule.header ∧ rule'.ports = rule.ports ∧
        rule'.metadata = rule.metadata ∧ ∀ k, rule'.options.get? k = rule.options.get? k := by
  have hvalid : orderedText.IsValid := ⟨by decide, rfl, by decide, by decide, by decide⟩
  have htrim : Text.trim ('\t' :: orderedText.text) = orderedText.text := by decide
  have hfragments : OptionBlock.fragments orderedText.block =
      ["msg:\"b;a)\"".toList, "sid:7".toList, "reference:cve,9".toList, "nocase".toList] := by
    decide
  have hbalanced : ∀ p ∈ OptionBlock.fragments orderedText.block, OptionBlock.Balanced p := by
    rw [hfragments]
    unfold OptionBlock.Balanced
    decide
  have hkeys : ((OptionBlock.fragments orderedText.block).map OptionBlock.key).Nodup := by
    rw [hfragments]
    decide
  obtain ⟨rule, hrule⟩ : ∃ rule, parse true ('\t' :: orderedText.text) = .ok rule := ⟨_, rfl⟩
  obtain ⟨lead, -, -, hlead, -, hperm⟩ :=
    parse_of_perm {} hvalid htrim (by rw [hfragments]; decide) hbalanced hkeys
  obtain ⟨-, -, hsame⟩ := hperm
    ["nocase".toList, "reference:cve,9".toList, "msg:\"b;a)\"".toList, "sid:7".toList]
    (by rw [hfragments]; decide) _ rfl
  obtain ⟨rule', hrule', hderived⟩ := hsame rule hrule
  exact ⟨lead, hlead, rule, rule', hrule, hrule', hderived⟩

end Rule

end IdsRules
