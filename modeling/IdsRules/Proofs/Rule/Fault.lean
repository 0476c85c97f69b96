import IdsRules.Proofs.Numeral.Fault
import IdsRules.Proofs.Rule.Decomposition
import IdsRules.Proofs.Rule.Metadata

/-!
# Which rules are at fault

A line that has the form of a rule gives a rule unless the value of one of its
options is a numeral at fault. That is a property of the text of the line: its
block is cut into fragments, a fragment with a colon has a value text, and the
two kinds of numeral at fault are told by their characters. The ports and the
metadata cannot fail, so nothing else can go wrong with the line.

No value text holds a line feed, because no block does; this is why the readers
of numerals, which let one line feed follow a numeral, meet none.
-/

namespace IdsRules

namespace Text

theorem mem_join_of_mem {sep : Char} {ps : List Text} {p : Text} (hp : p ∈ ps) {c : Char}
    (hc : c ∈ p) : c ∈ join sep ps := by
  induction ps with
  | nil => cases hp
  | cons q ps ih =>
      by_cases hps : ps = []
      · subst hps
        rw [List.mem_singleton] at hp
        exact hp ▸ hc
      · rw [join_cons sep q hps]
        rcases List.mem_cons.1 hp with rfl | hp
        · exact List.mem_append_left _ hc
        · exact List.mem_append_right _ (List.mem_cons_of_mem _ (ih hp))

end Text

namespace OptionValue

/-- Without a line feed in it, a text is at fault exactly when it is a numeral
of one of the two kinds. -/
theorem exists_read_eq_error_iff {s : Text} (hs : '\n' ∉ s) :
    (∃ fault, read s = .error fault) ↔
      Numeral.IsForeignInfinity s ∨ Numeral.IsPaddedInteger s := by
  rw [← Numeral.readInt64_eq_error_iff hs]
  constructor
  · rintro ⟨fault, h⟩
    rw [read] at h
    cases hint : Numeral.readInt64 s with
    | error fault => exact Or.inr ⟨fault, rfl⟩
    | ok n =>
        cases n with
        | some n => simp [hint] at h
        | none =>
            -- decimals are read whatever they are, so only a special numeral is left
            left
            rw [← Numeral.exists_not_plain_iff]
            simp only [hint, readNonInteger, Text.chomp_eq_self hs] at h
            cases hspecial : Numeral.SpecialNumeral.parse? s with
            | none =>
                rw [hspecial] at h
                cases hdecimal : Numeral.Decimal.parse? s <;> simp [hdecimal] at h
            | some m =>
                refine ⟨m, rfl, ?_⟩
                cases hplain : m.plain with
                | false => rfl
                | true => simp [hspecial, hplain] at h
  · rintro (hforeign | ⟨fault, hint⟩)
    · obtain ⟨m, hm, hplain⟩ := (Numeral.exists_not_plain_iff s).2 hforeign
      refine ⟨.notANumber s, ?_⟩
      rw [read, Numeral.readInt64_of_isForeignInfinity hs hforeign]
      simp [readNonInteger, Text.chomp_eq_self hs, hm, hplain]
    · exact ⟨fault, by rw [read, hint]⟩

end OptionValue

namespace OptionBlock

/-- The text behind the first colon of a fragment, without the blanks and the
pair of quotes around it. -/
def HasValueText (fragment v : Text) : Prop :=
  ∃ key rest : Text, fragment = key ++ ':' :: rest ∧ ':' ∉ key ∧
    (Text.trim rest = '"' :: (v ++ ['"']) ∨
      Text.trim rest = v ∧ ∀ t, v ≠ '"' :: (t ++ ['"']))

theorem unquote_eq_iff {s v : Text} :
    unquote s = v ↔ s = '"' :: (v ++ ['"']) ∨ s = v ∧ ∀ t, v ≠ '"' :: (t ++ ['"']) := by
  cases hs : Text.between? '"' '"' s with
  | none =>
      have hno : ∀ t, s ≠ '"' :: (t ++ ['"']) := by
        intro t ht
        rw [Text.between?_eq_some_iff.2 ht] at hs
        cases hs
      rw [unquote, hs, Option.getD_none]
      constructor
      · rintro rfl
        exact Or.inr ⟨rfl, hno⟩
      · rintro (h | h)
        · exact absurd h (hno v)
        · exact h.1
  | some t =>
      rw [unquote, hs, Option.getD_some]
      rw [Text.between?_eq_some_iff] at hs
      subst hs
      constructor
      · rintro rfl
        exact Or.inl rfl
      · rintro (h | ⟨rfl, h⟩)
        · simpa using h
        · exact absurd rfl (h t)

theorem hasValueText_iff {fragment v : Text} :
    HasValueText fragment v ↔
      ∃ cut, Text.cut? ':' fragment = some cut ∧ unquote (Text.trim cut.2) = v := by
  simp only [HasValueText, Prod.exists, Text.cut?_eq_some_iff, unquote_eq_iff, and_assoc]

theorem exists_value_eq_error_iff {fragment : Text} :
    (∃ fault, value fragment = .error fault) ↔
      ∃ v, HasValueText fragment v ∧ ∃ fault, OptionValue.read v = .error fault := by
  simp only [hasValueText_iff, value]
  cases Text.cut? ':' fragment with
  | none => simp
  | some cut => simp

/-- The characters of a fragment are characters of its block. -/
theorem mem_of_mem_fragment {block fragment : Text} (hfragment : fragment ∈ fragments block)
    {c : Char} (hc : c ∈ fragment) : c ∈ block := by
  simp only [fragments, List.mem_filter, List.mem_map] at hfragment
  obtain ⟨⟨p, hp, rfl⟩, -⟩ := hfragment
  rw [← join_pieces false block]
  exact Text.mem_join_of_mem hp (Text.mem_of_mem_trim hc)

/-- The characters of a value text are characters of its block. -/
theorem mem_of_mem_value {block fragment v : Text} (hfragment : fragment ∈ fragments block)
    (hv : HasValueText fragment v) {c : Char} (hc : c ∈ v) : c ∈ block := by
  apply mem_of_mem_fragment hfragment
  obtain ⟨key, rest, rfl, -, hquoted | ⟨rfl, -⟩⟩ := hv
  · have hrest : c ∈ rest := Text.mem_of_mem_trim (by rw [hquoted]; simp [hc])
    simp [hrest]
  · simp [Text.mem_of_mem_trim hc]

theorem exists_rows_eq_error_iff {fragments : List Text} :
    (∃ fault, rows fragments = .error fault) ↔
      ∃ fragment ∈ fragments, ∃ fault, value fragment = .error fault := by
  induction fragments with
  | nil => simp
  | cons fragment rest ih =>
      rw [List.exists_mem_cons_iff, ← ih, rows]
      cases value fragment with
      | error fault => simp
      | ok v =>
          cases rows rest with
          | error fault => simp
          | ok vs => simp

/-- A block is at fault exactly when the value of one of its fragments is. -/
theorem exists_parse_eq_error_iff_value {block : Text} :
    (∃ fault, parse block = .error fault) ↔
      ∃ fragment ∈ fragments block, ∃ fault, value fragment = .error fault := by
  rw [← exists_rows_eq_error_iff, parse]
  cases rows (fragments block) with
  | error fault => simp [Except.map]
  | ok out => simp [Except.map]

/-- A block without line feeds is at fault exactly when a value text in it is a
numeral of one of the two kinds. -/
theorem exists_parse_eq_error_iff {block : Text} (h : '\n' ∉ block) :
    (∃ fault, parse block = .error fault) ↔
      ∃ fragment ∈ fragments block, ∃ v, HasValueText fragment v ∧
        (Numeral.IsForeignInfinity v ∨ Numeral.IsPaddedInteger v) := by
  rw [exists_parse_eq_error_iff_value]
  refine exists_congr fun fragment => and_congr_right fun hfragment => ?_
  rw [exists_value_eq_error_iff]
  refine exists_congr fun v => and_congr_right fun hv => ?_
  exact OptionValue.exists_read_eq_error_iff fun hmem => h (mem_of_mem_value hfragment hv hmem)

end OptionBlock

namespace Rule

/-- The line is made up of the parts of a rule, and a value text in its block is
a numeral at fault. -/
def HasFaultyValue (line : Text) : Prop :=
  ∃ r : RuleText, r.IsValid ∧ Text.trim line = r.text ∧
    ∃ fragment ∈ OptionBlock.fragments r.block, ∃ v, OptionBlock.HasValueText fragment v ∧
      (Numeral.IsForeignInfinity v ∨ Numeral.IsPaddedInteger v)

theorem ofParts_eq_error_iff {header : Header} {block : Text} {source : Option Text}
    {fault : Numeral.Fault} :
    ofParts header block source = .error fault ↔ OptionBlock.parse block = .error fault := by
  cases hoptions : OptionBlock.parse block with
  | error fault' => simp [ofParts, hoptions]
  | ok options =>
      obtain ⟨rule, hrule, -⟩ := exists_ofParts header hoptions source
      simp [hrule]

theorem parse_eq_value_iff {keepSource : Bool} {line : Text} {fault : Numeral.Fault} :
    parse keepSource line = .error (.value fault) ↔
      ∃ header block, Header.read? (Text.trim line) = some (header, block) ∧
        OptionBlock.parse block = .error fault := by
  rw [parse]
  cases hread : Header.read? (Text.trim line) with
  | none => simp
  | some parts =>
      obtain ⟨header, block⟩ := parts
      have hblock : (∃ h b, some (header, block) = some (h, b) ∧
          OptionBlock.parse b = .error fault) ↔ OptionBlock.parse block = .error fault := by
        constructor
        · rintro ⟨h, b, hparts, hb⟩
          cases hparts
          exact hb
        · exact fun hb => ⟨header, block, rfl, hb⟩
      generalize (if keepSource then some (Text.trim line) else none) = source
      rw [hblock, ← @ofParts_eq_error_iff header block source fault]
      dsimp only
      cases ofParts header block source <;> simp

theorem exists_parse_eq_value_iff {keepSource : Bool} {line : Text} :
    (∃ fault, parse keepSource line = .error (.value fault)) ↔ HasFaultyValue line := by
  simp only [parse_eq_value_iff]
  constructor
  · rintro ⟨fault, header, block, hread, hblock⟩
    obtain ⟨gaps, hvalid, htext⟩ := Header.read?_eq_some_iff.1 hread
    exact ⟨⟨header, gaps, block⟩, hvalid, htext,
      (OptionBlock.exists_parse_eq_error_iff hvalid.lineFeed_not_mem).1 ⟨fault, hblock⟩⟩
  · rintro ⟨r, hvalid, htext, hfragment⟩
    obtain ⟨fault, hblock⟩ :=
      (OptionBlock.exists_parse_eq_error_iff hvalid.lineFeed_not_mem).2 hfragment
    exact ⟨fault, r.header, r.block, by rw [htext, RuleText.read?_text hvalid], hblock⟩

/-- Reading a line fails with a fault exactly when a value text in its block is
a foreign infinity or a padded integer. It fails otherwise only if the line does
not have the form of a rule: neither the ports nor the metadata can be at
fault. -/
theorem parse_fails_iff (settings : Settings) (line : Text) :
    ((∃ fault, parse settings.keepSource line = .error (.value fault)) ↔ HasFaultyValue line) ∧
      (parse settings.keepSource line = .error .malformed ↔
        ¬∃ r : RuleText, r.IsValid ∧ Text.trim line = r.text) ∧
      (∀ r : RuleText, r.IsValid → Text.trim line = r.text → ¬HasFaultyValue line →
        ∃ rule, parse settings.keepSource line = .ok rule ∧
          OptionBlock.parse r.block = .ok rule.options ∧
          Metadata.read? rule.options = .ok rule.metadata ∧
          rule.ports = Ports.read? r.header.sourcePort r.header.destinationPort) ∧
      ∀ block options, OptionBlock.parse block = .ok options →
        ∃ metadata, Metadata.read? options = .ok metadata := by
  have hmalformed : parse settings.keepSource line = .error .malformed ↔
      ¬∃ r : RuleText, r.IsValid ∧ Text.trim line = r.text := by
    rw [parse_eq_malformed_iff, Option.eq_none_iff_forall_ne_some]
    simp only [not_exists, not_and, Prod.forall]
    constructor
    · intro hnone r hvalid htext
      exact hnone r.header r.block (by rw [htext, RuleText.read?_text hvalid])
    · intro hno header block hread
      obtain ⟨gaps, hvalid, htext⟩ := Header.read?_eq_some_iff.1 hread
      exact hno _ hvalid htext
  refine ⟨exists_parse_eq_value_iff, hmalformed, ?_, ?_⟩
  · intro r hvalid htext hsound
    cases hrule : parse settings.keepSource line with
    | error error =>
        cases error with
        | malformed => exact absurd ⟨r, hvalid, htext⟩ (hmalformed.1 hrule)
        | value fault => exact absurd (exists_parse_eq_value_iff.1 ⟨fault, hrule⟩) hsound
    | ok rule =>
        obtain ⟨header, block, hread, hparts⟩ := parse_eq_ok_iff.1 hrule
        rw [htext, RuleText.read?_text hvalid, Option.some.injEq, Prod.mk.injEq] at hread
        obtain ⟨rfl, rfl⟩ := hread
        obtain ⟨options, metadata, hoptions, hmetadata, rfl⟩ := ofParts_eq_ok_iff.1 hparts
        exact ⟨_, rfl, hoptions, hmetadata, rfl⟩
  · exact fun block options hoptions => Metadata.exists_read?_of_parse hoptions

/-- A rule text of which the value text behind a quoted semicolon is `value`. -/
def quotedText (value : Text) : RuleText where
  header := ⟨"alert".toList, "ip".toList, "any".toList, "[80,81]".toList, "->".toList,
    "any".toList, "any".toList⟩
  gaps := List.replicate 7 [' ']
  block := "msg:\";\"; x: \"".toList ++ value ++ "\" ;y".toList

theorem parse_fails_iff_quotedText :
    let foreign := quotedText "-\u0130nF\u0131niTY".toList
    let sound := quotedText "-infi\u0131nity".toList
    HasFaultyValue foreign.text ∧ (∃ fault, parse true foreign.text = .error (.value fault)) ∧
      sound.IsValid ∧ Text.trim sound.text = sound.text ∧ ¬HasFaultyValue sound.text ∧
      ∃ rule, parse true sound.text = .ok rule ∧
        OptionBlock.parse sound.block = .ok rule.options ∧
        Metadata.read? rule.options = .ok rule.metadata ∧
        rule.ports = some ⟨["80".toList, "81".toList], []⟩ := by
  intro foreign sound
  have hfaulty : HasFaultyValue foreign.text := by
    refine ⟨foreign, ⟨by decide, rfl, by decide, by decide, by decide⟩, by decide,
      "x: \"-\u0130nF\u0131niTY\"".toList, by decide, "-\u0130nF\u0131niTY".toList,
      OptionBlock.hasValueText_iff.2 ⟨_, rfl, by decide⟩, Or.inl ?_⟩
    exact (Numeral.exists_not_plain_iff _).1 ⟨_, rfl, by decide⟩
  have hvalid : sound.IsValid := ⟨by decide, rfl, by decide, by decide, by decide⟩
  have htrim : Text.trim sound.text = sound.text := by decide
  have hreads : (parse true sound.text).isOk = true := by decide +kernel
  have hsound : ¬HasFaultyValue sound.text := by
    intro hfaulty
    obtain ⟨fault, hfault⟩ := (parse_fails_iff {} sound.text).1.2 hfaulty
    rw [hfault] at hreads
    cases hreads
  refine ⟨hfaulty, (parse_fails_iff {} foreign.text).1.2 hfaulty, hvalid, htrim, hsound, ?_⟩
  exact (parse_fails_iff {} sound.text).2.2.1 sound hvalid htrim hsound

end Rule

end IdsRules
