import Mathlib.Data.List.Forall2
import IdsRules.Conversion.Settings
import IdsRules.Proofs.Rule.Decomposition
import IdsRules.Proofs.Rule.Metadata
import IdsRules.Proofs.Rule.WrittenItem

/-!
# Reading undoes writing

A rule that is written from a header and a list of options is read back as that
header and the table that the options set one after the other. The text goes
through the header reader, the cutter, the trimming of fragments, the first
colon of each and the quotes around its value; the options are followed through
these by `OptionItem`, so that what is left here is the block as a list.
-/

namespace IdsRules

namespace OptionBlock

/-- The rows of a block are the keys and values of its fragments, one by one. -/
theorem rows_eq_ok_iff {fragments : List Text} {out : List (Text × OptionValue)} :
    rows fragments = .ok out ↔
      List.Forall₂ (fun fragment row => key fragment = row.1 ∧ value fragment = .ok row.2)
        fragments out := by
  induction fragments generalizing out with
  | nil => simp [eq_comm]
  | cons fragment rest ih =>
      rw [rows_cons_eq_ok_iff]
      constructor
      · rintro ⟨v, vs, hv, hvs, rfl⟩
        exact .cons ⟨rfl, hv⟩ (ih.1 hvs)
      · rintro (_ | ⟨⟨hkey, hv⟩, hrest⟩)
        exact ⟨_, _, hv, ih.2 hrest, by rw [hkey]⟩

end OptionBlock

namespace WrittenBlock

/-- An option and the options behind it are fragments, whatever spaces stand in
front of them. Each option of the rest takes the place of the first one, with
its own spaces. -/
theorem fragments_append_othersText (n : Nat) (first : OptionItem)
    (others : List (Nat × OptionItem)) (closed : Bool)
    (h : ∀ item ∈ first :: others.map Prod.snd, item.IsValid) :
    OptionBlock.fragments (List.replicate n ' ' ++ first.text ++
        (othersText others ++ if closed then [';'] else [])) =
      (first :: others.map Prod.snd).map OptionItem.text := by
  induction others generalizing n first with
  | nil =>
      have hfirst : first.IsValid := h first (by simp)
      cases closed with
      | false => simpa [othersText] using OptionItem.fragments_text hfirst n
      | true =>
          have hbalanced := OptionItem.balanced_replicate_append hfirst n
          have hclose : othersText [] ++ (if true then [';'] else []) = ';' :: [] := rfl
          rw [hclose, OptionBlock.fragments_append_semicolon hbalanced,
            OptionItem.fragments_text hfirst]
          rfl
  | cons other others ih =>
      rw [List.forall_mem_cons] at h
      have hbalanced := OptionItem.balanced_replicate_append h.1 n
      have hcons : othersText (other :: others) =
          ';' :: (List.replicate other.1 ' ' ++ other.2.text ++ othersText others) := by
        simp [othersText]
      rw [hcons, List.cons_append, List.append_assoc (List.replicate other.1 ' ' ++ _),
        OptionBlock.fragments_append_semicolon hbalanced, OptionItem.fragments_text h.1,
        ih other.1 other.2 h.2]
      rfl

/-- The fragments of a written block are its options. -/
theorem fragments_text {b : WrittenBlock} (h : ∀ item ∈ b.items, item.IsValid) :
    OptionBlock.fragments b.text = b.items.map OptionItem.text := by
  have hzero := fragments_append_othersText 0 b.first b.others b.closed h
  rw [List.replicate_zero, List.nil_append] at hzero
  rw [text, List.append_assoc, hzero, items]

end WrittenBlock

namespace OptionItem

/-- An option sets a row when the row has its key and its value. -/
def Sets (item : OptionItem) (row : Text × OptionValue) : Prop :=
  item.key = row.1 ∧ item.value = .ok row.2

theorem exists_sets {items : List OptionItem} (h : ∀ item ∈ items, ∃ v, item.value = .ok v) :
    ∃ rows, List.Forall₂ Sets items rows := by
  induction items with
  | nil => exact ⟨[], .nil⟩
  | cons item items ih =>
      rw [List.forall_mem_cons] at h
      obtain ⟨v, hv⟩ := h.1
      obtain ⟨rows, hrows⟩ := ih h.2
      exact ⟨(item.key, v) :: rows, .cons ⟨rfl, hv⟩ hrows⟩

theorem keys_of_sets {items : List OptionItem} {rows : List (Text × OptionValue)}
    (h : List.Forall₂ Sets items rows) : rows.map Prod.fst = items.map key := by
  induction h with
  | nil => rfl
  | cons hset _ ih => rw [List.map_cons, List.map_cons, ih, hset.1]

end OptionItem

namespace WrittenBlock

/-- The rows that the options of a written block set are those of its
fragments. -/
theorem parse_text {b : WrittenBlock} {rows : List (Text × OptionValue)}
    (h : ∀ item ∈ b.items, item.IsValid) (hrows : List.Forall₂ OptionItem.Sets b.items rows) :
    OptionBlock.parse b.text = .ok (Table.ofList rows) := by
  refine OptionBlock.parse_eq_ok_iff.2 ⟨rows, ?_, rfl⟩
  rw [OptionBlock.rows_eq_ok_iff, fragments_text h, List.forall₂_map_left_iff]
  have hboth := (List.forall₂_and_left _ _).2 ⟨h, hrows⟩
  refine hboth.imp ?_
  rintro item row ⟨hvalid, hset⟩
  rw [OptionItem.key_text hvalid, OptionItem.value_text hvalid]
  exact hset

theorem text_ne_nil {b : WrittenBlock} (h : ∀ item ∈ b.items, item.IsValid) : b.text ≠ [] := by
  have hfirst : b.first.text ≠ [] := OptionItem.text_ne_nil (h b.first (by simp [items]))
  simp [text, hfirst]

theorem lineFeed_not_mem_text {b : WrittenBlock} (h : ∀ item ∈ b.items, item.IsValid) :
    '\n' ∉ b.text := by
  have hfirst : '\n' ∉ b.first.text :=
    OptionItem.lineFeed_not_mem_text (h b.first (by simp [items]))
  have hothers : '\n' ∉ othersText b.others := by
    simp only [othersText, List.mem_flatMap, not_exists, not_and]
    intro other hother
    have hitem : '\n' ∉ other.2.text :=
      OptionItem.lineFeed_not_mem_text
        (h other.2 (List.mem_cons_of_mem _ (List.mem_map_of_mem hother)))
    simp [hitem]
  cases hclosed : b.closed <;> simp [text, hclosed, hfirst, hothers]

end WrittenBlock

theorem isBlank_of_isWordChar {c : Char} (h : isWordChar c = true) : Text.isBlank c = false := by
  have hcode : 48 ≤ c.toNat ∧ c.toNat ≤ 57 ∨ 65 ≤ c.toNat ∧ c.toNat ≤ 90 ∨
      97 ≤ c.toNat ∧ c.toNat ≤ 122 ∨ c.toNat = 95 := by
    delta isWordChar Char.isAlphanum Char.isAlpha Char.isUpper Char.isLower Char.isDigit at h
    simp only [Bool.or_eq_true, Bool.and_eq_true, decide_eq_true_eq, beq_iff_eq] at h
    rcases h with ((h | h) | h) | rfl
    · exact .inr (.inl h)
    · exact .inr (.inr (.inl h))
    · exact .inl h
    · exact .inr (.inr (.inr rfl))
  simp only [Text.isBlank, Bool.or_eq_false_iff, Bool.and_eq_false_iff, decide_eq_false_iff_not,
    beq_eq_false_iff_ne]
  omega

/-- A rule text starts with the first character of its action and ends with a
parenthesis, so there are no blanks around it. -/
theorem RuleText.trim_text {r : RuleText} (h : r.IsValid) : Text.trim r.text = r.text := by
  apply Text.trim_eq_self
  · intro c hc
    have hword := h.header_isValid
    simp only [Header.isValid, isWord, Bool.and_eq_true, Bool.not_eq_true', List.isEmpty_eq_false_iff,
      List.all_eq_true] at hword
    obtain ⟨⟨⟨⟨⟨⟨⟨hne, hword⟩, -⟩, -⟩, -⟩, -⟩, -⟩, -⟩ := hword
    have hlength := h.length_gaps
    obtain ⟨⟨action, protocol, source, sourcePort, direction, destination, destinationPort⟩,
      gaps, block⟩ := r
    obtain ⟨gap, gaps, rfl⟩ := List.exists_cons_of_length_eq_add_one hlength
    obtain ⟨d, action, rfl⟩ := List.exists_cons_of_ne_nil hne
    have hd : d = c := by simpa [text, Header.fields] using hc
    rw [← hd]
    exact isBlank_of_isWordChar (hword d List.mem_cons_self)
  · intro c hc
    have htext : r.text = weave r.header.fields r.gaps ('(' :: r.block) ++ [')'] := by
      rw [text, ← List.cons_append, weave_append]
    rw [htext, List.getLast?_concat, Option.some.injEq] at hc
    subst hc
    decide

namespace Rule

/-- A rule that is written is read back: its header as it is, and as its options
the table that the written options set one after the other. Its keys stand in
the order in which they are first written, and the value of a key is the one
written last. -/
theorem parse_ruleText (settings : Settings) {header : Header} {gaps : List Text}
    {b : WrittenBlock} (hheader : header.isValid = true) (hlength : gaps.length = 7)
    (hgaps : ∀ gap ∈ gaps, isGap gap = true) (hitems : ∀ item ∈ b.items, item.IsValid)
    (hvalues : ∀ item ∈ b.items, ∃ v, item.value = .ok v) :
    ∃ rule rows, parse settings.keepSource (b.ruleText header gaps) = .ok rule ∧
      rule.header = header ∧ List.Forall₂ OptionItem.Sets b.items rows ∧
      rule.options = Table.ofList rows ∧
      rule.options.keys = (b.items.map OptionItem.key).eraseDups ∧
      ∀ key, rule.options.get? key = (rows.reverse.find? fun row => row.1 = key).map Prod.snd := by
  have hvalid : RuleText.IsValid ⟨header, gaps, b.text⟩ :=
    ⟨hheader, hlength, hgaps, WrittenBlock.text_ne_nil hitems,
      WrittenBlock.lineFeed_not_mem_text hitems⟩
  have htrim : Text.trim (b.ruleText header gaps) = b.ruleText header gaps :=
    RuleText.trim_text hvalid
  have hread : Header.read? (b.ruleText header gaps) = some (header, b.text) :=
    RuleText.read?_text hvalid
  obtain ⟨rows, hrows⟩ := OptionItem.exists_sets hvalues
  have hoptions := WrittenBlock.parse_text hitems hrows
  obtain ⟨rule, hrule, hheader', hoptions'⟩ := exists_ofParts header hoptions
    (if settings.keepSource then some (b.ruleText header gaps) else none)
  refine ⟨rule, rows, parse_eq_ok_iff.2 ⟨header, b.text, ?_, ?_⟩, hheader', hrows, hoptions', ?_, ?_⟩
  · rw [htrim, hread]
  · rw [htrim, hrule]
  · rw [hoptions', Table.keys_ofList, OptionItem.keys_of_sets hrows]
  · intro key
    rw [hoptions', Table.get?_ofList]

/-- A block in which a value has semicolons, a colon, parentheses and outer
spaces, and a key is written twice. -/
def repeatedBlock : WrittenBlock where
  first := .pair "msg".toList " a;b:(c) ;".toList
  others := [(0, .flag "no case".toList), (2, .pair "sid".toList "007".toList),
    (1, .pair "msg".toList [])]
  closed := true

theorem parse_ruleText_repeatedBlock :
    ∃ rule, parse true (repeatedBlock.ruleText oddText.header oddText.gaps) = .ok rule ∧
      rule.header = oddText.header ∧
      rule.options.keys = ["msg".toList, "no case".toList, "sid".toList] := by
  have hitems : ∀ item ∈ repeatedBlock.items, item.IsValid := by
    have hmsg : OptionItem.IsKey "msg".toList :=
      ⟨by decide, by decide, by decide, by decide, by decide, by decide⟩
    have hcase : OptionItem.IsKey "no case".toList :=
      ⟨by decide, by decide, by decide, by decide, by decide, by decide⟩
    have hsid : OptionItem.IsKey "sid".toList :=
      ⟨by decide, by decide, by decide, by decide, by decide, by decide⟩
    simp only [repeatedBlock, WrittenBlock.items, List.map_cons, List.map_nil,
      List.forall_mem_cons]
    exact ⟨⟨hmsg, by decide, by decide⟩, hcase, ⟨hsid, by decide, by decide⟩,
      ⟨hmsg, by decide, by decide⟩, by simp⟩
  have hvalues : ∀ item ∈ repeatedBlock.items, ∃ v, item.value = .ok v := by
    simp only [repeatedBlock, WrittenBlock.items, List.map_cons, List.map_nil,
      List.forall_mem_cons]
    exact ⟨⟨_, rfl⟩, ⟨_, rfl⟩, ⟨_, rfl⟩, ⟨_, rfl⟩, by simp⟩
  have hheader : oddText.header.isValid = true := by decide
  have hgaps : ∀ gap ∈ oddText.gaps, isGap gap = true := by decide
  obtain ⟨rule, rows, hrule, hheader', -, -, hkeys, -⟩ :=
    parse_ruleText {} hheader rfl hgaps hitems hvalues
  exact ⟨rule, hrule, hheader', hkeys⟩

end Rule

end IdsRules
