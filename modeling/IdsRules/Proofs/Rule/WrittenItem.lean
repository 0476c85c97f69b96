import IdsRules.Proofs.Rule.Fragments
import IdsRules.Rule.Printer

/-!
# Written options are read back

An option that can be written is one fragment of its block, and that fragment
sets the key of the option to its value. The quotes around a value do the work:
they hide its semicolons from the cutter and its blanks from trimming, the colon
that counts stands in front of them, and reading drops them again. The quotes of
an option pair up, so it leaves the cutter outside quotes.
-/

namespace IdsRules

namespace OptionItem

variable {item : OptionItem}

theorem isBlank_head?_of_isKey {key : Text} (h : IsKey key) {c : Char} (hc : key.head? = some c) :
    Text.isBlank c = false := by
  apply Text.isBlank_head?_trim (s := key)
  rw [h.trim_eq]
  exact hc

/-- No blanks stand around a written option. -/
theorem trim_text (h : item.IsValid) : Text.trim item.text = item.text := by
  cases item with
  | flag key => exact IsKey.trim_eq h
  | pair key value =>
      obtain ⟨hkey, -⟩ := h
      apply Text.trim_eq_self
      · intro c hc
        apply isBlank_head?_of_isKey hkey
        obtain ⟨d, key, rfl⟩ := List.exists_cons_of_ne_nil hkey.ne_nil
        exact hc
      · intro c hc
        have htext : text (.pair key value) = (key ++ ':' :: '"' :: value) ++ ['"'] := by
          simp [text]
        rw [htext, List.getLast?_concat, Option.some.injEq] at hc
        subst hc
        decide

theorem text_ne_nil (h : item.IsValid) : item.text ≠ [] := by
  cases item with
  | flag key => exact IsKey.ne_nil h
  | pair key value => simp [text]

theorem lineFeed_not_mem_text (h : item.IsValid) : '\n' ∉ item.text := by
  cases item with
  | flag key => exact IsKey.lineFeed_not_mem h
  | pair key value =>
      obtain ⟨hkey, -, hvalue⟩ := h
      simp [text, hkey.lineFeed_not_mem, hvalue]

/-- The quotes of a written option pair up. -/
theorem balanced_text (h : item.IsValid) : OptionBlock.Balanced item.text := by
  cases item with
  | flag key =>
      have hcount : key.count '"' = 0 := List.count_eq_zero.2 (IsKey.quote_not_mem h)
      rw [OptionBlock.Balanced, text, hcount]
  | pair key value =>
      obtain ⟨hkey, hquote, -⟩ := h
      have hcount : key.count '"' = 0 := List.count_eq_zero.2 hkey.quote_not_mem
      have hcount' : value.count '"' = 0 := List.count_eq_zero.2 hquote
      simp [OptionBlock.Balanced, text, hcount, hcount']

/-- Every semicolon of a written option is inside quotes: the key has none, and
in front of one in the value stands the opening quote alone. -/
theorem guarded_text (h : item.IsValid) : OptionBlock.Guarded item.text := by
  intro a b hab
  cases item with
  | flag key =>
      have hmem : ';' ∈ key := by
        rw [text] at hab
        simp [hab]
      exact absurd hmem (IsKey.semicolon_not_mem h)
  | pair key value =>
      obtain ⟨hkey, hquote, -⟩ := h
      have hopen : ';' ∉ key ++ [':', '"'] := by simp [hkey.semicolon_not_mem]
      have htext : (key ++ [':', '"']) ++ (value ++ ['"']) = a ++ ';' :: b := by
        rw [← hab]
        simp [text]
      obtain ⟨a', rfl, hvalue⟩ := OptionBlock.exists_append_of_semicolon_not_mem hopen htext
      have hbefore : a'.count '"' = 0 := by
        rw [List.count_eq_zero]
        intro hmem
        rcases List.append_eq_append_iff.1 hvalue with ⟨c, rfl, hb⟩ | ⟨c, rfl, hb⟩
        · cases c with
          | nil => simp at hb
          | cons d c => simp at hb
        · exact hquote (List.mem_append_left _ hmem)
      have hcount : key.count '"' = 0 := List.count_eq_zero.2 hkey.quote_not_mem
      simp [hcount, hbefore]

theorem count_quote_replicate (n : Nat) : (List.replicate n ' ').count '"' = 0 := by
  rw [List.count_replicate, if_neg (by decide)]

theorem balanced_replicate_append (h : item.IsValid) (n : Nat) :
    OptionBlock.Balanced (List.replicate n ' ' ++ item.text) := by
  rw [OptionBlock.Balanced, List.count_append, count_quote_replicate, Nat.zero_add]
  exact balanced_text h

theorem guarded_replicate_append (h : item.IsValid) (n : Nat) :
    OptionBlock.Guarded (List.replicate n ' ' ++ item.text) := by
  intro a b hab
  have hsemicolon : ';' ∉ List.replicate n ' ' := by
    intro hmem
    exact absurd (List.eq_of_mem_replicate hmem) (by decide)
  obtain ⟨a', rfl, hb⟩ := OptionBlock.exists_append_of_semicolon_not_mem hsemicolon hab
  rw [List.count_append, count_quote_replicate, Nat.zero_add]
  exact guarded_text h a' b hb

/-- A written option behind any number of spaces is one fragment. -/
theorem fragments_text (h : item.IsValid) (n : Nat) :
    OptionBlock.fragments (List.replicate n ' ' ++ item.text) = [item.text] := by
  have hblank : ∀ c ∈ List.replicate n ' ', Text.isBlank c = true := by
    intro c hc
    rw [List.eq_of_mem_replicate hc]
    decide
  have htrim : Text.trim (List.replicate n ' ' ++ item.text) = item.text := by
    rw [← List.append_nil (List.replicate n ' ' ++ item.text),
      Text.trim_append_blanks hblank (by simp), trim_text h]
  have hguarded := guarded_replicate_append h n
  rw [OptionBlock.fragments_of_guarded hguarded (by rw [htrim]; exact text_ne_nil h), htrim]

theorem key_text (h : item.IsValid) : OptionBlock.key item.text = item.key := by
  cases item with
  | flag key =>
      have hcut : Text.cut? ':' key = none := Text.cut?_eq_none_iff.2 (IsKey.colon_not_mem h)
      simp [OptionBlock.key, text, hcut, OptionItem.key]
  | pair key value =>
      obtain ⟨hkey, -⟩ := h
      have hcut : Text.cut? ':' (text (.pair key value)) = some (key, '"' :: (value ++ ['"'])) :=
        Text.cut?_eq_some_iff.2 ⟨rfl, hkey.colon_not_mem⟩
      simp [OptionBlock.key, hcut, hkey.trim_eq, OptionItem.key]

theorem value_text (h : item.IsValid) : OptionBlock.value item.text = item.value := by
  cases item with
  | flag key =>
      have hcut : Text.cut? ':' key = none := Text.cut?_eq_none_iff.2 (IsKey.colon_not_mem h)
      simp [OptionBlock.value, text, hcut, OptionItem.value]
  | pair key value =>
      obtain ⟨hkey, -⟩ := h
      have hcut : Text.cut? ':' (text (.pair key value)) = some (key, '"' :: (value ++ ['"'])) :=
        Text.cut?_eq_some_iff.2 ⟨rfl, hkey.colon_not_mem⟩
      have htrim : Text.trim ('"' :: (value ++ ['"'])) = '"' :: (value ++ ['"']) := by
        apply Text.trim_eq_self
        · intro c hc
          have hfirst : '"' = c := by simpa using hc
          subst hfirst
          decide
        · intro c hc
          rw [← List.cons_append, List.getLast?_concat, Option.some.injEq] at hc
          subst hc
          decide
      have hunquote : OptionBlock.unquote ('"' :: (value ++ ['"'])) = value := by
        rw [OptionBlock.unquote, Text.between?_eq_some_iff.2 rfl, Option.getD_some]
      simp [OptionBlock.value, hcut, htrim, hunquote, OptionItem.value]

end OptionItem

end IdsRules
