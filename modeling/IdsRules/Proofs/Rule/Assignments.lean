import IdsRules.Proofs.Rule.Fault

/-!
# What an option block assigns

The fragments of a block are assignments that are made one after the other. A
key stands in the table where it was first assigned and has the value that it
was assigned last, whether that is a flag or not. So the table is known from the
fragments alone: their keys give its keys, and for each key the last fragment
that names it gives the value.
-/

namespace IdsRules

theorem exists_append_cons_of_mem_map {α β : Type*} {f : α → β} {l : List α} {b : β}
    (h : b ∈ l.map f) :
    ∃ before x after, l = before ++ x :: after ∧ f x = b ∧ b ∉ after.map f := by
  induction l with
  | nil => cases h
  | cons x l ih =>
      by_cases hl : b ∈ l.map f
      · obtain ⟨before, y, after, rfl, hy, hafter⟩ := ih hl
        exact ⟨x :: before, y, after, rfl, hy, hafter⟩
      · rw [List.map_cons, List.mem_cons] at h
        exact ⟨[], x, l, rfl, (h.resolve_right hl).symm, hl⟩

theorem OptionValue.ne_flag_of_read {s : Text} {v : OptionValue} (h : read s = .ok v) (b : Bool) :
    v ≠ .flag b := by
  rintro rfl
  cases reads_of_read h

namespace OptionBlock

/-- The key that a fragment names: the text in front of its first colon without
the blanks around it, or the fragment if it has no colon. -/
def HasKey (fragment k : Text) : Prop :=
  (':' ∉ fragment ∧ k = fragment) ∨
    ∃ front rest : Text, fragment = front ++ ':' :: rest ∧ ':' ∉ front ∧ k = Text.trim front

theorem hasKey_iff {fragment k : Text} : HasKey fragment k ↔ key fragment = k := by
  rw [HasKey, key]
  cases hcut : Text.cut? ':' fragment with
  | none =>
      have hcolon := Text.cut?_eq_none_iff.1 hcut
      constructor
      · rintro (⟨-, rfl⟩ | ⟨front, rest, rfl, -⟩)
        · rfl
        · exact absurd (by simp) hcolon
      · rintro rfl
        exact .inl ⟨hcolon, rfl⟩
  | some cut =>
      obtain ⟨front, rest⟩ := cut
      obtain ⟨hfragment, hfront⟩ := Text.cut?_eq_some_iff.1 hcut
      constructor
      · rintro (⟨hcolon, -⟩ | ⟨front', rest', hfragment', hfront', rfl⟩)
        · exact absurd (by simp [hfragment]) hcolon
        · rw [Text.cut?_eq_some_iff.2 ⟨hfragment', hfront'⟩, Option.some.injEq,
            Prod.mk.injEq] at hcut
          rw [hcut.1]
      · rintro rfl
        exact .inr ⟨front, rest, hfragment, hfront, rfl⟩

/-- A key has no colon, and no blanks around it. -/
theorem trim_key_of_mem_fragments {block fragment : Text} (h : fragment ∈ fragments block) :
    Text.trim (key fragment) = key fragment ∧ ':' ∉ key fragment := by
  rw [key]
  cases hcut : Text.cut? ':' fragment with
  | none => exact ⟨(trim_eq_self_of_mem_fragments h).2, Text.cut?_eq_none_iff.1 hcut⟩
  | some cut =>
      obtain ⟨-, hfront⟩ := Text.cut?_eq_some_iff.1 hcut
      exact ⟨Text.trim_trim cut.1, fun hmem => hfront (Text.mem_of_mem_trim hmem)⟩

theorem value_eq_ok_iff {fragment : Text} {v : OptionValue} :
    value fragment = .ok v ↔
      (':' ∉ fragment ∧ v = .flag true) ∨
        ∃ t, HasValueText fragment t ∧ OptionValue.read t = .ok v := by
  simp only [hasValueText_iff, value]
  cases hcut : Text.cut? ':' fragment with
  | none =>
      have hcolon := Text.cut?_eq_none_iff.1 hcut
      simp [hcolon, eq_comm]
  | some cut =>
      have hcolon : ':' ∈ fragment := by simp [(Text.cut?_eq_some_iff.1 hcut).1]
      simp [hcolon]

/-- A fragment sets a flag exactly when it has no colon. -/
theorem value_eq_flag_iff {fragment : Text} {v : OptionValue} (h : value fragment = .ok v) :
    v = .flag true ↔ ':' ∉ fragment := by
  rcases value_eq_ok_iff.1 h with ⟨hcolon, rfl⟩ | ⟨t, ⟨front, rest, hfragment, -⟩, hread⟩
  · exact iff_of_true rfl hcolon
  · refine iff_of_false (OptionValue.ne_flag_of_read hread true) fun hcolon => hcolon ?_
    rw [hfragment]
    simp

/-- A row comes from a fragment, and the rows behind it from those behind it. -/
theorem exists_append_cons_of_rows {fragments : List Text} {front back : List (Text × OptionValue)}
    {row : Text × OptionValue} (h : rows fragments = .ok (front ++ row :: back)) :
    ∃ before fragment after, fragments = before ++ fragment :: after ∧ key fragment = row.1 ∧
      value fragment = .ok row.2 ∧ rows after = .ok back := by
  induction front generalizing fragments with
  | nil =>
      cases fragments with
      | nil => simp at h
      | cons fragment rest =>
          obtain ⟨v, vs, hv, hvs, hrows⟩ := rows_cons_eq_ok_iff.1 h
          obtain ⟨rfl, rfl⟩ := List.cons.inj hrows
          exact ⟨[], fragment, rest, rfl, rfl, hv, hvs⟩
  | cons first front ih =>
      cases fragments with
      | nil => simp at h
      | cons fragment rest =>
          obtain ⟨v, vs, -, hvs, hrows⟩ := rows_cons_eq_ok_iff.1 h
          obtain ⟨-, rfl⟩ := List.cons.inj hrows
          obtain ⟨before, f, after, rfl, hf⟩ := ih hvs
          exact ⟨fragment :: before, f, after, rfl, hf⟩

/-- The table of a block has the keys of its fragments, each once, in the order
in which they are first named. No key has a colon or blanks around it. A key has
the value that the last fragment with this key gives it: that fragment sets a
flag exactly when it has no colon, and otherwise has a value text, of which the
value is read. -/
theorem parse_assigns {block : Text} {options : Options} (h : parse block = .ok options) :
    options.keys.Nodup ∧ (∀ k ∈ options.keys, Text.trim k = k ∧ ':' ∉ k) ∧
      (∃ named, List.Forall₂ HasKey (fragments block) named ∧ options.keys = named.eraseDups) ∧
      ∀ k ∈ options.keys, ∃ before fragment after v,
        fragments block = before ++ fragment :: after ∧ HasKey fragment k ∧
          (∀ f ∈ after, ¬HasKey f k) ∧ options.get? k = some v ∧
          (v = .flag true ↔ ':' ∉ fragment) ∧
          (':' ∈ fragment → ∃ t, HasValueText fragment t ∧ OptionValue.read t = .ok v) := by
  obtain ⟨out, hout, rfl⟩ := parse_eq_ok_iff.1 h
  have hkeys : (Table.ofList out).keys = ((fragments block).map key).eraseDups := by
    rw [Table.keys_ofList, keys_rows hout]
  refine ⟨(Table.ofList out).nodup, ?_, ⟨(fragments block).map key, ?_, hkeys⟩, ?_⟩
  · intro k hk
    rw [hkeys, List.mem_eraseDups, List.mem_map] at hk
    obtain ⟨fragment, hfragment, rfl⟩ := hk
    exact trim_key_of_mem_fragments hfragment
  · rw [List.forall₂_map_right_iff, List.forall₂_same]
    exact fun fragment _ => hasKey_iff.2 rfl
  · intro k hk
    rw [Table.keys_ofList, List.mem_eraseDups] at hk
    obtain ⟨front, ⟨k, v⟩, back, rfl, rfl, hback⟩ := exists_append_cons_of_mem_map hk
    obtain ⟨before, fragment, after, hfragments, hkey, hvalue, hafter⟩ :=
      exists_append_cons_of_rows hout
    refine ⟨before, fragment, after, v, hfragments, hasKey_iff.2 hkey, ?_,
      Table.get?_ofList_append_cons hback v, value_eq_flag_iff hvalue, ?_⟩
    · intro f hf hnames
      rw [keys_rows hafter] at hback
      exact hback (hasKey_iff.1 hnames ▸ List.mem_map_of_mem hf)
    · intro hcolon
      rcases value_eq_ok_iff.1 hvalue with ⟨hno, -⟩ | hread
      · exact absurd hcolon hno
      · exact hread

/-- A key with a value, with blanks and quotes around the second one; a key with a
value and then a flag; an empty key; and a value that is a lone quote. -/
def mixedBlock : Text :=
  "a;b:1;a : \"x;y:z\" ;b;:\"\";c: \"".toList

theorem parse_assigns_mixedBlock :
    ∃ options, parse mixedBlock = .ok options ∧ options.keys.Nodup ∧
      options.keys = ["a".toList, "b".toList, [], "c".toList] ∧
      (∃ before after, fragments mixedBlock = before ++ "b".toList :: after ∧
        ∀ f ∈ after, ¬HasKey f "b".toList) ∧
      options.get? "a".toList = some (.text "x;y:z".toList) ∧
      options.get? "b".toList = some (.flag true) ∧
      options.get? [] = some (.text []) ∧ options.get? "c".toList = some (.text ['"']) := by
  let table : Options :=
    ⟨[("a".toList, .text "x;y:z".toList), ("b".toList, .flag true), ([], .text []),
      ("c".toList, .text ['"'])], by decide⟩
  have hparse : parse mixedBlock = .ok table := by decide +kernel
  obtain ⟨hnodup, -, -, hlast⟩ := parse_assigns hparse
  obtain ⟨before, fragment, after, v, hfragments, hkey, hafter, hv, hflag, -⟩ :=
    hlast "b".toList (by decide)
  have hset : v = .flag true := Option.some.inj (hv.symm.trans rfl)
  have hb : fragment = "b".toList := by
    rcases hkey with ⟨-, hb⟩ | ⟨front, rest, hfragment, -⟩
    · exact hb.symm
    · exact absurd (by simp [hfragment]) (hflag.1 hset)
  exact ⟨table, hparse, hnodup, rfl, ⟨before, after, hb ▸ hfragments, hafter⟩, rfl, rfl, rfl, rfl⟩

end OptionBlock

end IdsRules
