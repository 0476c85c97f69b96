import IdsRules.Json.Printer
import IdsRules.Proofs.Json.Number
import IdsRules.Text.Split

/-!
# The lines of a document

Strings escape the characters below the space and numbers have none, so the only
such characters in a document are the line feeds of its layout. Inside a
container at least two spaces follow each of them; the one exception is the line
feed in front of the brace that closes the document. So an object that is not
empty has its opening brace as its first line, its closing brace as its last,
and an indent at the start of every line in between.
-/

namespace IdsRules.Json

open Numeral

/-- No character is below the space. -/
def IsPlain (s : Text) : Prop :=
  ∀ c ∈ s, 0x20 ≤ c.toNat

instance (s : Text) : Decidable (IsPlain s) :=
  decidable_of_iff (s.all fun c => decide (0x20 ≤ c.toNat)) (by simp [IsPlain])

/-- Every character below the space is a line feed of the layout, with an indent
behind it. -/
def Layout.Indents (layout : Layout) : Text → Prop
  | [] => True
  | c :: s =>
    (c.toNat < 0x20 → layout = .indented ∧ c = '\n' ∧ [' ', ' '] <+: s) ∧ layout.Indents s

variable {layout : Layout}

theorem Layout.Indents.append {s t : Text} (hs : layout.Indents s) (ht : layout.Indents t) :
    layout.Indents (s ++ t) := by
  induction s with
  | nil => exact ht
  | cons c s ih =>
      refine ⟨fun hc => ?_, ih hs.2⟩
      obtain ⟨hlayout, hfeed, hindent⟩ := hs.1 hc
      exact ⟨hlayout, hfeed, hindent.trans (List.prefix_append s t)⟩

theorem IsPlain.indents {s : Text} (h : IsPlain s) : layout.Indents s := by
  induction s with
  | nil => trivial
  | cons c s ih =>
      rw [IsPlain, List.forall_mem_cons] at h
      exact ⟨fun hc => absurd hc (Nat.not_lt.2 h.1), ih h.2⟩

theorem isPlain_singleton {c : Char} (h : 0x20 ≤ c.toNat) : IsPlain [c] := by
  rw [IsPlain, List.forall_mem_singleton]
  exact h

namespace Layout

/-- A line break inside a container is indented. -/
theorem indents_lineBreak (depth : Nat) : layout.Indents (layout.lineBreak (depth + 1)) := by
  cases layout with
  | compact => trivial
  | indented =>
      have hspaces : IsPlain (List.replicate (2 * (depth + 1)) ' ') := by
        intro c hc
        rw [List.eq_of_mem_replicate hc]
        decide
      refine ⟨fun _ => ⟨rfl, rfl, ?_⟩, hspaces.indents⟩
      rw [Nat.mul_succ, Nat.add_comm, List.replicate_add]
      exact List.prefix_append _ _

/-- In the compact layout nothing below the space is left. -/
theorem Indents.isPlain {s : Text} (h : Layout.compact.Indents s) : IsPlain s := by
  induction s with
  | nil => exact fun _ hc => absurd hc List.not_mem_nil
  | cons c s ih =>
      rw [IsPlain, List.forall_mem_cons]
      refine ⟨?_, ih h.2⟩
      by_contra hcontrol
      cases (h.1 (Nat.not_le.1 hcontrol)).1

/-- In the indented layout every line but the first starts with an indent. -/
theorem prefix_of_mem_tail_splitOn {s : Text} (h : Layout.indented.Indents s) :
    ∀ line ∈ (Text.splitOn '\n' s).tail, [' ', ' '] <+: line := by
  induction s with
  | nil => exact fun _ hline => absurd hline List.not_mem_nil
  | cons c s ih =>
      by_cases hc : c = '\n'
      · subst hc
        obtain ⟨-, -, t, rfl⟩ := h.1 (by decide)
        have htail := ih h.2
        rw [Text.splitOn_cons_self, List.tail_cons]
        rw [List.cons_append, List.cons_append, List.nil_append,
          Text.splitOn_cons_of_ne (by decide), Text.splitOn_cons_of_ne (by decide)] at htail ⊢
        cases hsplit : Text.splitOn '\n' t with
        | nil => exact absurd hsplit (Text.splitOn_ne_nil _ _)
        | cons line lines =>
            rw [hsplit] at htail
            exact List.forall_mem_cons.2 ⟨List.prefix_append _ line, htail⟩
      · have htail := ih h.2
        rw [Text.splitOn_cons_of_ne hc]
        cases hsplit : Text.splitOn '\n' s with
        | nil => exact absurd hsplit (Text.splitOn_ne_nil _ _)
        | cons line lines =>
            rw [hsplit] at htail
            exact htail

theorem indents_colon : layout.Indents layout.colon := by
  cases layout with
  | compact => exact IsPlain.indents (s := [':']) (by decide)
  | indented => exact IsPlain.indents (s := [':', ' ']) (by decide)

end Layout

/-! ## Tokens -/

theorem isPlain_hexadecimal (width n : Nat) : IsPlain (Text.hexadecimal width n) := by
  have hdigit : ∀ m : Fin 16, 0x20 ≤ (Nat.digitChar m.val).toNat := by decide
  induction width generalizing n with
  | zero => exact fun c hc => absurd hc List.not_mem_nil
  | succ width ih =>
      intro c hc
      rw [Text.hexadecimal, List.mem_append, List.mem_singleton] at hc
      rcases hc with hc | rfl
      · exact ih _ c hc
      · exact hdigit ⟨n % 16, Nat.mod_lt _ (by decide)⟩

theorem isPlain_escapeChar (c : Char) : IsPlain (escapeChar c) := by
  unfold escapeChar
  split_ifs with _ _ _ _ _ _ _ hcontrol
  -- the escapes with a letter are texts without a variable
  iterate 7 decide
  · rw [IsPlain, List.forall_mem_cons, List.forall_mem_cons]
    exact ⟨by decide, by decide, isPlain_hexadecimal 4 c.toNat⟩
  · exact isPlain_singleton (Nat.not_lt.1 hcontrol)

theorem isPlain_stringText (s : Text) : IsPlain (stringText s) := by
  intro c hc
  simp only [stringText, List.mem_cons, List.mem_append, List.mem_flatMap, List.not_mem_nil,
    or_false] at hc
  rcases hc with rfl | ⟨d, -, hc⟩ | rfl
  · decide
  · exact isPlain_escapeChar d c hc
  · decide

theorem isPlain_of_number? {s : Text} {j : Json} (h : Token.number? s = some j) : IsPlain s := by
  intro c hc
  have hnumber := Token.isNumberChar_of_number? h c hc
  simp only [Token.isNumberChar, Bool.or_eq_true, beq_iff_eq] at hnumber
  rcases hnumber with ((((hdigit | rfl) | rfl) | rfl) | rfl) | rfl
  · simp only [Char.isDigit, Bool.and_eq_true, decide_eq_true_eq] at hdigit
    have hle : 48 ≤ c.toNat := hdigit.1
    omega
  all_goals decide

theorem isPlain_truthText (b : Bool) : IsPlain (truthText b) := by
  cases b <;> decide

theorem isPlain_integerText (n : Int) : IsPlain (integerText n) :=
  isPlain_of_number? (Token.number?_integerText n)

theorem isPlain_text (x : Binary64) : IsPlain x.text := by
  cases hx : x.isFinite with
  | true => exact isPlain_of_number? (Token.number?_text hx)
  | false =>
      -- a number that is not finite is written as one of three names
      cases x with
      | nan => decide
      | infinite negative => cases negative <;> decide
      | finite negative rank => cases hx

/-! ## Values -/

namespace Layout.Indents

theorem cons {c : Char} (hc : 0x20 ≤ c.toNat) {s : Text} (h : layout.Indents s) :
    layout.Indents (c :: s) :=
  (isPlain_singleton hc).indents.append h

theorem item (depth : Nat) {s : Text} (h : layout.Indents s) :
    layout.Indents (layout.lineBreak (depth + 1) ++ s) :=
  (indents_lineBreak depth).append h

theorem member (depth : Nat) (name : Text) {s : Text} (h : layout.Indents s) :
    layout.Indents (layout.lineBreak (depth + 1) ++ (stringText name ++ layout.colon ++ s)) :=
  ((((isPlain_stringText name).indents).append indents_colon).append h).item depth

theorem close (depth : Nat) {inner : Text} (h : layout.Indents inner) {c : Char}
    (hc : 0x20 ≤ c.toNat) :
    layout.Indents (inner ++ (layout.lineBreak (depth + 1) ++ [c])) :=
  h.append ((isPlain_singleton hc).indents.item depth)

end Layout.Indents

mutual

/-- A value inside a container keeps the indent. -/
theorem indents_write (layout : Layout) (depth : Nat) (value : Json) :
    layout.Indents (write layout (depth + 1) value) := by
  match value with
  | .null => exact IsPlain.indents (s := "null".toList) (by decide)
  | .bool b => exact (isPlain_truthText b).indents
  | .integer n => exact (isPlain_integerText n).indents
  | .float x => exact (isPlain_text x).indents
  | .string s => exact (isPlain_stringText s).indents
  | .array [] => exact IsPlain.indents (s := ['[', ']']) (by decide)
  | .array (item :: items) =>
      obtain ⟨inner, hinner, hindents⟩ := exists_writeItems layout (depth + 1) items
      have hitem := (indents_write layout (depth + 1) item).item (depth + 1)
      rw [write, hinner, ← List.append_assoc _ inner]
      exact ((hitem.append hindents).close depth (by decide)).cons (by decide)
  | .object [] => exact IsPlain.indents (s := ['\x7B', '\x7D']) (by decide)
  | .object ((name, value) :: members) =>
      obtain ⟨inner, hinner, hindents⟩ := exists_writeMembers layout (depth + 1) members
      have hmember := (indents_write layout (depth + 1) value).member (depth + 1) name
      rw [write, hinner, ← List.append_assoc _ inner]
      exact ((hmember.append hindents).close depth (by decide)).cons (by decide)

/-- The items behind the first keep the indent, up to the line break in front of
the bracket. -/
theorem exists_writeItems (layout : Layout) (depth : Nat) (items : List Json) :
    ∃ inner, writeItems layout depth items = inner ++ (layout.lineBreak depth ++ [']']) ∧
      layout.Indents inner := by
  match items with
  | [] => exact ⟨[], rfl, trivial⟩
  | item :: items =>
      obtain ⟨inner, hinner, hindents⟩ := exists_writeItems layout depth items
      have hitem := (indents_write layout depth item).item depth
      refine ⟨_, ?_, (hitem.append hindents).cons (c := ',') (by decide)⟩
      rw [writeItems, hinner, List.cons_append, List.append_assoc _ inner]

/-- The members behind the first keep the indent, up to the line break in front
of the brace. -/
theorem exists_writeMembers (layout : Layout) (depth : Nat) (members : List (Text × Json)) :
    ∃ inner, writeMembers layout depth members = inner ++ (layout.lineBreak depth ++ ['\x7D']) ∧
      layout.Indents inner := by
  match members with
  | [] => exact ⟨[], rfl, trivial⟩
  | (name, value) :: members =>
      obtain ⟨inner, hinner, hindents⟩ := exists_writeMembers layout depth members
      have hmember := (indents_write layout depth value).member depth name
      refine ⟨_, ?_, (hmember.append hindents).cons (c := ',') (by decide)⟩
      rw [writeMembers, hinner, List.cons_append, List.append_assoc _ inner]

end

/-! ## Documents -/

/-- An object that is not empty: between the first brace and the line break in
front of the last, the text keeps the indent. -/
theorem exists_text_object (layout : Layout) {members : List (Text × Json)} (h : members ≠ []) :
    ∃ inner, text layout (.object members) =
        '\x7B' :: (layout.lineBreak 1 ++ inner ++ (layout.lineBreak 0 ++ ['\x7D'])) ∧
      layout.Indents (layout.lineBreak 1 ++ inner) := by
  obtain ⟨⟨name, value⟩, members, rfl⟩ := List.exists_cons_of_ne_nil h
  obtain ⟨inner, hinner, hindents⟩ := exists_writeMembers layout 0 members
  have hmember := (indents_write layout 0 value).member 0 name
  refine ⟨stringText name ++ layout.colon ++ write layout 1 value ++ inner, ?_, ?_⟩
  · simp only [text, write, hinner, List.append_assoc]
  · rw [← List.append_assoc]
    exact hmember.append hindents

theorem isPlain_text_compact {members : List (Text × Json)} (h : members ≠ []) :
    IsPlain (text .compact (.object members)) := by
  obtain ⟨inner, htext, hindents⟩ := exists_text_object .compact h
  have hinner : IsPlain _ := hindents.isPlain
  have hclose : IsPlain (Layout.compact.lineBreak 0 ++ ['\x7D']) := by decide
  rw [htext, IsPlain, List.forall_mem_cons, List.forall_mem_append]
  exact ⟨by decide, hinner, hclose⟩

/-- The lines of an object that is not empty, in the indented layout. -/
theorem exists_splitOn_text_indented {members : List (Text × Json)} (h : members ≠ []) :
    ∃ body, Text.splitOn '\n' (text .indented (.object members)) =
        ['\x7B'] :: (body ++ [['\x7D']]) ∧
      ∀ line ∈ body, [' ', ' '] <+: line := by
  obtain ⟨inner, htext, hindents⟩ := exists_text_object .indented h
  refine ⟨(Text.splitOn '\n' (Layout.indented.lineBreak 1 ++ inner)).tail, ?_,
    Layout.prefix_of_mem_tail_splitOn hindents⟩
  rw [htext]
  change Text.splitOn '\n' (['\x7B'] ++ '\n' :: ((' ' :: ' ' :: inner) ++ '\n' :: ['\x7D'])) =
    ['\x7B'] :: ((Text.splitOn '\n' ('\n' :: ' ' :: ' ' :: inner)).tail ++ [['\x7D']])
  rw [Text.splitOn_append_sep (by decide), Text.splitOn_append_cons, Text.splitOn_cons_self,
    List.tail_cons]
  rfl

end IdsRules.Json
