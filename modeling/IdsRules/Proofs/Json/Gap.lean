import IdsRules.Json.Gap
import IdsRules.Json.Printer
import IdsRules.Proofs.Json.Number

/-!
# The layouts differ in their gaps only

A space or a line feed is a gap where it stands between tokens, so whether it is
one depends on all that stands in front of it. What is known of a piece of a
document is therefore two things: what it is without its gaps, and that it ends
in the zone that it starts in (`Leaves`). Both layouts write the same tokens in
the same order, a token has no gap, and the line breaks and the space behind a
colon are gaps; so a value without its gaps is the value in the compact layout.
-/

namespace IdsRules.Json

open Numeral

/-- Read from a zone, the text is `t` without its gaps, and what follows the
text stands in the same zone. -/
structure Leaves (zone : Zone) (s t : Text) : Prop where
  withoutGaps_eq : withoutGapsFrom zone s = t
  afterAll_eq : zone.afterAll s = zone

namespace Leaves

variable {zone : Zone} {s s' t t' : Text} {c : Char}

theorem append (h : Leaves zone s t) (h' : Leaves zone s' t') :
    Leaves zone (s ++ s') (t ++ t') where
  withoutGaps_eq := by
    rw [withoutGapsFrom_append, h.withoutGaps_eq, h.afterAll_eq, h'.withoutGaps_eq]
  afterAll_eq := by
    have happend : zone.afterAll (s ++ s') = (zone.afterAll s).afterAll s' := List.foldl_append
    rw [happend, h.afterAll_eq, h'.afterAll_eq]

theorem nil (zone : Zone) : Leaves zone [] [] :=
  ⟨withoutGapsFrom_nil zone, rfl⟩

/-- A character that is no gap and does not change the zone stays. -/
theorem cons (hgap : zone.isGap c = false) (hzone : zone.after c = zone) (h : Leaves zone s t) :
    Leaves zone (c :: s) (c :: t) where
  withoutGaps_eq := by
    rw [withoutGapsFrom, if_neg (ne_true_of_eq_false hgap), hzone, h.withoutGaps_eq]
  afterAll_eq := by
    have hcons : zone.afterAll (c :: s) = (zone.after c).afterAll s := rfl
    rw [hcons, hzone, h.afterAll_eq]

/-- A gap goes. -/
theorem gap (hgap : zone.isGap c = true) (hzone : zone.after c = zone) (h : Leaves zone s t) :
    Leaves zone (c :: s) t where
  withoutGaps_eq := by rw [withoutGapsFrom, if_pos hgap, hzone, h.withoutGaps_eq]
  afterAll_eq := by
    have hcons : zone.afterAll (c :: s) = (zone.after c).afterAll s := rfl
    rw [hcons, hzone, h.afterAll_eq]

theorem self_of_forall (h : ∀ c ∈ s, zone.isGap c = false ∧ zone.after c = zone) :
    Leaves zone s s := by
  induction s with
  | nil => exact nil zone
  | cons c s ih =>
      rw [List.forall_mem_cons] at h
      exact (ih h.2).cons h.1.1 h.1.2

end Leaves

/-! ## Tokens -/

/-- Inside a string nothing but a double quote and a backslash means
anything. -/
theorem leaves_inside {s : Text} (h : ∀ c ∈ s, c ≠ '"' ∧ c ≠ '\\') : Leaves .inside s s :=
  Leaves.self_of_forall fun c hc => ⟨rfl, by rw [Zone.after, if_neg (h c hc).1, if_neg (h c hc).2]⟩

theorem ne_of_mem_hexadecimal {width n : Nat} {c : Char} (h : c ∈ Text.hexadecimal width n) :
    c ≠ '"' ∧ c ≠ '\\' := by
  have hdigit : ∀ m : Fin 16, Nat.digitChar m.val ≠ '"' ∧ Nat.digitChar m.val ≠ '\\' := by decide
  induction width generalizing n with
  | zero => exact absurd h List.not_mem_nil
  | succ width ih =>
      rw [Text.hexadecimal, List.mem_append, List.mem_singleton] at h
      rcases h with h | rfl
      · exact ih h
      · exact hdigit ⟨n % 16, Nat.mod_lt _ (by decide)⟩

/-- A backslash takes the character behind it along, so no escape ends the
string. -/
theorem leaves_escapeChar (c : Char) : Leaves .inside (escapeChar c) (escapeChar c) := by
  unfold escapeChar
  split_ifs with hquote hbackslash
  iterate 7 exact ⟨rfl, rfl⟩
  · have hdigits : Leaves .inside (Text.hexadecimal 4 c.toNat) _ :=
      leaves_inside fun d hd => ne_of_mem_hexadecimal hd
    exact Leaves.append (s := ['\\', 'u']) ⟨rfl, rfl⟩ hdigits
  · exact leaves_inside (List.forall_mem_singleton.2 ⟨hquote, hbackslash⟩)

/-- A string stands between tokens and keeps all its spaces. -/
theorem leaves_stringText (s : Text) : Leaves .outside (stringText s) (stringText s) := by
  have hinner : Leaves .inside (s.flatMap escapeChar) (s.flatMap escapeChar) := by
    induction s with
    | nil => exact Leaves.nil _
    | cons c s ih => exact (leaves_escapeChar c).append ih
  have happend : Zone.inside.afterAll (s.flatMap escapeChar ++ ['"']) =
      (Zone.inside.afterAll (s.flatMap escapeChar)).afterAll ['"'] := List.foldl_append
  constructor
  · change '"' :: withoutGapsFrom .inside (s.flatMap escapeChar ++ ['"']) = _
    rw [withoutGapsFrom_append, hinner.withoutGaps_eq, hinner.afterAll_eq]
    rfl
  · change Zone.inside.afterAll (s.flatMap escapeChar ++ ['"']) = _
    rw [happend, hinner.afterAll_eq]
    rfl

/-- A character that does not end a word is no gap and starts no string. -/
theorem leaves_word {s : Text} (h : ∀ c ∈ s, Token.endsWord c = false) :
    Leaves .outside s s := by
  refine Leaves.self_of_forall fun c hc => ?_
  have hword := h c hc
  simp only [Token.endsWord, Token.isGap, Bool.or_eq_false_iff, beq_eq_false_iff_ne] at hword
  obtain ⟨⟨⟨⟨⟨hspace, -⟩, hfeed⟩, -⟩, hquote⟩, -⟩ := hword
  exact ⟨by simp [Zone.isGap, hspace, hfeed], by rw [Zone.after, if_neg hquote]⟩

theorem leaves_truthText (b : Bool) : Leaves .outside (truthText b) (truthText b) := by
  cases b <;> exact ⟨rfl, rfl⟩

theorem leaves_integerText (n : Int) : Leaves .outside (integerText n) (integerText n) :=
  leaves_word (Token.endsWord_eq_false_of_number? (Token.number?_integerText n))

theorem leaves_text (x : Binary64) : Leaves .outside x.text x.text := by
  cases hx : x.isFinite with
  | true => exact leaves_word (Token.endsWord_eq_false_of_number? (Token.number?_text hx))
  | false =>
      -- a number that is not finite is written as one of three names
      cases x with
      | nan => exact ⟨rfl, rfl⟩
      | infinite negative => cases negative <;> exact ⟨rfl, rfl⟩
      | finite negative rank => cases hx

/-! ## What a layout puts between tokens -/

theorem leaves_lineBreak (layout : Layout) (depth : Nat) :
    Leaves .outside (layout.lineBreak depth) (Layout.compact.lineBreak depth) := by
  have hspaces : ∀ n, Leaves .outside (List.replicate n ' ') [] := by
    intro n
    induction n with
    | zero => exact Leaves.nil _
    | succ n ih => exact ih.gap rfl rfl
  cases layout with
  | compact => exact Leaves.nil _
  | indented => exact (hspaces _).gap rfl rfl

theorem leaves_colon (layout : Layout) : Leaves .outside layout.colon Layout.compact.colon := by
  cases layout <;> exact ⟨rfl, rfl⟩

/-- A member is its name, a colon and its value, on a line of its own. -/
theorem leaves_member (layout : Layout) (depth : Nat) (name : Text) {s t : Text}
    (h : Leaves .outside s t) :
    Leaves .outside (layout.lineBreak depth ++ (stringText name ++ layout.colon ++ s))
      (Layout.compact.lineBreak depth ++ (stringText name ++ Layout.compact.colon ++ t)) :=
  (leaves_lineBreak layout depth).append
    (((leaves_stringText name).append (leaves_colon layout)).append h)

/-! ## Values -/

mutual

/-- A value without its gaps is the value in the compact layout. -/
theorem leaves_write (layout : Layout) (depth : Nat) (value : Json) :
    Leaves .outside (write layout depth value) (write .compact depth value) := by
  match value with
  | .null => exact ⟨rfl, rfl⟩
  | .bool b => exact leaves_truthText b
  | .integer n => exact leaves_integerText n
  | .float x => exact leaves_text x
  | .string s => exact leaves_stringText s
  | .array [] => exact ⟨rfl, rfl⟩
  | .array (item :: items) =>
      have hitem := (leaves_lineBreak layout (depth + 1)).append (leaves_write layout (depth + 1) item)
      exact (hitem.append (leaves_writeItems layout depth items)).cons rfl rfl
  | .object [] => exact ⟨rfl, rfl⟩
  | .object ((name, value) :: members) =>
      have hmember := leaves_member layout (depth + 1) name (leaves_write layout (depth + 1) value)
      exact (hmember.append (leaves_writeMembers layout depth members)).cons rfl rfl

theorem leaves_writeItems (layout : Layout) (depth : Nat) (items : List Json) :
    Leaves .outside (writeItems layout depth items) (writeItems .compact depth items) := by
  match items with
  | [] => exact (leaves_lineBreak layout depth).append ⟨rfl, rfl⟩
  | item :: items =>
      have hitem := (leaves_lineBreak layout (depth + 1)).append (leaves_write layout (depth + 1) item)
      exact (hitem.append (leaves_writeItems layout depth items)).cons rfl rfl

theorem leaves_writeMembers (layout : Layout) (depth : Nat) (members : List (Text × Json)) :
    Leaves .outside (writeMembers layout depth members) (writeMembers .compact depth members) := by
  match members with
  | [] => exact (leaves_lineBreak layout depth).append ⟨rfl, rfl⟩
  | (name, value) :: members =>
      have hmember := leaves_member layout (depth + 1) name (leaves_write layout (depth + 1) value)
      exact (hmember.append (leaves_writeMembers layout depth members)).cons rfl rfl

end

/-- A document without its gaps is the document in the compact layout. -/
theorem withoutGaps_text (layout : Layout) (value : Json) :
    withoutGaps (text layout value) = text .compact value :=
  (leaves_write layout 0 value).withoutGaps_eq

end IdsRules.Json
