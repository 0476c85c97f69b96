import IdsRules.Json.Printer
import IdsRules.Proofs.Json.Number

/-!
# The tokens of a written value

The reader takes one character at a time, so what it makes of a text depends on
where the text stops: a word goes on until something ends it. `IsDelimited` says
that the rest of a document ends a word, and the results about reading are
equations over every such rest. Strings and punctuation end by themselves.

`readFrom?_write` puts the pieces together: in both layouts a value is read as
its own tokens, whatever stands behind it. Line breaks and the space behind a
colon leave no trace.
-/

namespace IdsRules.Json

open Numeral

namespace Token

/-! ## One step -/

theorem readFrom?_of_step {state state' : State} {c : Char} {tokens : List Token}
    (h : step state c = some (state', tokens)) (s : Text) :
    readFrom? state (c :: s) = (readFrom? state' s).map (tokens ++ ·) := by
  rw [readFrom?_cons, h, Option.bind_some]

theorem readFrom?_of_silent_step {state state' : State} {c : Char}
    (h : step state c = some (state', [])) (s : Text) :
    readFrom? state (c :: s) = readFrom? state' s := by
  rw [readFrom?_of_step h]
  simp

/-! ## Strings -/

/-- Hexadecimal digits are taken into the code unit that is being read. -/
theorem readFrom?_hexadecimal (read : Text) (high : Option Nat) (left value width n : Nat)
    (s : Text) :
    readFrom? (.unit read high (left + width) value) (Text.hexadecimal width n ++ s) =
      readFrom? (.unit read high left (value * 16 ^ width + n % 16 ^ width)) s := by
  induction width generalizing left n s with
  | zero => simp [Text.hexadecimal, Nat.mod_one]
  | succ width ih =>
      have hdigit := Text.hexadecimalDigit?_digitChar (Nat.mod_lt n (by decide : 0 < 16))
      have hstep : step (.unit read high (left + 1) (value * 16 ^ width + n / 16 % 16 ^ width))
          (Nat.digitChar (n % 16)) =
          some (.unit read high left
            ((value * 16 ^ width + n / 16 % 16 ^ width) * 16 + n % 16), []) := by
        simp only [step, hdigit]
      have hvalue : (value * 16 ^ width + n / 16 % 16 ^ width) * 16 + n % 16
          = value * 16 ^ (width + 1) + n % 16 ^ (width + 1) := by
        rw [Nat.pow_succ, Nat.mul_comm (16 ^ width) 16, Nat.mod_mul]
        ring
      rw [Text.hexadecimal, List.append_assoc, List.singleton_append]
      rw [show left + (width + 1) = left + 1 + width by omega, ih (left + 1)]
      rw [readFrom?_of_silent_step hstep, hvalue]

/-- A control character is read back from its code unit. -/
theorem readFrom?_controlUnit (read : Text) {c : Char} (hc : c.toNat < 0x20) (s : Text) :
    readFrom? (.unit read none 3 0) (Text.hexadecimal 4 c.toNat ++ s) =
      readFrom? (.string (c :: read) none) s := by
  have hdigit := Text.hexadecimalDigit?_digitChar (Nat.mod_lt c.toNat (by decide : 0 < 16))
  have hvalue : (0 * 16 ^ 3 + c.toNat / 16 % 16 ^ 3) * 16 + c.toNat % 16 = c.toNat := by omega
  have hunit : takeUnit read none c.toNat = some (.string (c :: read) none) := by
    have hhigh : ¬0xD800 ≤ c.toNat := by omega
    have hlow : ¬0xDC00 ≤ c.toNat := by omega
    simp [takeUnit, hhigh, hlow, Char.ofNat_toNat]
  have hstep : step (.unit read none 0 (0 * 16 ^ 3 + c.toNat / 16 % 16 ^ 3))
      (Nat.digitChar (c.toNat % 16)) = some (.string (c :: read) none, []) := by
    simp only [step, hdigit, hvalue, hunit, Option.map_some]
  rw [Text.hexadecimal, List.append_assoc, List.singleton_append]
  rw [show (3 : Nat) = 0 + 3 from rfl, readFrom?_hexadecimal, readFrom?_of_silent_step hstep]

/-- A character that is written with a letter is read back from the letter. -/
theorem readFrom?_escapeLetter (read : Text) {letter c : Char} (hletter : letter ≠ 'u')
    (hc : escaped? letter = some c) (s : Text) :
    readFrom? (.string read none) ('\\' :: letter :: s) =
      readFrom? (.string (c :: read) none) s := by
  have hback : step (.string read none) '\\' = some (.escape read none, []) := rfl
  have hstep : step (.escape read none) letter = some (.string (c :: read) none, []) := by
    simp [step, hletter, hc]
  rw [readFrom?_of_silent_step hback, readFrom?_of_silent_step hstep]

/-- Inside a string, an escaped character is read as the character. -/
theorem readFrom?_escapeChar (read : Text) (c : Char) (s : Text) :
    readFrom? (.string read none) (escapeChar c ++ s) =
      readFrom? (.string (c :: read) none) s := by
  by_cases hquote : c = '"'
  · subst hquote
    exact readFrom?_escapeLetter read (by decide) rfl s
  by_cases hback : c = '\\'
  · subst hback
    exact readFrom?_escapeLetter read (by decide) rfl s
  by_cases hline : c = '\n'
  · subst hline
    exact readFrom?_escapeLetter read (by decide) rfl s
  by_cases hreturn : c = '\r'
  · subst hreturn
    exact readFrom?_escapeLetter read (by decide) rfl s
  by_cases htab : c = '\t'
  · subst htab
    exact readFrom?_escapeLetter read (by decide) rfl s
  by_cases hform : c = '\x0C'
  · subst hform
    exact readFrom?_escapeLetter read (by decide) rfl s
  by_cases hbackspace : c = '\x08'
  · subst hbackspace
    exact readFrom?_escapeLetter read (by decide) rfl s
  rw [escapeChar, if_neg hquote, if_neg hback, if_neg hline, if_neg hreturn, if_neg htab,
    if_neg hform, if_neg hbackspace]
  by_cases hcontrol : c.toNat < 0x20
  · have hopen : step (.string read none) '\\' = some (.escape read none, []) := rfl
    have hunit : step (.escape read none) 'u' = some (.unit read none 3 0, []) := rfl
    rw [if_pos hcontrol, List.cons_append, List.cons_append, readFrom?_of_silent_step hopen,
      readFrom?_of_silent_step hunit, readFrom?_controlUnit read hcontrol]
  · have hstep : step (.string read none) c = some (.string (c :: read) none, []) := by
      simp [step, hquote, hback, hcontrol]
    rw [if_neg hcontrol]
    exact readFrom?_of_silent_step hstep s

theorem readFrom?_escaped (read s rest : Text) :
    readFrom? (.string read none) (s.flatMap escapeChar ++ '"' :: rest) =
      (readFrom? .gap rest).map (Token.string (read.reverse ++ s) :: ·) := by
  induction s generalizing read with
  | nil =>
      have hclose : step (.string read none) '"' = some (.gap, [.string read.reverse]) := rfl
      rw [List.flatMap_nil, List.nil_append, readFrom?_of_step hclose, List.append_nil]
      rfl
  | cons c s ih =>
      rw [List.flatMap_cons, List.append_assoc, readFrom?_escapeChar, ih]
      simp

/-- A string token is read as the string. -/
theorem readFrom?_stringText (s rest : Text) :
    readFrom? .gap (stringText s ++ rest) =
      (readFrom? .gap rest).map (Token.string s :: ·) := by
  have hopen : step .gap '"' = some (.string [] none, []) := rfl
  rw [stringText, List.cons_append, List.append_assoc, readFrom?_of_silent_step hopen]
  exact readFrom?_escaped [] s rest

/-! ## Words -/

/-- What follows a word ends it: the end of the text, or a character that is no
part of a word. -/
def IsDelimited (rest : Text) : Prop :=
  ∀ c ∈ rest.head?, endsWord c = true

theorem isDelimited_nil : IsDelimited [] := by
  intro c hc
  cases hc

theorem readFrom?_word (read : Text) {w : Text} (hw : ∀ c ∈ w, endsWord c = false) (s : Text) :
    readFrom? (.word read) (w ++ s) = readFrom? (.word (w.reverse ++ read)) s := by
  induction w generalizing read with
  | nil => rfl
  | cons c w ih =>
      have hc : endsWord c = false := hw c List.mem_cons_self
      have hstep : step (.word read) c = some (.word (c :: read), []) := by
        rw [step, if_neg (by simp [hc])]
      rw [List.cons_append, readFrom?_of_silent_step hstep,
        ih (c :: read) fun d hd => hw d (List.mem_cons_of_mem c hd)]
      simp

/-- The end of a word completes its token and is read as between tokens. -/
theorem readFrom?_word_end {read rest : Text} {token : Token}
    (hword : word? read.reverse = some token) (hrest : IsDelimited rest) :
    readFrom? (.word read) rest = (readFrom? .gap rest).map (token :: ·) := by
  cases rest with
  | nil =>
      change (word? read.reverse).map (fun t => [t]) = some [token]
      rw [hword, Option.map_some]
  | cons c rest =>
      have hc : endsWord c = true := hrest c rfl
      have hstep : step (.word read) c = some ((start c).1, token :: (start c).2) := by
        rw [step, if_pos hc, hword, Option.map_some]
      have hgap : step .gap c = some ((start c).1, (start c).2) := rfl
      rw [readFrom?_of_step hstep, readFrom?_of_step hgap, Option.map_map]
      rfl

/-- A word that something ends is read as its token. -/
theorem readFrom?_gap_word {w rest : Text} {token : Token} (hw : ∀ c ∈ w, endsWord c = false)
    (hword : word? w = some token) (hrest : IsDelimited rest) :
    readFrom? .gap (w ++ rest) = (readFrom? .gap rest).map (token :: ·) := by
  cases w with
  | nil => cases hword
  | cons c w =>
      have hc : endsWord c = false := hw c List.mem_cons_self
      have hstart : step .gap c = some (.word [c], []) := by
        simp only [endsWord, Bool.or_eq_false_iff, Option.isSome_eq_false_iff,
          Option.isNone_iff_eq_none, beq_eq_false_iff_ne] at hc
        rw [step, start, if_neg (by simp [hc.1.1]), if_neg hc.1.2, hc.2]
      rw [List.cons_append, readFrom?_of_silent_step hstart,
        readFrom?_word [c] fun d hd => hw d (List.mem_cons_of_mem c hd)]
      apply readFrom?_word_end _ hrest
      simpa using hword

/-- A literal name that something ends is read as its value. -/
theorem readFrom?_gap_name {w rest : Text} {v : Json}
    (hw : w.all (fun c => !endsWord c) = true) (hname : word? w = some (.literal v))
    (hrest : IsDelimited rest) :
    readFrom? .gap (w ++ rest) = (readFrom? .gap rest).map (.literal v :: ·) := by
  apply readFrom?_gap_word _ hname hrest
  intro c hc
  simpa using List.all_eq_true.1 hw c hc

/-- A number that something ends is read as the number. -/
theorem readFrom?_gap_number {w rest : Text} {v : Json} (hnumber : number? w = some v)
    (hrest : IsDelimited rest) :
    readFrom? .gap (w ++ rest) = (readFrom? .gap rest).map (.literal v :: ·) :=
  readFrom?_gap_word (endsWord_eq_false_of_number? hnumber) (word?_of_number? hnumber) hrest

/-! ## Punctuation and gaps -/

theorem readFrom?_lineBreak (layout : Layout) (depth : Nat) (s : Text) :
    readFrom? .gap (layout.lineBreak depth ++ s) = readFrom? .gap s := by
  have hspaces (n : Nat) : readFrom? .gap (List.replicate n ' ' ++ s) = readFrom? .gap s := by
    induction n with
    | zero => rfl
    | succ n ih =>
        have hstep : step .gap ' ' = some (.gap, []) := rfl
        rw [List.replicate_succ, List.cons_append, readFrom?_of_silent_step hstep, ih]
  cases layout with
  | compact => rfl
  | indented =>
      have hstep : step .gap '\n' = some (.gap, []) := rfl
      rw [Layout.lineBreak, List.cons_append, readFrom?_of_silent_step hstep, hspaces]

theorem readFrom?_colon (layout : Layout) (s : Text) :
    readFrom? .gap (layout.colon ++ s) = (readFrom? .gap s).map (Token.colon :: ·) := by
  have hcolon : step .gap ':' = some (.gap, [.colon]) := rfl
  have hspace : step .gap ' ' = some (.gap, []) := rfl
  cases layout with
  | compact => exact readFrom?_of_step hcolon s
  | indented =>
      change readFrom? .gap (':' :: ' ' :: s) = _
      rw [readFrom?_of_step hcolon, readFrom?_of_silent_step hspace]
      rfl

theorem readFrom?_punctuation {c : Char} {token : Token}
    (h : step .gap c = some (.gap, [token])) (s : Text) :
    readFrom? .gap (c :: s) = (readFrom? .gap s).map (token :: ·) :=
  readFrom?_of_step h s

theorem isDelimited_lineBreak_append (layout : Layout) (depth : Nat) {c : Char} (s : Text)
    (hc : endsWord c = true) : IsDelimited (layout.lineBreak depth ++ c :: s) := by
  intro d hd
  cases layout with
  | compact =>
      cases hd
      exact hc
  | indented =>
      cases hd
      rfl

end Token

/-! ## Values -/

mutual

def tokens : Json → List Token
  | .string s => [.string s]
  | .array [] => [.openArray, .closeArray]
  | .array (item :: items) => .openArray :: (tokens item ++ tokensOfItems items)
  | .object [] => [.openObject, .closeObject]
  | .object ((name, value) :: members) =>
    .openObject :: .string name :: .colon :: (tokens value ++ tokensOfMembers members)
  | value => [.literal value]

/-- The tokens of the items after the first, and of the end of the array. -/
def tokensOfItems : List Json → List Token
  | [] => [.closeArray]
  | item :: items => .comma :: (tokens item ++ tokensOfItems items)

/-- The tokens of the members after the first, and of the end of the object. -/
def tokensOfMembers : List (Text × Json) → List Token
  | [] => [.closeObject]
  | (name, value) :: members =>
    .comma :: .string name :: .colon :: (tokens value ++ tokensOfMembers members)

end

theorem isDelimited_writeItems (layout : Layout) (depth : Nat) (items : List Json) (rest : Text) :
    Token.IsDelimited (writeItems layout depth items ++ rest) := by
  cases items with
  | nil =>
      rw [writeItems, List.append_assoc]
      exact Token.isDelimited_lineBreak_append layout depth rest rfl
  | cons item items =>
      intro c hc
      cases hc
      rfl

theorem isDelimited_writeMembers (layout : Layout) (depth : Nat) (members : List (Text × Json))
    (rest : Text) : Token.IsDelimited (writeMembers layout depth members ++ rest) := by
  cases members with
  | nil =>
      rw [writeMembers, List.append_assoc]
      exact Token.isDelimited_lineBreak_append layout depth rest rfl
  | cons member members =>
      intro c hc
      cases hc
      rfl

mutual

/-- A value that can be written is read as its tokens, in both layouts and at
every depth. -/
theorem readFrom?_write (layout : Layout) (depth : Nat) (v : Json) (hv : faults v = [])
    {rest : Text} (hrest : Token.IsDelimited rest) :
    Token.readFrom? .gap (write layout depth v ++ rest) =
      (Token.readFrom? .gap rest).map (tokens v ++ ·) := by
  match v with
  | .null =>
      exact Token.readFrom?_gap_name (w := "null".toList) (by decide) rfl hrest
  | .bool true =>
      exact Token.readFrom?_gap_name (w := "true".toList) (by decide) rfl hrest
  | .bool false =>
      exact Token.readFrom?_gap_name (w := "false".toList) (by decide) rfl hrest
  | .integer n => exact Token.readFrom?_gap_number (Token.number?_integerText n) hrest
  | .float x =>
      have hx : x.isFinite = true := by
        by_contra hx
        simp [faults, hx] at hv
      exact Token.readFrom?_gap_number (Token.number?_text hx) hrest
  | .string s => exact Token.readFrom?_stringText s rest
  | .array [] =>
      rw [write, List.cons_append, Token.readFrom?_punctuation rfl, List.singleton_append,
        Token.readFrom?_punctuation rfl, Option.map_map]
      rfl
  | .array (item :: items) =>
      rw [faults, faultsOfItems, List.append_eq_nil_iff] at hv
      have hitems := isDelimited_writeItems layout depth items rest
      rw [write, List.cons_append, Token.readFrom?_punctuation rfl, List.append_assoc,
        List.append_assoc, Token.readFrom?_lineBreak,
        readFrom?_write layout (depth + 1) item hv.1 hitems,
        readFrom?_writeItems layout depth items hv.2 hrest, Option.map_map, Option.map_map]
      simp [Function.comp_def, tokens]
  | .object [] =>
      rw [write, List.cons_append, Token.readFrom?_punctuation rfl, List.singleton_append,
        Token.readFrom?_punctuation rfl, Option.map_map]
      rfl
  | .object ((name, value) :: members) =>
      rw [faults, faultsOfMembers, List.append_eq_nil_iff] at hv
      have hmembers := isDelimited_writeMembers layout depth members rest
      simp only [write, List.cons_append, List.append_assoc]
      rw [Token.readFrom?_punctuation rfl, Token.readFrom?_lineBreak, Token.readFrom?_stringText,
        Token.readFrom?_colon, readFrom?_write layout (depth + 1) value hv.1 hmembers,
        readFrom?_writeMembers layout depth members hv.2 hrest]
      simp [Function.comp_def, tokens]

theorem readFrom?_writeItems (layout : Layout) (depth : Nat) (items : List Json)
    (hv : faultsOfItems items = []) {rest : Text} (hrest : Token.IsDelimited rest) :
    Token.readFrom? .gap (writeItems layout depth items ++ rest) =
      (Token.readFrom? .gap rest).map (tokensOfItems items ++ ·) := by
  match items with
  | [] =>
      rw [writeItems, List.append_assoc, Token.readFrom?_lineBreak, List.singleton_append,
        Token.readFrom?_punctuation rfl]
      rfl
  | item :: items =>
      rw [faultsOfItems, List.append_eq_nil_iff] at hv
      have hitems := isDelimited_writeItems layout depth items rest
      rw [writeItems, List.cons_append, Token.readFrom?_punctuation rfl, List.append_assoc,
        List.append_assoc, Token.readFrom?_lineBreak,
        readFrom?_write layout (depth + 1) item hv.1 hitems,
        readFrom?_writeItems layout depth items hv.2 hrest, Option.map_map, Option.map_map]
      simp [Function.comp_def, tokensOfItems]

theorem readFrom?_writeMembers (layout : Layout) (depth : Nat) (members : List (Text × Json))
    (hv : faultsOfMembers members = []) {rest : Text} (hrest : Token.IsDelimited rest) :
    Token.readFrom? .gap (writeMembers layout depth members ++ rest) =
      (Token.readFrom? .gap rest).map (tokensOfMembers members ++ ·) := by
  match members with
  | [] =>
      rw [writeMembers, List.append_assoc, Token.readFrom?_lineBreak, List.singleton_append,
        Token.readFrom?_punctuation rfl]
      rfl
  | (name, value) :: members =>
      rw [faultsOfMembers, List.append_eq_nil_iff] at hv
      have hmembers := isDelimited_writeMembers layout depth members rest
      simp only [writeMembers, List.cons_append, List.append_assoc]
      rw [Token.readFrom?_punctuation rfl, Token.readFrom?_lineBreak, Token.readFrom?_stringText,
        Token.readFrom?_colon, readFrom?_write layout (depth + 1) value hv.1 hmembers,
        readFrom?_writeMembers layout depth members hv.2 hrest]
      simp [Function.comp_def, tokensOfMembers]

end

/-- A document is read as the tokens of its value. -/
theorem read?_text (layout : Layout) (v : Json) (hv : faults v = []) :
    Token.read? (text layout v) = some (tokens v) := by
  have h := readFrom?_write layout 0 v hv Token.isDelimited_nil
  rw [List.append_nil] at h
  change Token.readFrom? .gap (write layout 0 v) = some (tokens v)
  rw [h]
  change some (tokens v ++ []) = some (tokens v)
  rw [List.append_nil]

end IdsRules.Json
