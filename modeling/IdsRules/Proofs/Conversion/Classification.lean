import IdsRules.Proofs.Conversion.LineClass
import IdsRules.Proofs.Json.Indent

/-!
# Lines are classified by what they are

`HasClass` says what it takes for a line to be skipped, to be in error, to be
filtered or to be converted. It asks for the form of the line, the metadata of
the rule in it and the numbers among its options, and for nothing that a
conversion does. A conversion that no value stops treats every line by its
class: its counters count the classes, its documents are those of the converted
lines, and it tells one message about each line in error, by the number of the
line.
-/

namespace IdsRules

/-! ## Classes by description -/

/-- The filter names an identifier, and the rule has metadata with another
one. -/
def Settings.Drops (settings : Settings) (rule : Rule) : Prop :=
  ∃ m, rule.metadata = some m ∧ settings.sidFilter ≠ [] ∧
    Numeral.integerText m.sid ≠ settings.sidFilter

/-- An option of the rule is `nan` or an infinity. -/
def Rule.HasNotFinite (rule : Rule) : Prop :=
  ∃ row ∈ rule.options.rows, row.2 = .float .nan ∨
    ∃ negative, row.2 = .float (.infinite negative)

/-- The line is blank or a comment. -/
def IsSkippedLine (line : Text) : Prop :=
  Text.trim line = [] ∨ ∃ comment, Text.trim line = '#' :: comment

/-- The line is no rule, or it is one that passes the filter and has a number
that is not finite. -/
def IsErrorLine (settings : Settings) (line : Text) : Prop :=
  (¬∃ r : RuleText, r.IsValid ∧ Text.trim line = r.text) ∨
    ∃ rule, Rule.parse settings.keepSource line = .ok rule ∧ ¬settings.Drops rule ∧
      rule.HasNotFinite

/-- The line is a rule that the filter drops. -/
def IsFilteredLine (settings : Settings) (line : Text) : Prop :=
  ∃ rule, Rule.parse settings.keepSource line = .ok rule ∧ settings.Drops rule

/-- The class of a line is the first in this order of which the description
fits. -/
def HasClass (settings : Settings) (line : Text) : LineClass → Prop
  | .skipped => IsSkippedLine line
  | .error => ¬IsSkippedLine line ∧ IsErrorLine settings line
  | .filtered =>
    ¬IsSkippedLine line ∧ ¬IsErrorLine settings line ∧ IsFilteredLine settings line
  | .converted =>
    ¬IsSkippedLine line ∧ ¬IsErrorLine settings line ∧ ¬IsFilteredLine settings line

theorem existsUnique_hasClass (settings : Settings) (line : Text) :
    ∃! k, HasClass settings line k := by
  by_cases hskipped : IsSkippedLine line
  · refine ⟨.skipped, hskipped, fun k hk => ?_⟩
    cases k with
    | skipped => rfl
    | error => exact absurd hskipped hk.1
    | filtered => exact absurd hskipped hk.1
    | converted => exact absurd hskipped hk.1
  by_cases herror : IsErrorLine settings line
  · refine ⟨.error, ⟨hskipped, herror⟩, fun k hk => ?_⟩
    cases k with
    | skipped => exact absurd hk hskipped
    | error => rfl
    | filtered => exact absurd herror hk.2.1
    | converted => exact absurd herror hk.2.1
  by_cases hfiltered : IsFilteredLine settings line
  · refine ⟨.filtered, ⟨hskipped, herror, hfiltered⟩, fun k hk => ?_⟩
    cases k with
    | skipped => exact absurd hk hskipped
    | error => exact absurd hk.2 herror
    | filtered => rfl
    | converted => exact absurd hfiltered hk.2.2
  · refine ⟨.converted, ⟨hskipped, herror, hfiltered⟩, fun k hk => ?_⟩
    cases k with
    | skipped => exact absurd hk hskipped
    | error => exact absurd hk.2 herror
    | filtered => exact absurd hk.2.2 hfiltered
    | converted => rfl

/-! ## What the conversion asks -/

theorem isSkippable_iff {line : Text} :
    isSkippable (Text.trim line) = true ↔ IsSkippedLine line := by
  rw [isSkippable, IsSkippedLine]
  cases Text.trim line <;> simp

theorem Settings.keeps_eq_false_iff {settings : Settings} {rule : Rule} :
    settings.keeps rule = false ↔ settings.Drops rule := by
  rw [keeps, Drops]
  cases rule.metadata with
  | none => simp
  | some m => simp [keepsSid]

theorem Rule.hasNotFinite_iff (rule : Rule) : rule.HasNotFinite ↔ rule.notFinite ≠ [] := by
  have hvalue : ∀ v : OptionValue, (v = .float .nan ∨ ∃ negative, v = .float (.infinite negative)) ↔
      ∃ x, v = .float x ∧ x.isFinite = false := by
    intro v
    constructor
    · rintro (rfl | ⟨negative, rfl⟩)
      · exact ⟨_, rfl, rfl⟩
      · exact ⟨_, rfl, rfl⟩
    · rintro ⟨x, rfl, hx⟩
      cases x with
      | nan => exact Or.inl rfl
      | infinite negative => exact Or.inr ⟨negative, rfl⟩
      | finite negative rank => cases hx
  rw [ne_eq, notFinite_eq_nil_iff, HasNotFinite]
  simp only [hvalue, not_forall, Bool.not_eq_true, exists_prop]

variable {settings : Settings} {line : Text} {rule : Rule}

/-- A rule is no error if the filter drops it or all its numbers are finite. -/
theorem not_isErrorLine_of_parse (hparse : Rule.parse settings.keepSource line = .ok rule)
    (h : settings.Drops rule ∨ ¬rule.HasNotFinite) : ¬IsErrorLine settings line := by
  rintro (hform | ⟨rule', hparse', hkeeps, hnumbers⟩)
  · rw [RuleText.exists_text_eq_iff, not_not, ← Rule.parse_eq_malformed_iff, hparse] at hform
    cases hform
  · rw [hparse, Except.ok.injEq] at hparse'
    subst hparse'
    exact h.elim hkeeps fun hfinite => hfinite hnumbers

theorem Settings.hasNotFinite_of_encode (hrule : rule.IsRead) {error : Json.EncodeError}
    (h : settings.encode rule = .error error) : rule.HasNotFinite := by
  obtain ⟨x, hx, -⟩ := (encode_eq_error_iff hrule).1 h
  rw [Rule.hasNotFinite_iff]
  rintro hnil
  rw [hnil] at hx
  cases hx

theorem Settings.not_hasNotFinite_of_encode (hrule : rule.IsRead) {document : Text}
    (h : settings.encode rule = .ok document) : ¬rule.HasNotFinite := by
  rw [Rule.hasNotFinite_iff, not_not]
  exact ((encode_eq_ok_iff hrule).1 h).1

namespace Verdict

/-- A verdict counts for the class of its line. -/
theorem hasClass_of_class? {k : LineClass} (h : (ofLine settings line).class? = some k) :
    HasClass settings line k := by
  have harises := arises_ofLine settings line
  generalize ofLine settings line = v at h harises
  have hread : ∀ {rule}, Rule.parse settings.keepSource line = .ok rule → rule.IsRead :=
    Rule.isRead_of_parse
  have hline : isSkippable (Text.trim line) = false → ¬IsSkippedLine line := by
    intro hskip
    rw [← isSkippable_iff, hskip]
    exact Bool.false_ne_true
  have hkept : ∀ {rule}, settings.keeps rule = true → ¬settings.Drops rule := by
    intro rule hkeeps hdrops
    rw [Settings.keeps_eq_false_iff.2 hdrops] at hkeeps
    cases hkeeps
  cases harises with
  | skipped hskip =>
      cases h
      exact isSkippable_iff.1 hskip
  | malformed hskip hparse =>
      cases h
      refine ⟨hline hskip, Or.inl ?_⟩
      rw [RuleText.exists_text_eq_iff, not_not]
      exact Rule.parse_eq_malformed_iff.1 hparse
  | stopped hskip hparse => cases h
  | filtered hskip hparse hkeeps =>
      cases h
      have hdrops := Settings.keeps_eq_false_iff.1 hkeeps
      exact ⟨hline hskip, not_isErrorLine_of_parse hparse (Or.inl hdrops), _, hparse, hdrops⟩
  | unencodable hskip hparse hkeeps hencode =>
      cases h
      exact ⟨hline hskip, Or.inr ⟨_, hparse, hkept hkeeps,
        Settings.hasNotFinite_of_encode (hread hparse) hencode⟩⟩
  | converted hskip hparse hkeeps hencode =>
      cases h
      refine ⟨hline hskip, not_isErrorLine_of_parse hparse
        (Or.inr (Settings.not_hasNotFinite_of_encode (hread hparse) hencode)), ?_⟩
      rintro ⟨rule', hparse', hdrops⟩
      rw [hparse, Except.ok.injEq] at hparse'
      exact hkept hkeeps (hparse' ▸ hdrops)

theorem exists_class? (h : ∀ fault, Rule.parse settings.keepSource line ≠ .error (.value fault)) :
    ∃ k, (ofLine settings line).class? = some k := by
  have harises := arises_ofLine settings line
  generalize ofLine settings line = v at harises
  cases harises with
  | stopped hskip hparse => exact absurd hparse (h _)
  | _ => exact ⟨_, rfl⟩

end Verdict

/-! ## Messages about lines -/

namespace Message

/-- The message is one line that says that the line of a number is left out. -/
def IsAbout (number : Nat) (m : Message) : Prop :=
  ∃ reason : Text, '\n' ∉ reason ∧
    m.text = "[!] Ligne ".toList ++ Numeral.naturalText number ++ ' ' :: (reason ++ ['\n'])

theorem isAbout_malformedLine (number : Nat) : IsAbout number (.malformedLine number) := by
  have hlines : lines (.malformedLine number) =
      ["[!] Ligne ".toList ++ Numeral.naturalText number ++ " ignorée : ".toList
        ++ ParseError.malformed.message] := rfl
  have hmessage : ParseError.malformed.message = "invalid rule format".toList := rfl
  refine ⟨"ignorée : invalid rule format".toList, by simp, ?_⟩
  rw [text, hlines, List.flatMap_singleton, hmessage]
  simp

theorem lineFeed_not_mem_message (layout : Json.Layout) (error : Json.EncodeError) :
    '\n' ∉ error.message layout := by
  cases error with
  | tooManyDigits =>
      change '\n' ∉ "Exceeds the limit (4300 digits) for integer string conversion; ".toList ++
        "use sys.set_int_max_str_digits() to increase the limit".toList
      simp
  | notFinite x =>
      have htext : '\n' ∉ x.text := fun h => absurd (Json.isPlain_text x _ h) (by decide)
      cases layout with
      | compact =>
          change '\n' ∉ "Out of range float values are not JSON compliant".toList ++ []
          simp
      | indented =>
          change '\n' ∉ "Out of range float values are not JSON compliant".toList ++
            (": ".toList ++ x.text)
          simp [htext]

theorem isAbout_unencodableLine (number : Nat) (layout : Json.Layout) (error : Json.EncodeError) :
    IsAbout number (.unencodableLine number layout error) := by
  have hlines : lines (.unencodableLine number layout error) =
      ["[!] Ligne ".toList ++ Numeral.naturalText number
        ++ " : échec de l\x27encodage JSON (".toList ++ error.message layout ++ ")".toList] := rfl
  refine ⟨": échec de l\x27encodage JSON (".toList ++ error.message layout ++ [')'], ?_, ?_⟩
  · simp [lineFeed_not_mem_message layout error]
  · rw [text, hlines, List.flatMap_singleton]
    simp

end Message

/-! ## Lists of classes -/

namespace LineClass

def linesIn (k : LineClass) (lines : List Text) (classes : List LineClass) : List Text :=
  ((lines.zip classes).filter fun p => p.2 = k).map Prod.fst

/-- The numbers of the lines of a class, where the first line has the number
`first`. -/
def numbersFrom (k : LineClass) (first : Nat) (classes : List LineClass) : List Nat :=
  ((classes.zipIdx first).filter fun p => p.1 = k).map Prod.snd

theorem linesIn_cons (k k' : LineClass) (line : Text) (lines : List Text)
    (classes : List LineClass) :
    k.linesIn (line :: lines) (k' :: classes) =
      if k' = k then line :: k.linesIn lines classes else k.linesIn lines classes := by
  by_cases h : k' = k <;> simp [linesIn, h]

theorem numbersFrom_cons (k k' : LineClass) (first : Nat) (classes : List LineClass) :
    k.numbersFrom first (k' :: classes) =
      if k' = k then first :: k.numbersFrom (first + 1) classes
      else k.numbersFrom (first + 1) classes := by
  by_cases h : k' = k <;> simp [numbersFrom, h]

end LineClass

section Lists

variable {lines : List Text} {classes : List LineClass}

theorem forall₂_linesIn
    (h : List.Forall₂ (fun line k => (Verdict.ofLine settings line).class? = some k)
      lines classes) :
    List.Forall₂ (fun line document => Verdict.ofLine settings line = .converted document)
      (LineClass.converted.linesIn lines classes)
      (lines.filterMap fun line => (Verdict.ofLine settings line).document?) := by
  induction h with
  | nil => exact .nil
  | @cons line k lines classes hk _ ih =>
      rw [LineClass.linesIn_cons, List.filterMap_cons]
      cases hv : Verdict.ofLine settings line with
      | stopped fault => rw [hv] at hk; cases hk
      | converted document => rw [hv] at hk; cases hk; exact .cons hv ih
      | _ => rw [hv] at hk; cases hk; exact ih

theorem forall₂_numbersFrom
    (h : List.Forall₂ (fun line k => (Verdict.ofLine settings line).class? = some k)
      lines classes) (first : Nat) :
    List.Forall₂ Message.IsAbout (LineClass.error.numbersFrom first classes)
      ((lines.zipIdx first).flatMap fun p =>
        Message.ofVerdict settings p.2 (Verdict.ofLine settings p.1)) := by
  induction h generalizing first with
  | nil => exact .nil
  | @cons line k lines classes hk _ ih =>
      rw [LineClass.numbersFrom_cons, List.zipIdx_cons, List.flatMap_cons]
      cases hv : Verdict.ofLine settings line with
      | stopped fault => rw [hv] at hk; cases hk
      | malformed =>
          rw [hv] at hk
          cases hk
          exact .cons (Message.isAbout_malformedLine first) (ih (first + 1))
      | unencodable error =>
          rw [hv] at hk
          cases hk
          exact .cons (Message.isAbout_unencodableLine first settings.layout error)
            (ih (first + 1))
      | _ => rw [hv] at hk; cases hk; exact ih (first + 1)

theorem filterMap_class?
    (h : List.Forall₂ (fun line k => (Verdict.ofLine settings line).class? = some k)
      lines classes) :
    (lines.filterMap fun line => (Verdict.ofLine settings line).class?) = classes := by
  induction h with
  | nil => rfl
  | cons hk _ ih => rw [List.filterMap_cons, hk, ih]

end Lists

namespace Converter

/-- A conversion without a value at fault treats every line by its class, which
is one and depends on the line and the settings only. Its counters count the
classes, its documents are those of the rules in the converted lines, and its
messages are about the lines in error, all in the order of the lines. -/
theorem convert_classifies (c : Converter) {lines : List Text}
    (h : ∀ line ∈ lines, ∀ fault,
      Rule.parse c.settings.keepSource line ≠ .error (.value fault)) :
    (∀ line, ∃! k, HasClass c.settings line k) ∧
      ∃ classes, List.Forall₂ (HasClass c.settings) lines classes ∧
        (c.convert lines).2.fault = none ∧
        (c.convert lines).1.counters = c.counters + {
          total := lines.length
          converted := classes.count .converted
          errors := classes.count .error
          filtered := classes.count .filtered
          skipped := classes.count .skipped } ∧
        List.Forall₂
          (fun line document => ∃ rule, Rule.parse c.settings.keepSource line = .ok rule ∧
            c.settings.encode rule = .ok document)
          (LineClass.converted.linesIn lines classes) (c.convert lines).2.documents ∧
        List.Forall₂ Message.IsAbout (LineClass.error.numbersFrom 1 classes)
          (c.convert lines).2.messages := by
  refine ⟨existsUnique_hasClass c.settings, ?_⟩
  have hfaulty : ∀ line ∈ lines, ¬Rule.HasFaultyValue line := by
    intro line hline hfaulty
    obtain ⟨fault, hfault⟩ := Rule.exists_parse_eq_value_iff.2 hfaulty
    exact h line hline fault hfault
  have hread : Batch.linesRead c.settings lines = lines := Batch.linesRead_of_forall_not hfaulty
  obtain ⟨classes, hclasses⟩ :=
    exists_forall₂ fun line hline => Verdict.exists_class? (h line hline)
  refine ⟨classes, hclasses.imp fun _ _ hk => Verdict.hasClass_of_class? hk,
    (convert_of_forall_not hfaulty).1, ?_, ?_, ?_⟩
  · have hcounters := Batch.counters_convert c.settings lines
    rw [hread, filterMap_class? hclasses] at hcounters
    exact congrArg (c.counters + ·) hcounters
  · have hdocuments := Batch.documents_convert c.settings lines
    rw [hread] at hdocuments
    change List.Forall₂ _ _ (Batch.convert c.settings lines).documents
    rw [hdocuments]
    refine (forall₂_linesIn hclasses).imp fun line document hline => ?_
    cases Verdict.ofLine_eq_iff.1 hline with
    | converted hskip hparse hkeeps hencode => exact ⟨_, hparse, hencode⟩
  · have hmessages := Batch.messages_convert c.settings lines
    rw [hread] at hmessages
    change List.Forall₂ _ _ (Batch.convert c.settings lines).messages
    rw [hmessages]
    exact forall₂_numbersFrom hclasses 1

/-- Lines of every class. Of the two rules with a number that is not finite, the
filter drops the second before the number is looked at. -/
def mixedLines : List Text :=
  ["\u3000".toList, "\t# a b c d > e f (k)".toList, "a b c d > e f ()".toList,
    "a b c d > e f (sid:7;k:-nan)".toList, "a b c d > e f (sid:8;k:inf)".toList,
    "a b c d > e f (sid:\"007\")".toList, " a b c any > e any (k)".toList]

theorem convert_classifies_mixedLines :
    let c : Converter := { settings := { sidFilter := "7".toList } }
    ∃ classes, List.Forall₂ (HasClass c.settings) mixedLines classes ∧
      classes.count .skipped = 2 ∧ classes.count .error = 2 ∧ classes.count .filtered = 1 ∧
      classes.count .converted = 2 ∧
      List.Forall₂ Message.IsAbout (LineClass.error.numbersFrom 1 classes)
        [.malformedLine 3, .unencodableLine 4 .compact (.notFinite .nan)] := by
  intro c
  have hsound : ∀ line ∈ mixedLines, ∀ fault,
      Rule.parse c.settings.keepSource line ≠ .error (.value fault) := by
    intro line hline fault hfault
    have hstopped : ∀ line ∈ mixedLines, (Verdict.ofLine c.settings line).isStopped = false := by
      decide +kernel
    exact Verdict.isStopped_ofLine_eq_false_iff.1 (hstopped line hline)
      (Rule.exists_parse_eq_value_iff.1 ⟨fault, hfault⟩)
  obtain ⟨-, classes, hclasses, -, hcounters, -, hmessages⟩ := convert_classifies c hsound
  have hcount : (c.convert mixedLines).1.counters = ⟨7, 2, 2, 1, 2⟩ := by decide +kernel
  have htold : (c.convert mixedLines).2.messages =
      [.malformedLine 3, .unencodableLine 4 .compact (.notFinite .nan)] := by decide +kernel
  rw [hcount] at hcounters
  rw [htold] at hmessages
  refine ⟨classes, hclasses, ?_, ?_, ?_, ?_, hmessages⟩
  · simpa [c, Counters.zero] using (congrArg Counters.skipped hcounters).symm
  · simpa [c, Counters.zero] using (congrArg Counters.errors hcounters).symm
  · simpa [c, Counters.zero] using (congrArg Counters.filtered hcounters).symm
  · simpa [c, Counters.zero] using (congrArg Counters.converted hcounters).symm

end Converter

end IdsRules
