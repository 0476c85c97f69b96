import IdsRules.Conversion.Session
import IdsRules.Proofs.Conversion.Tally
import IdsRules.Proofs.Conversion.Verdict
import IdsRules.Proofs.Rule.Fault

/-!
# What stops a conversion

Malformed lines, rules that the filter drops and rules that cannot be written
are counted and passed over. The one thing that stops a conversion is a value at
fault, and it does so at the first line that has one: the lines before it are
converted, that line is counted in the total only, and the lines behind it are
not read at all.
-/

namespace IdsRules

namespace RuleText

/-- A rule text starts with a word, so it is neither blank nor a comment. -/
theorem isSkippable_text {r : RuleText} (h : r.IsValid) : isSkippable r.text = false := by
  have hword : isWord r.header.action = true := by
    have hvalid := h.header_isValid
    simp only [Header.isValid, Bool.and_eq_true] at hvalid
    exact hvalid.1.1.1.1.1.1
  simp only [isWord, Bool.and_eq_true, List.all_eq_true] at hword
  obtain ⟨c, action, haction⟩ : ∃ c action, r.header.action = c :: action := by
    cases hcons : r.header.action with
    | nil => simp [hcons] at hword
    | cons c action => exact ⟨c, action, rfl⟩
  have hc : c ≠ '#' := by
    rintro rfl
    exact absurd (hword.2 '#' (by simp [haction])) (by decide)
  obtain ⟨gap, gaps, hgaps⟩ := List.exists_cons_of_length_eq_add_one h.length_gaps
  rw [text, hgaps, Header.fields, weave_cons, haction]
  simp [isSkippable, hc]

end RuleText

namespace Verdict

/-- A line stops a conversion exactly when it is a rule with a value at fault. -/
theorem isStopped_ofLine_iff {settings : Settings} {line : Text} :
    (ofLine settings line).isStopped = true ↔ Rule.HasFaultyValue line := by
  constructor
  · intro h
    have harises := arises_ofLine settings line
    generalize ofLine settings line = v at h harises
    cases harises with
    | stopped hskip hparse => exact Rule.exists_parse_eq_value_iff.1 ⟨_, hparse⟩
    | _ => cases h
  · intro h
    obtain ⟨fault, hfault⟩ := (@Rule.exists_parse_eq_value_iff settings.keepSource line).2 h
    obtain ⟨r, hvalid, htext, -⟩ := h
    have hskip : isSkippable (Text.trim line) = false := htext ▸ RuleText.isSkippable_text hvalid
    rw [Arises.ofLine_eq (.stopped hskip hfault)]
    rfl

theorem isStopped_ofLine_eq_false_iff {settings : Settings} {line : Text} :
    (ofLine settings line).isStopped = false ↔ ¬Rule.HasFaultyValue line := by
  rw [← @isStopped_ofLine_iff settings line, Bool.not_eq_true]

theorem exists_stopped_of_isStopped {v : Verdict} (h : v.isStopped = true) :
    ∃ fault, v = .stopped fault := by
  cases v with
  | stopped fault => exact ⟨fault, rfl⟩
  | _ => cases h

/-- The fault that a line stops with is the one that its rule is at fault
with. -/
theorem ofLine_eq_stopped_iff {settings : Settings} {line : Text} {fault : Numeral.Fault} :
    ofLine settings line = .stopped fault ↔
      Rule.parse settings.keepSource line = .error (.value fault) := by
  constructor
  · intro h
    cases ofLine_eq_iff.1 h with
    | stopped hskip hparse => exact hparse
  · intro hparse
    have hstopped : (ofLine settings line).isStopped = true :=
      isStopped_ofLine_iff.2 (Rule.exists_parse_eq_value_iff.1 ⟨fault, hparse⟩)
    obtain ⟨fault', hv⟩ := exists_stopped_of_isStopped hstopped
    cases ofLine_eq_iff.1 hv with
    | stopped hskip hparse' =>
        rw [hparse, Except.error.injEq, ParseError.value.injEq] at hparse'
        rw [hv, hparse']

theorem isStopped_ofLine_eq_false_iff_parse {settings : Settings} {line : Text} :
    (ofLine settings line).isStopped = false ↔
      ∀ fault, Rule.parse settings.keepSource line ≠ .error (.value fault) := by
  rw [isStopped_ofLine_eq_false_iff, ← @Rule.exists_parse_eq_value_iff settings.keepSource,
    not_exists]

end Verdict

namespace Batch

theorem linesRead_of_forall_not {settings : Settings} {lines : List Text}
    (h : ∀ line ∈ lines, ¬Rule.HasFaultyValue line) : linesRead settings lines = lines :=
  linesRead_eq_self fun line hline => Verdict.isStopped_ofLine_eq_false_iff.2 (h line hline)

/-- The first line with a value at fault is the last that is read. -/
theorem linesRead_append_cons {settings : Settings} {before : List Text} {line : Text}
    (hbefore : ∀ l ∈ before, ¬Rule.HasFaultyValue l) (hline : Rule.HasFaultyValue line)
    (rest : List Text) : linesRead settings (before ++ line :: rest) = before ++ [line] := by
  induction before with
  | nil => rw [List.nil_append, linesRead, if_pos (Verdict.isStopped_ofLine_iff.2 hline)]; rfl
  | cons l before ih =>
      rw [List.forall_mem_cons] at hbefore
      have hl : (Verdict.ofLine settings l).isStopped = false :=
        Verdict.isStopped_ofLine_eq_false_iff.2 hbefore.1
      rw [List.cons_append, linesRead, if_neg (ne_true_of_eq_false hl), ih hbefore.2]
      rfl

/-- Lines without a value at fault raise none, and each of them has a class. -/
theorem tally_of_forall_not (settings : Settings) {lines : List Text}
    (h : ∀ line ∈ lines, ¬Rule.HasFaultyValue line) :
    (Tally.ofLines settings lines).faults = [] ∧
      (Tally.ofLines settings lines).counters.classified = lines.length := by
  have hfaults : (Tally.ofLines settings lines).faults = [] := by
    rw [← List.length_eq_zero_iff, Tally.length_faults_ofLines, List.countP_eq_zero]
    intro line hline
    exact ne_true_of_eq_false (Verdict.isStopped_ofLine_eq_false_iff.2 (h line hline))
  have hclassified := Tally.classified_ofLines settings lines
  rw [hfaults, List.length_nil, Nat.add_zero] at hclassified
  exact ⟨hfaults, hclassified⟩

end Batch

namespace Converter

/-- A conversion to the end comes to what the lines that it reads come to. -/
theorem convert_eq_tally (c : Converter) (lines : List Text) :
    let t := Tally.ofLines c.settings (Batch.linesRead c.settings lines)
    (c.convert lines).1.counters = c.counters + t.counters ∧
      (c.convert lines).2.documents = t.documents ∧
      (c.convert lines).2.fault.toList = t.faults := by
  have htally : (Batch.convert c.settings lines).tally =
      Tally.ofLines c.settings (Batch.linesRead c.settings lines) :=
    Batch.tally_convertFrom c.settings 0 lines
  rw [← htally]
  exact ⟨rfl, rfl, rfl⟩

/-- Without a value at fault a conversion reads and classifies every line and
gives the document of every line that has one. -/
theorem convert_of_forall_not {c : Converter} {lines : List Text}
    (h : ∀ line ∈ lines, ¬Rule.HasFaultyValue line) :
    (c.convert lines).2.fault = none ∧
      (c.convert lines).1.counters.total = c.counters.total + lines.length ∧
      (c.convert lines).1.counters.classified = c.counters.classified + lines.length ∧
      (c.convert lines).2.documents =
        lines.filterMap fun line => (Verdict.ofLine c.settings line).document? := by
  obtain ⟨hcounters, hdocuments, hfault⟩ := c.convert_eq_tally lines
  obtain ⟨hfaults, hclassified⟩ := Batch.tally_of_forall_not c.settings h
  rw [Batch.linesRead_of_forall_not h] at hcounters hdocuments hfault
  rw [hfaults, Option.toList_eq_nil_iff] at hfault
  refine ⟨hfault, ?_, ?_, ?_⟩
  · rw [hcounters, Counters.total_add, Tally.total_ofLines]
  · rw [hcounters, Counters.classified_add, hclassified]
  · rw [hdocuments, Tally.documents_ofLines]

/-- The first line with a value at fault stops a conversion, which has read it
and the lines before it and has classified those before it only. -/
theorem convert_append_cons {c : Converter} {before : List Text} {line : Text}
    (hbefore : ∀ l ∈ before, ¬Rule.HasFaultyValue l) (hline : Rule.HasFaultyValue line)
    (rest : List Text) :
    (∃ fault, (c.convert (before ++ line :: rest)).2.fault = some fault) ∧
      (c.convert (before ++ line :: rest)).1.counters.total =
        c.counters.total + (before.length + 1) ∧
      (c.convert (before ++ line :: rest)).1.counters.classified =
        c.counters.classified + before.length ∧
      (c.convert (before ++ line :: rest)).2.documents =
        before.filterMap fun l => (Verdict.ofLine c.settings l).document? := by
  obtain ⟨hcounters, hdocuments, hfault⟩ := c.convert_eq_tally (before ++ line :: rest)
  obtain ⟨hfaults, hclassified⟩ := Batch.tally_of_forall_not c.settings hbefore
  have hstopped : (Verdict.ofLine c.settings line).isStopped = true :=
    Verdict.isStopped_ofLine_iff.2 hline
  obtain ⟨fault, hv⟩ := Verdict.exists_stopped_of_isStopped hstopped
  have hlast : Tally.ofLines c.settings [line] = ⟨{ total := 1 }, [], [fault]⟩ := by
    rw [Tally.ofLines_cons, Tally.ofLines_nil, Tally.append_empty, hv]
    rfl
  rw [Batch.linesRead_append_cons hbefore hline, Tally.ofLines_append, hlast, Tally.append_def]
    at hcounters hdocuments hfault
  refine ⟨⟨fault, ?_⟩, ?_, ?_, ?_⟩
  · rw [hfaults] at hfault
    simpa using hfault
  · rw [hcounters, Counters.total_add, Counters.total_add, Tally.total_ofLines]
  · rw [hcounters, Counters.classified_add, Counters.classified_add, hclassified]
    rfl
  · rw [hdocuments, List.append_nil, Tally.documents_ofLines]

/-- A conversion is stopped by a value at fault and by nothing else. Lines
without one are all read and classified, whatever else is wrong with them, and
those without a document are not counted as converted; the first line with one
is the last that is read. -/
theorem convert_stops_iff (c : Converter) (lines : List Text) :
    ((c.convert lines).2.fault = none ↔ ∀ line ∈ lines, ¬Rule.HasFaultyValue line) ∧
      (c.convert lines).1.counters.converted =
        c.counters.converted + (c.convert lines).2.documents.length ∧
      ((c.convert lines).2.fault = none →
        (c.convert lines).1.counters.total = c.counters.total + lines.length ∧
          (c.convert lines).1.counters.classified = c.counters.classified + lines.length ∧
          (c.convert lines).2.documents =
            lines.filterMap fun line => (Verdict.ofLine c.settings line).document?) ∧
      ∀ before line rest, lines = before ++ line :: rest →
        (∀ l ∈ before, ¬Rule.HasFaultyValue l) → Rule.HasFaultyValue line →
          (c.convert lines).1.counters.total = c.counters.total + (before.length + 1) ∧
            (c.convert lines).1.counters.classified = c.counters.classified + before.length ∧
            (c.convert lines).2.documents =
              before.filterMap fun l => (Verdict.ofLine c.settings l).document? := by
  have hnone : (c.convert lines).2.fault = none → ∀ line ∈ lines, ¬Rule.HasFaultyValue line := by
    intro hfault line hline
    have hread : Batch.linesRead c.settings lines = lines :=
      Batch.linesRead_of_fault_eq_none hfault
    obtain ⟨-, -, hfaults⟩ := c.convert_eq_tally lines
    rw [hfault, hread, Option.toList_none, eq_comm, ← List.length_eq_zero_iff,
      Tally.length_faults_ofLines, List.countP_eq_zero] at hfaults
    exact fun hfaulty => hfaults line hline (Verdict.isStopped_ofLine_iff.2 hfaulty)
  refine ⟨⟨hnone, fun h => (convert_of_forall_not h).1⟩, ?_, ?_, ?_⟩
  · obtain ⟨hcounters, hdocuments, -⟩ := c.convert_eq_tally lines
    rw [hcounters, hdocuments, Counters.converted_add, Tally.length_documents_ofLines]
  · exact fun hfault => (convert_of_forall_not (hnone hfault)).2
  · rintro before line rest rfl hbefore hline
    exact (convert_append_cons hbefore hline rest).2

/-- A rule with one option, of the value `value`. -/
def lineOf (value : Text) : Text :=
  "a b c d > e f (k:".toList ++ value ++ [')']

theorem convert_stops_iff_lineOf :
    let before := [lineOf "nan".toList, "a b".toList, "# x".toList]
    let lines := before ++ lineOf "+infIn\u0131ty".toList :: [lineOf "1".toList]
    let c : Converter := { settings := {} }
    (c.convert before).1.counters.classified = 3 ∧ (c.convert lines).2.fault ≠ none ∧
      (c.convert lines).1.counters.total = 4 ∧ (c.convert lines).1.counters.classified = 3 ∧
      (c.convert lines).2.documents =
        before.filterMap fun line => (Verdict.ofLine c.settings line).document? := by
  intro before lines c
  have hbefore : ∀ line ∈ before, ¬Rule.HasFaultyValue line := by
    have hstopped : ∀ line ∈ before, (Verdict.ofLine {} line).isStopped = false := by
      decide +kernel
    exact fun line hline => Verdict.isStopped_ofLine_eq_false_iff.1 (hstopped line hline)
  have hline : Rule.HasFaultyValue (lineOf "+infIn\u0131ty".toList) := by
    have hstopped : (Verdict.ofLine {} (lineOf "+infIn\u0131ty".toList)).isStopped = true := by
      decide +kernel
    exact Verdict.isStopped_ofLine_iff.1 hstopped
  have hsound : (c.convert before).2.fault = none := (convert_stops_iff c before).1.2 hbefore
  obtain ⟨hstops, -, -, hfirst⟩ := convert_stops_iff c lines
  refine ⟨?_, ?_, hfirst before _ _ rfl hbefore hline⟩
  · exact ((convert_stops_iff c before).2.2.1 hsound).2.1
  · exact fun hnone => hstops.1 hnone _ (by simp [lines]) hline

/-- A conversion does not read the lines behind a foreign infinity. -/
theorem not_forall_convert_reads :
    ¬∀ (c : Converter) (lines : List Text), (c.convert lines).2.fault = none ∧
      (c.convert lines).1.counters.total = c.counters.total + lines.length := by
  intro h
  have htotal := (h { settings := {} } [lineOf "\u0131nf".toList, "# x".toList]).2
  exact absurd htotal (by decide +kernel)

end Converter

end IdsRules
