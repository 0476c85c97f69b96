import IdsRules.Proofs.Conversion.LineClass
import IdsRules.Proofs.Numeral.Canonical

/-!
# Filtering before and after a conversion

The filter is asked of rules, before their documents are written. A document
still shows the identifier of its rule, so the filter can be asked of documents
as well, and a conversion with a filter gives the documents that pass it out of
a conversion without one. What differs is a rule that the filter drops although
it could not be written: it is no error any more and nothing is told about it.
-/

namespace IdsRules

def Settings.withFilter (settings : Settings) (filter : Text) : Settings :=
  { settings with sidFilter := filter }

/-- Whether a document has no metadata, or the identifier in its metadata has
this numeral. An identifier that is left out is zero. -/
def Rule.showsSid (numeral document : Text) : Bool :=
  (Json.parse? document).any fun j =>
    match j.member? "metadata".toList with
    | none => true
    | some m => (integerAtOr? "sid" m).any fun sid => Numeral.integerText sid == numeral

/-- The documents of a rule that was read show what the filter is asked. -/
theorem Rule.IsRead.showsSid_eq {rule : Rule} (h : rule.IsRead) (settings : Settings)
    {filter : Text} (hfilter : filter ≠ []) {filter' document : Text}
    (hencode : (settings.withFilter filter').encode rule = .ok document) :
    Rule.showsSid filter document = (settings.withFilter filter).keeps rule := by
  obtain ⟨hfaults, rfl⟩ := Json.encode_eq_ok_iff.1 hencode
  have hdocument := Json.parse?_text (settings.withFilter filter').layout hfaults
  -- metadata that says nothing would be left out of the document, but none is read
  have hmetadata : rule.normal.metadata = rule.metadata := by
    have hempty := h.metadata_isEmpty
    rw [Rule.normal]
    cases hm : rule.metadata with
    | none => rfl
    | some m => simp [hempty m hm]
  rw [Rule.showsSid, hdocument, Option.any_some, Rule.member?_metadata_toJson, hmetadata,
    Settings.keeps]
  cases rule.metadata with
  | none => rfl
  | some m =>
      obtain ⟨-, -, hsid, -, -⟩ := Rule.metadata_of_metadataMembers m
      simp [hsid, Settings.keepsSid, Settings.withFilter, hfilter]

theorem Settings.keeps_withFilter_nil (settings : Settings) (rule : Rule) :
    (settings.withFilter []).keeps rule = true := by
  rw [keeps]
  cases rule.metadata with
  | none => rfl
  | some m => exact keepsSid_of_isEmpty rfl m.sid

/-- A line that the filter does not drop comes to the same end without it. -/
theorem Verdict.ofLine_withFilter_nil {settings : Settings} {filter line : Text}
    (h : ofLine (settings.withFilter filter) line ≠ .filtered) :
    ofLine (settings.withFilter []) line = ofLine (settings.withFilter filter) line := by
  have harises := arises_ofLine (settings.withFilter filter) line
  generalize ofLine (settings.withFilter filter) line = v at h harises
  cases harises with
  | skipped hskip => exact Arises.ofLine_eq (.skipped hskip)
  | malformed hskip hparse => exact Arises.ofLine_eq (.malformed hskip hparse)
  | stopped hskip hparse => exact Arises.ofLine_eq (.stopped hskip hparse)
  | filtered hskip hparse hkeeps => exact absurd rfl h
  | unencodable hskip hparse hkeeps hencode =>
      exact Arises.ofLine_eq (.unencodable hskip hparse (settings.keeps_withFilter_nil _) hencode)
  | converted hskip hparse hkeeps hencode =>
      exact Arises.ofLine_eq (.converted hskip hparse (settings.keeps_withFilter_nil _) hencode)

/-- What a conversion with a filter gives, beside the same conversion without
one. The documents are those that the filter `shows`. -/
structure Batch.IsFiltered (shows : Text → Bool) (filtered all : Batch) : Prop where
  documents : filtered.documents = all.documents.filter shows
  fault : filtered.fault = all.fault
  messages : filtered.messages.Sublist all.messages
  total : filtered.counters.total = all.counters.total
  skipped : filtered.counters.skipped = all.counters.skipped
  rules : filtered.counters.converted + filtered.counters.filtered + filtered.counters.errors =
    all.counters.converted + all.counters.errors

namespace Batch.IsFiltered

variable {shows : Text → Bool}

theorem append {a a' b b' : Batch} (h : IsFiltered shows a a') (h' : IsFiltered shows b b') :
    IsFiltered shows (a.append b) (a'.append b') where
  documents := by rw [Batch.append, Batch.append, List.filter_append, h.documents, h'.documents]
  fault := h'.fault
  messages := h.messages.append h'.messages
  total := congrArg₂ (· + ·) h.total h'.total
  skipped := congrArg₂ (· + ·) h.skipped h'.skipped
  rules := by
    have hrules := h.rules
    have hrules' := h'.rules
    simp only [Batch.append, Counters.converted_add, Counters.errors_add, Counters.filtered_add]
    omega

section Line

variable (settings : Settings) (filter : Text) (number : Nat)

/-- A line that the filter does not touch. If it has a document, the document
passes. -/
theorem of_kept {v : Verdict} (hfiltered : v ≠ .filtered)
    (hshows : ∀ document, v = .converted document → shows document = true) :
    IsFiltered shows (ofVerdict (settings.withFilter filter) number v)
      (ofVerdict (settings.withFilter []) number v) := by
  cases v with
  | filtered => exact absurd rfl hfiltered
  | converted document =>
      have hdocuments : [document] = [document].filter shows := by simp [hshows document rfl]
      exact ⟨hdocuments, rfl, .refl _, rfl, rfl, rfl⟩
  | _ => exact ⟨rfl, rfl, .refl _, rfl, rfl, rfl⟩

theorem of_dropped_unencodable (error : Json.EncodeError) :
    IsFiltered shows (ofVerdict (settings.withFilter filter) number .filtered)
      (ofVerdict (settings.withFilter []) number (.unencodable error)) :=
  ⟨rfl, rfl, List.nil_sublist _, rfl, rfl, rfl⟩

theorem of_dropped_converted {document : Text} (hshows : shows document = false) :
    IsFiltered shows (ofVerdict (settings.withFilter filter) number .filtered)
      (ofVerdict (settings.withFilter []) number (.converted document)) := by
  have hdocuments : [] = [document].filter shows := by simp [hshows]
  exact ⟨hdocuments, rfl, .refl _, rfl, rfl, rfl⟩

theorem of_line {filter : Text} (hfilter : filter ≠ []) (line : Text) :
    IsFiltered (Rule.showsSid filter)
      (ofVerdict (settings.withFilter filter) number
        (Verdict.ofLine (settings.withFilter filter) line))
      (ofVerdict (settings.withFilter []) number
        (Verdict.ofLine (settings.withFilter []) line)) := by
  by_cases h : Verdict.ofLine (settings.withFilter filter) line = .filtered
  · -- without the filter the rule is written or cannot be written, which was not asked
    rw [h]
    cases Verdict.ofLine_eq_iff.1 h with
    | @filtered rule hskip hparse hkeeps =>
        have hall := settings.keeps_withFilter_nil rule
        cases hencode : (settings.withFilter []).encode rule with
        | error error =>
            have hv : Verdict.ofLine (settings.withFilter []) line = .unencodable error :=
              Verdict.Arises.ofLine_eq (.unencodable hskip hparse hall hencode)
            rw [hv]
            exact of_dropped_unencodable settings filter number error
        | ok document =>
            have hv : Verdict.ofLine (settings.withFilter []) line = .converted document :=
              Verdict.Arises.ofLine_eq (.converted hskip hparse hall hencode)
            rw [hv]
            have hshows := (Rule.isRead_of_parse hparse).showsSid_eq settings hfilter hencode
            exact of_dropped_converted settings filter number (hshows.trans hkeeps)
  · rw [Verdict.ofLine_withFilter_nil h]
    refine of_kept settings filter number h fun document hv => ?_
    cases Verdict.ofLine_eq_iff.1 hv with
    | converted hskip hparse hkeeps hencode =>
        exact ((Rule.isRead_of_parse hparse).showsSid_eq settings hfilter hencode).trans hkeeps

end Line

theorem of_convert (settings : Settings) {filter : Text} (hfilter : filter ≠ [])
    (lines : List Text) :
    IsFiltered (Rule.showsSid filter) (convert (settings.withFilter filter) lines)
      (convert (settings.withFilter []) lines) :=
  convertFrom_rel (R := fun _ => IsFiltered (Rule.showsSid filter)) lines
    ⟨rfl, rfl, .refl _, rfl, rfl, rfl⟩
    (fun number line => of_line settings number hfilter line) append 0

end Batch.IsFiltered

namespace Converter

/-- A conversion with a filter gives the documents that show the filtered
identifier out of those of the same conversion without one. Both stop at the
same line with the same fault or not at all, and what is told about the filtered
lines is told without the filter as well. There is one identifier that a filter
keeps if the filter is a canonical numeral, and none otherwise. -/
theorem convert_withFilter (settings : Settings) {filter : Text} (hfilter : filter ≠ [])
    (lines : List Text) :
    let filtered := Converter.convert { settings := settings.withFilter filter } lines
    let all := Converter.convert { settings := settings.withFilter [] } lines
    filtered.2.documents = all.2.documents.filter (Rule.showsSid filter) ∧
      Batch.linesRead (settings.withFilter filter) lines =
        Batch.linesRead (settings.withFilter []) lines ∧
      filtered.2.fault = all.2.fault ∧
      filtered.1.counters.total = all.1.counters.total ∧
      filtered.1.counters.skipped = all.1.counters.skipped ∧
      filtered.1.counters.converted + filtered.1.counters.filtered + filtered.1.counters.errors =
        all.1.counters.converted + all.1.counters.errors ∧
      filtered.2.messages.Sublist all.2.messages ∧
      (∀ m n, (settings.withFilter filter).keepsSid m = true →
        (settings.withFilter filter).keepsSid n = true → m = n) ∧
      ((∃ n, (settings.withFilter filter).keepsSid n = true) ↔
        Numeral.IsCanonicalNumeral filter) := by
  intro filtered all
  have h := Batch.IsFiltered.of_convert settings hfilter lines
  rw [show filtered.1.counters = filtered.2.counters from counters_convert _ _,
    show all.1.counters = all.2.counters from counters_convert _ _]
  refine ⟨h.documents, Batch.linesRead_congr _ _ _, h.fault, h.total, h.skipped, h.rules,
    h.messages, fun m n => Settings.eq_of_keepsSid hfilter, ?_⟩
  have hkeeps : ∀ n, (settings.withFilter filter).keepsSid n = true ↔
      Numeral.integerText n = filter := by
    intro n
    simp [Settings.keepsSid, Settings.withFilter, hfilter]
  simp only [hkeeps, Numeral.exists_integerText_eq_iff]

/-- The filter drops a rule that has a document, one that could not be written,
and one with metadata but no identifier. -/
def identifiedLines : List Text :=
  ["a b c d > e f (sid:7)".toList, "a b c d > e f (sid:08)".toList,
    "a b c d > e f (sid:8;k:inf)".toList, "a b c d > e f (rev:7)".toList,
    "a b c d > e f (k:nan)".toList, "a b c d > e f (k)".toList, "# x".toList, "a b".toList,
    lineOf "\u0131nf".toList, "a b c d > e f (sid:7)".toList]

theorem convert_withFilter_identifiedLines :
    let settings : Settings := { layout := .indented }
    let filtered := Converter.convert { settings := settings.withFilter "7".toList } identifiedLines
    let all := Converter.convert { settings := settings.withFilter [] } identifiedLines
    filtered.2.documents = all.2.documents.filter (Rule.showsSid "7".toList) ∧
      filtered.2.documents.length = 2 ∧ all.2.documents.length = 4 ∧
      filtered.1.counters = ⟨9, 2, 2, 3, 1⟩ ∧ all.1.counters = ⟨9, 4, 3, 0, 1⟩ ∧
      filtered.2.messages.Sublist all.2.messages ∧ filtered.2.messages.length = 2 ∧
      filtered.2.fault = all.2.fault ∧ all.2.fault ≠ none := by
  intro settings filtered all
  obtain ⟨hdocuments, -, hfault, -, -, -, hmessages, -⟩ :=
    convert_withFilter settings (show "7".toList ≠ [] by decide) identifiedLines
  exact ⟨hdocuments, by decide +kernel, by decide +kernel, by decide +kernel, by decide +kernel,
    hmessages, by decide +kernel, hfault, by decide +kernel⟩

end Converter

end IdsRules
