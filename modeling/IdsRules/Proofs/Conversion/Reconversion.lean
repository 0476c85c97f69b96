import IdsRules.Proofs.Conversion.LineClass

/-!
# Converting the sources of documents

A document that keeps its source is made again from it: the source is the line
without its outer blanks, it comes out of the text of the document unchanged,
and a line and its trimming have the same verdict. So the sources of the
documents of a conversion are lines that are all converted, to these documents.
-/

namespace IdsRules

def Rule.keptSource? (document : Text) : Option Text :=
  (Json.parse? document).bind (textAt? "raw_rule")

namespace Verdict

variable {settings : Settings}

theorem keptSource?_of_converted (hkeep : settings.keepSource = true) {line document : Text}
    (h : ofLine settings line = .converted document) :
    Rule.keptSource? document = some (Text.trim line) := by
  obtain ⟨j, hdocument, hsource⟩ := source_of_converted h
  rw [if_pos hkeep] at hsource
  rw [Rule.keptSource?, hdocument, Option.bind_some, Rule.textAt?, hsource]

end Verdict

namespace Batch

variable {settings : Settings}

/-- A conversion of lines that are all converted gives their documents and
counts nothing else. -/
theorem convertFrom_of_converted {lines documents : List Text}
    (h : List.Forall₂ (fun line document => Verdict.ofLine settings line = .converted document)
      lines documents) (read : Nat) :
    convertFrom settings read lines = {
      documents
      counters := { total := documents.length, converted := documents.length } } := by
  induction h generalizing read with
  | nil => rfl
  | @cons line document lines documents hline _ ih =>
      have hnot : (Verdict.ofLine settings line).isStopped = false := by rw [hline]; rfl
      rw [convertFrom_cons hnot, ih, hline, List.length_cons, Nat.add_comm documents.length]
      rfl

/-- The source of a document is converted to the document. -/
theorem source_of_mem_documents (hkeep : settings.keepSource = true) {lines : List Text}
    {document : Text} (h : document ∈ (convert settings lines).documents) :
    ∃ source, Rule.keptSource? document = some source ∧
      Verdict.ofLine settings source = .converted document := by
  rw [documents_convert, List.mem_filterMap] at h
  obtain ⟨line, -, hline⟩ := h
  have hverdict := Verdict.document?_eq_some_iff.1 hline
  exact ⟨Text.trim line, Verdict.keptSource?_of_converted hkeep hverdict,
    (Verdict.ofLine_trim settings line).trans hverdict⟩

end Batch

namespace Converter

/-- When documents keep their sources, all documents of a conversion have one,
and converting the sources gives the documents again: nothing stops the second
conversion, nothing is told, and every source is counted as converted. -/
theorem convert_sources (c : Converter) (hkeep : c.settings.keepSource = true)
    (lines : List Text) :
    let documents := (c.convert lines).2.documents
    ∃ sources : List Text, documents.map Rule.keptSource? = sources.map some ∧
      let again := Converter.convert { settings := c.settings } sources
      again.2.fault = none ∧ again.2.messages = [] ∧ again.2.documents = documents ∧
        again.1.counters = {
          total := documents.length
          converted := documents.length
          errors := 0
          filtered := 0
          skipped := 0 } := by
  intro documents
  obtain ⟨sources, hsources⟩ :=
    exists_forall₂ fun document (h : document ∈ documents) =>
      Batch.source_of_mem_documents hkeep h
  have hkept : List.Forall₂ Eq (documents.map Rule.keptSource?) (sources.map some) :=
    List.forall₂_map_left_iff.2 (List.forall₂_map_right_iff.2 (hsources.imp fun _ _ h => h.1))
  have hverdicts := (hsources.imp fun _ _ h => h.2).flip
  refine ⟨sources, List.forall₂_eq_eq_eq ▸ hkept, ?_⟩
  have hbatch : Batch.convert c.settings sources = {
      documents
      counters := { total := documents.length, converted := documents.length } } :=
    Batch.convertFrom_of_converted hverdicts 0
  refine ⟨congrArg Batch.fault hbatch, congrArg Batch.messages hbatch, ?_, ?_⟩
  · change (Batch.convert c.settings sources).documents = documents
    rw [hbatch]
  · rw [Converter.counters_convert, hbatch]

/-- The first and the third line are converted, without their outer blanks. The
filter drops the line between them, and the conversion stops at the fourth. -/
def spacedLines : List Text :=
  ["\u3000a b c d > e f (k:\"\\\x7f\u2028\")\t".toList, "a b c d > e f (sid:8)".toList,
    "a b c any -> e any (sid:7) \n".toList, lineOf "\u0131nf".toList, lineOf "1".toList]

theorem convert_sources_spacedLines :
    let c : Converter := { settings := { layout := .indented, sidFilter := "7".toList } }
    let again := Converter.convert { settings := c.settings }
      ["a b c d > e f (k:\"\\\x7f\u2028\")".toList, "a b c any -> e any (sid:7)".toList]
    (c.convert spacedLines).2.fault ≠ none ∧ again.2.fault = none ∧
      again.2.documents = (c.convert spacedLines).2.documents ∧
      again.1.counters = ⟨2, 2, 0, 0, 0⟩ := by
  intro c again
  obtain ⟨sources, hsources, hfault, -, hdocuments, hcounters⟩ :=
    convert_sources c rfl spacedLines
  have hkept : (c.convert spacedLines).2.documents.map Rule.keptSource? =
      ["a b c d > e f (k:\"\\\x7f\u2028\")".toList, "a b c any -> e any (sid:7)".toList].map
        some := by decide +kernel
  have hlength : (c.convert spacedLines).2.documents.length = 2 :=
    (List.length_map Rule.keptSource?).symm.trans (congrArg List.length hkept)
  obtain rfl := List.map_injective_iff.2 (Option.some_injective _) (hkept.symm.trans hsources)
  rw [hlength] at hcounters
  have hstops : (c.convert spacedLines).2.fault ≠ none := by decide +kernel
  exact ⟨hstops, hfault, hdocuments, hcounters⟩

end Converter

end IdsRules
