import IdsRules.Proofs.Conversion.LineClass

/-!
# The settings of the output

The layout of the documents and whether they keep their source do not matter to
what becomes of the lines. Conversions that differ in them skip, drop and refuse
the same lines for the same reasons, and their documents are the same but for
the member with the source.
-/

namespace IdsRules

def Json.without (name : Text) : Json → Json
  | .object members => .object (members.filter fun m => m.1 ≠ name)
  | j => j

/-- Both texts are documents, and they are the same object when the source is
left out of either. -/
def Rule.SameButSource (document document' : Text) : Prop :=
  ∃ members, (Json.parse? document).map (Json.without "raw_rule".toList) = some (.object members) ∧
    (Json.parse? document').map (Json.without "raw_rule".toList) = some (.object members)

/-- The line is converted to the document, which has the trimmed line as its
source if sources are kept and has no source otherwise. -/
structure Settings.IsDocumentOf (settings : Settings) (line document : Text) : Prop where
  converted : Verdict.ofLine settings line = .converted document
  source : ∃ j, Json.parse? document = some j ∧ j.member? "raw_rule".toList =
    if settings.keepSource then some (.string (Text.trim line)) else none

/-- Two messages that tell of the same failure at the same line, whatever
layouts the documents have. -/
inductive Message.SameFailure : Message → Message → Prop
  | malformedLine (number : Nat) : SameFailure (.malformedLine number) (.malformedLine number)
  | unencodableLine (number : Nat) (layout layout' : Json.Layout) (error : Json.EncodeError) :
    SameFailure (.unencodableLine number layout error) (.unencodableLine number layout' error)

/-- What conversions of `lines` give under settings that differ in the output
only. -/
structure Batch.Agree (s t : Settings) (lines : List Text) (a b : Batch) : Prop where
  fault : a.fault = b.fault
  counters : a.counters = b.counters
  messages : List.Forall₂ Message.SameFailure a.messages b.messages
  documents : List.Forall₂ Rule.SameButSource a.documents b.documents
  sources : ∃ sources, sources.Sublist lines ∧ List.Forall₂ s.IsDocumentOf sources a.documents ∧
    List.Forall₂ t.IsDocumentOf sources b.documents

namespace Rule

theorem IsRead.withSource {rule : Rule} (h : rule.IsRead) {source : Option Text} :
    IsRead { rule with source } :=
  ⟨h.isInt64_option, h.isInt64_sid, h.isInt64_revision, h.metadata_isEmpty⟩

def otherMembers (rule : Rule) : List (Text × Json) :=
  headerMembers rule.header ++ [("options".toList, .object (optionMembers rule.options))]
    ++ portsMember rule.ports ++ metadataMember rule.metadata

theorem without_source_toJson (rule : Rule) (source : Option Text) :
    Json.without "raw_rule".toList { rule with source }.toJson =
      .object (rule.otherMembers.filter fun m => m.1 ≠ "raw_rule".toList) := by
  have hmembers : { rule with source }.toJson =
      .object (rule.otherMembers ++ sourceMember source) := rfl
  have hsource : (sourceMember source).filter (fun m => m.1 ≠ "raw_rule".toList) = [] := by
    cases source with
    | none => rfl
    | some s => rfl
  rw [hmembers, Json.without, List.filter_append, hsource, List.append_nil]

end Rule

namespace Settings

variable {s t : Settings} {rule : Rule}

theorem keeps_withSource (h : s.sidFilter = t.sidFilter) (source : Option Text) :
    t.keeps { rule with source } = s.keeps rule := by
  simp only [keeps, keepsSid, h]

/-- A rule that can be written can be written under all settings and with all
sources. The documents are the same but for the source. -/
theorem encode_withSource (hread : rule.IsRead) {document : Text}
    (hencode : s.encode rule = .ok document) (source : Option Text) :
    ∃ document', t.encode { rule with source } = .ok document' ∧
      Rule.SameButSource document document' := by
  obtain ⟨hfaults, rfl⟩ := Json.encode_eq_ok_iff.1 hencode
  have hfinite := ((encode_eq_ok_iff hread).1 hencode).1
  have hencode' : t.encode { rule with source } = _ :=
    (encode_eq_ok_iff hread.withSource).2 ⟨hfinite, rfl⟩
  have hfaults' := (Json.encode_eq_ok_iff.1 hencode').1
  refine ⟨_, hencode', rule.otherMembers.filter fun m => m.1 ≠ "raw_rule".toList, ?_, ?_⟩
  · rw [Json.parse?_text s.layout hfaults]
    exact congrArg some (rule.without_source_toJson rule.source)
  · rw [Json.parse?_text t.layout hfaults']
    exact congrArg some (rule.without_source_toJson source)

theorem encode_withSource_eq_error (hread : rule.IsRead) {error : Json.EncodeError}
    (hencode : s.encode rule = .error error) (source : Option Text) :
    t.encode { rule with source } = .error error :=
  (encode_eq_error_iff hread.withSource).2 ((encode_eq_error_iff hread).1 hencode)

end Settings

namespace Verdict

variable {s t : Settings} {line : Text}

theorem ofLine_of_document?_eq_none (h : s.sidFilter = t.sidFilter)
    (hnone : (ofLine s line).document? = none) : ofLine t line = ofLine s line := by
  -- the rule that is read differs in its source, which none of the questions is about
  have harises := arises_ofLine s line
  generalize ofLine s line = v at hnone harises
  cases harises with
  | skipped hskip => exact Arises.ofLine_eq (.skipped hskip)
  | malformed hskip hparse =>
      exact Arises.ofLine_eq (.malformed hskip (Rule.parse_of_parse_error hparse _))
  | stopped hskip hparse =>
      exact Arises.ofLine_eq (.stopped hskip (Rule.parse_of_parse_error hparse _))
  | filtered hskip hparse hkeeps =>
      exact Arises.ofLine_eq (.filtered hskip (Rule.parse_of_parse hparse _)
        ((Settings.keeps_withSource h _).trans hkeeps))
  | unencodable hskip hparse hkeeps hencode =>
      exact Arises.ofLine_eq (.unencodable hskip (Rule.parse_of_parse hparse _)
        ((Settings.keeps_withSource h _).trans hkeeps)
        (Settings.encode_withSource_eq_error (Rule.isRead_of_parse hparse) hencode _))
  | converted hskip hparse hkeeps hencode => cases hnone

theorem exists_document_of_converted (h : s.sidFilter = t.sidFilter) {document : Text}
    (hv : ofLine s line = .converted document) :
    ∃ document', ofLine t line = .converted document' ∧
      Rule.SameButSource document document' := by
  cases ofLine_eq_iff.1 hv with
  | converted hskip hparse hkeeps hencode =>
      obtain ⟨document', hencode', hsame⟩ :=
        Settings.encode_withSource (t := t) (Rule.isRead_of_parse hparse) hencode _
      exact ⟨document', Arises.ofLine_eq (.converted hskip (Rule.parse_of_parse hparse _)
        ((Settings.keeps_withSource h _).trans hkeeps) hencode'), hsame⟩

end Verdict

namespace Batch.Agree

variable {s t : Settings}

theorem append {ls ls' : List Text} {a a' b b' : Batch} (h : Agree s t ls a a')
    (h' : Agree s t ls' b b') : Agree s t (ls ++ ls') (a.append b) (a'.append b') where
  fault := h'.fault
  counters := congrArg₂ (· + ·) h.counters h'.counters
  messages := List.rel_append h.messages h'.messages
  documents := List.rel_append h.documents h'.documents
  sources := by
    obtain ⟨sources, hsublist, hs, ht⟩ := h.sources
    obtain ⟨sources', hsublist', hs', ht'⟩ := h'.sources
    exact ⟨sources ++ sources', hsublist.append hsublist', List.rel_append hs hs',
      List.rel_append ht ht'⟩

theorem of_line (h : s.sidFilter = t.sidFilter) (number : Nat) (line : Text) :
    Agree s t [line] (ofVerdict s number (Verdict.ofLine s line))
      (ofVerdict t number (Verdict.ofLine t line)) := by
  cases hv : Verdict.ofLine s line with
  | converted document =>
      obtain ⟨document', hv', hsame⟩ := Verdict.exists_document_of_converted h hv
      rw [hv']
      have hs : s.IsDocumentOf line document := ⟨hv, Verdict.source_of_converted hv⟩
      have ht : t.IsDocumentOf line document' := ⟨hv', Verdict.source_of_converted hv'⟩
      exact ⟨rfl, rfl, .nil, .cons hsame .nil, [line], .refl _, .cons hs .nil, .cons ht .nil⟩
  | malformed =>
      rw [Verdict.ofLine_of_document?_eq_none h (by rw [hv]; rfl), hv]
      exact ⟨rfl, rfl, .cons (.malformedLine number) .nil, .nil, [], List.nil_sublist _, .nil,
        .nil⟩
  | unencodable error =>
      rw [Verdict.ofLine_of_document?_eq_none h (by rw [hv]; rfl), hv]
      exact ⟨rfl, rfl, .cons (.unencodableLine number s.layout t.layout error) .nil, .nil, [],
        List.nil_sublist _, .nil, .nil⟩
  | _ =>
      rw [Verdict.ofLine_of_document?_eq_none h (by rw [hv]; rfl), hv]
      exact ⟨rfl, rfl, .nil, .nil, [], List.nil_sublist _, .nil, .nil⟩

theorem of_convert (h : s.sidFilter = t.sidFilter) (lines : List Text) :
    Agree s t (linesRead s lines) (convert s lines) (convert t lines) :=
  convertFrom_rel lines ⟨rfl, rfl, .nil, .nil, [], .refl _, .nil, .nil⟩ (of_line h) append 0

end Batch.Agree

namespace Converter

/-- Conversions under settings that have one filter stop at the same line with
the same fault or not at all, count the same, and tell of the same failures at
the same lines. Their documents are of the same lines and the same but for the
source, which is there if the settings keep it. -/
theorem convert_outputSettings {s t : Settings} (h : s.sidFilter = t.sidFilter)
    (lines : List Text) :
    let a := Converter.convert { settings := s } lines
    let b := Converter.convert { settings := t } lines
    Batch.linesRead s lines = Batch.linesRead t lines ∧
      a.2.fault = b.2.fault ∧
      a.1.counters = b.1.counters ∧
      List.Forall₂ Message.SameFailure a.2.messages b.2.messages ∧
      List.Forall₂ Rule.SameButSource a.2.documents b.2.documents ∧
      ∃ sources, sources.Sublist (Batch.linesRead s lines) ∧
        List.Forall₂ s.IsDocumentOf sources a.2.documents ∧
        List.Forall₂ t.IsDocumentOf sources b.2.documents := by
  intro a b
  have hagree := Batch.Agree.of_convert h lines
  rw [show a.1.counters = a.2.counters from counters_convert _ _,
    show b.1.counters = b.2.counters from counters_convert _ _]
  exact ⟨Batch.linesRead_congr _ _ _, hagree.fault, hagree.counters, hagree.messages,
    hagree.documents, hagree.sources⟩

/-- The settings show in the documents of the first and the third line and in
the message about the second. -/
def plainLines : List Text :=
  [" a b c d > e f (sid:7;k:1.50)".toList, "a b c d > e f (k:inf)".toList,
    "a b c any > e any (k)\t".toList, "a b c d > e f (sid:8)".toList, "a b".toList, "# x".toList]

theorem convert_outputSettings_plainLines :
    let s : Settings := { sidFilter := "7".toList }
    let t : Settings := { s with layout := .indented, keepSource := false }
    let a := Converter.convert { settings := s } plainLines
    let b := Converter.convert { settings := t } plainLines
    a.1.counters = b.1.counters ∧ a.1.counters = ⟨6, 2, 2, 1, 1⟩ ∧
      List.Forall₂ Message.SameFailure a.2.messages b.2.messages ∧
      a.2.messages.map Message.text ≠ b.2.messages.map Message.text ∧
      List.Forall₂ Rule.SameButSource a.2.documents b.2.documents ∧
      a.2.documents ≠ b.2.documents ∧ a.2.documents.length = 2 := by
  intro s t a b
  obtain ⟨-, -, hcounters, hmessages, hdocuments, -⟩ :=
    convert_outputSettings (show s.sidFilter = t.sidFilter from rfl) plainLines
  exact ⟨hcounters, by decide +kernel, hmessages, by decide +kernel, hdocuments,
    by decide +kernel, by decide +kernel⟩

end Converter

end IdsRules
