import IdsRules.Conversion.Message
import IdsRules.Proofs.Rule.Document
import IdsRules.Proofs.Rule.Parsed

/-!
# How a line comes to its end

The questions that are asked of a line lead to six ends, and `Verdict.Arises`
says for each end what the answers were on the way there. Every line has exactly
one end (`Verdict.ofLine_eq_iff`), so what becomes of a line is known by cases
on this relation.
-/

namespace IdsRules

namespace Verdict

/-- The answers that lead a line to an end. -/
inductive Arises (settings : Settings) (line : Text) : Verdict → Prop
  | skipped (hskip : isSkippable (Text.trim line) = true) : Arises settings line .skipped
  | malformed (hskip : isSkippable (Text.trim line) = false)
      (hparse : Rule.parse settings.keepSource line = .error .malformed) :
      Arises settings line .malformed
  | stopped {fault : Numeral.Fault} (hskip : isSkippable (Text.trim line) = false)
      (hparse : Rule.parse settings.keepSource line = .error (.value fault)) :
      Arises settings line (.stopped fault)
  | filtered {rule : Rule} (hskip : isSkippable (Text.trim line) = false)
      (hparse : Rule.parse settings.keepSource line = .ok rule)
      (hkeeps : settings.keeps rule = false) : Arises settings line .filtered
  | unencodable {rule : Rule} {error : Json.EncodeError}
      (hskip : isSkippable (Text.trim line) = false)
      (hparse : Rule.parse settings.keepSource line = .ok rule)
      (hkeeps : settings.keeps rule = true) (hencode : settings.encode rule = .error error) :
      Arises settings line (.unencodable error)
  | converted {rule : Rule} {document : Text} (hskip : isSkippable (Text.trim line) = false)
      (hparse : Rule.parse settings.keepSource line = .ok rule)
      (hkeeps : settings.keeps rule = true) (hencode : settings.encode rule = .ok document) :
      Arises settings line (.converted document)

variable {settings : Settings} {line : Text}

theorem arises_ofLine (settings : Settings) (line : Text) :
    Arises settings line (ofLine settings line) := by
  rw [ofLine]
  split
  · exact .skipped ‹_›
  · rename_i hskip
    rw [Bool.not_eq_true] at hskip
    split
    · exact .malformed hskip ‹_›
    · exact .stopped hskip ‹_›
    · rename_i rule hparse
      rw [ofRule]
      split
      · rename_i hkeeps
        split
        · exact .unencodable hskip hparse hkeeps ‹_›
        · exact .converted hskip hparse hkeeps ‹_›
      · exact .filtered hskip hparse (Bool.eq_false_iff.2 ‹_›)

theorem Arises.ofLine_eq {v : Verdict} (h : Arises settings line v) : ofLine settings line = v := by
  cases h with
  | skipped hskip => rw [ofLine, if_pos hskip]
  | malformed hskip hparse => simp [ofLine, hskip, hparse]
  | stopped hskip hparse => simp [ofLine, hskip, hparse]
  | filtered hskip hparse hkeeps => simp [ofLine, ofRule, hskip, hparse, hkeeps]
  | unencodable hskip hparse hkeeps hencode =>
      simp [ofLine, ofRule, hskip, hparse, hkeeps, hencode]
  | converted hskip hparse hkeeps hencode =>
      simp [ofLine, ofRule, hskip, hparse, hkeeps, hencode]

theorem ofLine_eq_iff {v : Verdict} : ofLine settings line = v ↔ Arises settings line v :=
  ⟨fun h => h ▸ arises_ofLine settings line, Arises.ofLine_eq⟩

theorem parse?_of_converted {document : Text} (h : ofLine settings line = .converted document) :
    ∃ rule, Rule.parse settings.keepSource line = .ok rule ∧
      settings.keeps rule = true ∧ Json.parse? document = some rule.toJson := by
  cases ofLine_eq_iff.1 h with
  | @converted rule _ hskip hparse hkeeps hencode =>
      obtain ⟨hfaults, rfl⟩ := Json.encode_eq_ok_iff.1 hencode
      exact ⟨rule, hparse, hkeeps, Json.parse?_text settings.layout hfaults⟩

/-- If sources are kept, the document of a line has the line without its outer
blanks. -/
theorem source_of_converted {document : Text} (h : ofLine settings line = .converted document) :
    ∃ j, Json.parse? document = some j ∧ j.member? "raw_rule".toList =
      if settings.keepSource then some (.string (Text.trim line)) else none := by
  obtain ⟨rule, hparse, -, hdocument⟩ := parse?_of_converted h
  refine ⟨rule.toJson, hdocument, ?_⟩
  rw [Rule.member?_source_toJson, Rule.source_of_parse hparse]
  cases settings.keepSource with
  | true => rfl
  | false => rfl

end Verdict

end IdsRules
