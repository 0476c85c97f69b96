import IdsRules.Conversion.Session
import IdsRules.Proofs.Conversion.Stop
import IdsRules.Proofs.Conversion.Tally

/-!
# A conversion as the sum of its lines

What a conversion gives is put together from the verdicts on the lines that it
reads, and each part of it looks at one side of a verdict: the counters at its
class, the documents and the messages at what the verdict carries. Conversions
of the same lines under two settings are compared verdict by verdict as well
(`Batch.convertFrom_rel`): the settings decide none of the faults, so both read
the same lines.
-/

namespace IdsRules

theorem exists_forall₂ {α β : Type*} {R : α → β → Prop} {xs : List α}
    (h : ∀ x ∈ xs, ∃ y, R x y) : ∃ ys, List.Forall₂ R xs ys := by
  induction xs with
  | nil => exact ⟨[], .nil⟩
  | cons x xs ih =>
      rw [List.forall_mem_cons] at h
      obtain ⟨y, hy⟩ := h.1
      obtain ⟨ys, hys⟩ := ih h.2
      exact ⟨y :: ys, .cons hy hys⟩

inductive LineClass where
  | skipped
  | error
  | filtered
  | converted
deriving DecidableEq, Repr

/-- The counters of lines of these classes, of `total` lines in all. -/
def Counters.ofClasses (total : Nat) (classes : List LineClass) : Counters where
  total := total
  converted := classes.count .converted
  errors := classes.count .error
  filtered := classes.count .filtered
  skipped := classes.count .skipped

namespace Counters

theorem ofClasses_append (m n : Nat) (classes classes' : List LineClass) :
    ofClasses (m + n) (classes ++ classes') = ofClasses m classes + ofClasses n classes' := by
  apply ext_fields <;> simp [ofClasses]

end Counters

namespace Verdict

/-- The class of a line. One that stops the conversion has none. -/
def class? : Verdict → Option LineClass
  | .skipped => some .skipped
  | .malformed => some .error
  | .filtered => some .filtered
  | .unencodable _ => some .error
  | .converted _ => some .converted
  | .stopped _ => none

theorem ofClasses_class? (v : Verdict) :
    Counters.ofClasses 1 v.class?.toList = Counters.ofVerdict v := by
  cases v <;> rfl

theorem document?_eq_some_iff {v : Verdict} {document : Text} :
    v.document? = some document ↔ v = .converted document := by
  cases v <;> simp [document?]

theorem isStopped_ofLine_congr (settings settings' : Settings) (line : Text) :
    (ofLine settings line).isStopped = (ofLine settings' line).isStopped := by
  rw [Bool.eq_iff_iff, isStopped_ofLine_iff, isStopped_ofLine_iff]

end Verdict

namespace Tally

variable (settings : Settings) (lines : List Text)

theorem counters_ofLines :
    (ofLines settings lines).counters =
      Counters.ofClasses lines.length
        (lines.filterMap fun line => (Verdict.ofLine settings line).class?) := by
  induction lines with
  | nil => rfl
  | cons line lines ih =>
      have happend : (line :: lines).filterMap (fun line => (Verdict.ofLine settings line).class?) =
          (Verdict.ofLine settings line).class?.toList ++
            lines.filterMap fun line => (Verdict.ofLine settings line).class? := by
        rw [List.filterMap_cons]
        cases (Verdict.ofLine settings line).class? <;> rfl
      rw [ofLines_cons, append_def, ih, happend, List.length_cons, Nat.add_comm,
        Counters.ofClasses_append, Verdict.ofClasses_class?]
      rfl

end Tally

namespace Batch

variable (settings : Settings) (lines : List Text)

theorem linesRead_congr (settings' : Settings) :
    linesRead settings lines = linesRead settings' lines := by
  induction lines with
  | nil => rfl
  | cons line lines ih =>
      rw [linesRead, linesRead, Verdict.isStopped_ofLine_congr settings settings', ih]

variable {settings} in
/-- Conversions of the same lines under two settings are in a relation, which
may look at the lines that they read, if the batches of each single line are and
batches that are put together stay in it. -/
theorem convertFrom_rel {settings' : Settings} {R : List Text → Batch → Batch → Prop}
    (hnil : R [] {} {})
    (hline : ∀ number line, R [line] (ofVerdict settings number (Verdict.ofLine settings line))
      (ofVerdict settings' number (Verdict.ofLine settings' line)))
    (happend : ∀ {ls ls' a a' b b'}, R ls a a' → R ls' b b' →
      R (ls ++ ls') (a.append b) (a'.append b')) (read : Nat) :
    R (linesRead settings lines) (convertFrom settings read lines)
      (convertFrom settings' read lines) := by
  induction lines generalizing read with
  | nil => exact hnil
  | cons line lines ih =>
      have hstops := Verdict.isStopped_ofLine_congr settings settings' line
      cases hv : (Verdict.ofLine settings line).isStopped with
      | true =>
          rw [linesRead, if_pos hv, convertFrom_cons_of_stopped hv,
            convertFrom_cons_of_stopped (hstops ▸ hv)]
          exact hline (read + 1) line
      | false =>
          rw [linesRead, if_neg (ne_true_of_eq_false hv), convertFrom_cons hv,
            convertFrom_cons (hstops ▸ hv)]
          exact happend (hline (read + 1) line) (ih (read + 1))

theorem empty_append (b : Batch) : ({} : Batch).append b = b := by
  have hcounters : ({} : Counters) + b.counters = b.counters := Counters.zero_add _
  simp only [append, hcounters, List.nil_append]

theorem append_assoc (a b c : Batch) : (a.append b).append c = a.append (b.append c) := by
  simp only [append, Counters.add_assoc, List.append_assoc]

variable {settings} in
/-- Lines that do not stop a conversion stand in front of what the other lines
give, and what these give depends on the others through their number only. -/
theorem convertFrom_append {before : List Text}
    (h : ∀ line ∈ before, (Verdict.ofLine settings line).isStopped = false) (rest : List Text)
    (read : Nat) :
    convertFrom settings read (before ++ rest) =
      (convertFrom settings read before).append
        (convertFrom settings (read + before.length) rest) := by
  induction before generalizing read with
  | nil => exact (empty_append _).symm
  | cons line before ih =>
      rw [List.forall_mem_cons] at h
      rw [List.cons_append, convertFrom_cons h.1, convertFrom_cons h.1, ih h.2, append_assoc,
        List.length_cons, Nat.add_assoc, Nat.add_comm 1]

theorem counters_convert :
    (convert settings lines).counters =
      Counters.ofClasses (linesRead settings lines).length
        ((linesRead settings lines).filterMap fun line =>
          (Verdict.ofLine settings line).class?) := by
  rw [← Tally.counters_ofLines, ← tally_convertFrom settings 0 lines]
  rfl

/-- The documents of a batch are those of the lines that it has read, in their
order. -/
theorem documents_convert :
    (convert settings lines).documents =
      (linesRead settings lines).filterMap fun line =>
        (Verdict.ofLine settings line).document? := by
  rw [← Tally.documents_ofLines, ← tally_convertFrom settings 0 lines]
  rfl

variable {settings} in
/-- The first line that stops a conversion gives its fault, and the lines before
it give the documents. -/
theorem convert_append_cons {before : List Text} {line : Text} {fault : Numeral.Fault}
    (hbefore : ∀ l ∈ before, (Verdict.ofLine settings l).isStopped = false)
    (hline : Verdict.ofLine settings line = .stopped fault) (rest : List Text) :
    (convert settings (before ++ line :: rest)).fault = some fault ∧
      (convert settings (before ++ line :: rest)).documents =
        before.filterMap fun l => (Verdict.ofLine settings l).document? := by
  have hstopped : (Verdict.ofLine settings line).isStopped = true := by rw [hline]; rfl
  have hdocuments := documents_convert settings before
  rw [linesRead_eq_self hbefore] at hdocuments
  rw [convert, convertFrom_append hbefore, convertFrom_cons_of_stopped hstopped, hline]
  exact ⟨rfl, (List.append_nil _).trans hdocuments⟩

theorem messages_convertFrom (read : Nat) :
    (convertFrom settings read lines).messages =
      ((linesRead settings lines).zipIdx (read + 1)).flatMap fun p =>
        Message.ofVerdict settings p.2 (Verdict.ofLine settings p.1) := by
  induction lines generalizing read with
  | nil => rfl
  | cons line lines ih =>
      cases hv : (Verdict.ofLine settings line).isStopped with
      | true =>
          rw [convertFrom_cons_of_stopped hv, linesRead, if_pos hv, List.zipIdx_singleton,
            List.flatMap_singleton]
          rfl
      | false =>
          rw [convertFrom_cons hv, linesRead, if_neg (ne_true_of_eq_false hv), List.zipIdx_cons,
            List.flatMap_cons, ← ih]
          rfl

theorem messages_convert :
    (convert settings lines).messages =
      ((linesRead settings lines).zipIdx 1).flatMap fun p =>
        Message.ofVerdict settings p.2 (Verdict.ofLine settings p.1) :=
  messages_convertFrom settings lines 0

end Batch

/-- The first conversion of a converter counts its own lines only. -/
theorem Converter.counters_convert (settings : Settings) (lines : List Text) :
    (Converter.convert { settings } lines).1.counters = (Batch.convert settings lines).counters :=
  Counters.zero_add _

end IdsRules
