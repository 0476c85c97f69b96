import IdsRules.Conversion.Run

/-!
# What the lines that were read come to

A conversion to the end reads its lines up to the first that stops it, and a
pull reads lines up to the first that gives a document or stops. Whatever reads
lines counts them, gives documents and stops with a fault; a tally holds these
three, and the tally of a list of lines is put together from those of its single
lines. The main lemmas say that a batch and a pull give the tally of the lines
that they read (`Batch.tally_convertFrom`, `Run.tally_pull`).
-/

namespace IdsRules

/-- What lines come to: what they add to the counters, the documents that they
give, and the faults that they stop with. -/
structure Tally where
  counters : Counters := .zero
  documents : List Text := []
  faults : List Numeral.Fault := []

namespace Tally

instance : Append Tally where
  append a b := ⟨a.counters + b.counters, a.documents ++ b.documents, a.faults ++ b.faults⟩

theorem append_def (a b : Tally) :
    a ++ b = ⟨a.counters + b.counters, a.documents ++ b.documents, a.faults ++ b.faults⟩ := rfl

theorem append_empty (a : Tally) : a ++ ({} : Tally) = a := by
  rw [append_def, List.append_nil, List.append_nil, Counters.add_zero]

theorem empty_append (a : Tally) : ({} : Tally) ++ a = a := by
  rw [append_def, List.nil_append, List.nil_append, Counters.zero_add]

theorem append_assoc (a b c : Tally) : a ++ b ++ c = a ++ (b ++ c) := by
  simp only [append_def, Counters.add_assoc, List.append_assoc]

def ofVerdict (v : Verdict) : Tally :=
  ⟨Counters.ofVerdict v, v.document?.toList, v.fault?.toList⟩

def ofLines (settings : Settings) : List Text → Tally
  | [] => {}
  | line :: lines => ofVerdict (Verdict.ofLine settings line) ++ ofLines settings lines

@[simp] theorem ofLines_nil (settings : Settings) : ofLines settings [] = {} := rfl

theorem ofLines_cons (settings : Settings) (line : Text) (lines : List Text) :
    ofLines settings (line :: lines) =
      ofVerdict (Verdict.ofLine settings line) ++ ofLines settings lines := rfl

theorem ofLines_append (settings : Settings) (lines lines' : List Text) :
    ofLines settings (lines ++ lines') = ofLines settings lines ++ ofLines settings lines' := by
  induction lines with
  | nil => rw [List.nil_append, ofLines_nil, empty_append]
  | cons line lines ih => rw [List.cons_append, ofLines_cons, ofLines_cons, ih, append_assoc]

/-- Every line is counted. -/
theorem total_ofLines (settings : Settings) (lines : List Text) :
    (ofLines settings lines).counters.total = lines.length := by
  induction lines with
  | nil => rfl
  | cons line lines ih =>
      rw [ofLines_cons, append_def, Counters.total_add, ih, List.length_cons, Nat.add_comm]
      simp [ofVerdict]

theorem length_documents_ofVerdict (v : Verdict) :
    (ofVerdict v).documents.length = (ofVerdict v).counters.converted := by
  cases v <;> rfl

/-- Every document is counted as a converted line. -/
theorem length_documents_ofLines (settings : Settings) (lines : List Text) :
    (ofLines settings lines).documents.length = (ofLines settings lines).counters.converted := by
  induction lines with
  | nil => rfl
  | cons line lines ih =>
      rw [ofLines_cons, append_def, Counters.converted_add, List.length_append, ih,
        length_documents_ofVerdict]

theorem classified_ofVerdict (v : Verdict) :
    (ofVerdict v).counters.classified + (ofVerdict v).faults.length = 1 := by
  cases v <;> rfl

/-- Every line has a class or stops. -/
theorem classified_ofLines (settings : Settings) (lines : List Text) :
    (ofLines settings lines).counters.classified + (ofLines settings lines).faults.length =
      lines.length := by
  induction lines with
  | nil => rfl
  | cons line lines ih =>
      have hline := classified_ofVerdict (Verdict.ofLine settings line)
      rw [ofLines_cons, append_def, Counters.classified_add, List.length_append, List.length_cons]
      omega

/-- The faults are those of the lines that stop. -/
theorem length_faults_ofLines (settings : Settings) (lines : List Text) :
    (ofLines settings lines).faults.length =
      lines.countP fun line => (Verdict.ofLine settings line).isStopped := by
  induction lines with
  | nil => rfl
  | cons line lines ih =>
      have hline : ∀ v, (ofVerdict v).faults.length = if v.isStopped then 1 else 0 := by
        intro v
        cases v <;> rfl
      rw [ofLines_cons, append_def, List.length_append, ih, hline, List.countP_cons, Nat.add_comm]

theorem documents_ofLines (settings : Settings) (lines : List Text) :
    (ofLines settings lines).documents =
      lines.filterMap fun line => (Verdict.ofLine settings line).document? := by
  induction lines with
  | nil => rfl
  | cons line lines ih =>
      rw [ofLines_cons, append_def, ih, ofVerdict]
      cases h : (Verdict.ofLine settings line).document? <;> simp [h]

end Tally

namespace Verdict

/-- Whether a pull that reads the line ends there. -/
def endsPull (v : Verdict) : Bool :=
  v.document?.isSome || v.isStopped

theorem endsPull_eq_false_iff {v : Verdict} :
    v.endsPull = false ↔ v.document? = none ∧ v.isStopped = false := by
  rw [endsPull, Bool.or_eq_false_iff, Option.isSome_eq_false_iff, Option.isNone_iff_eq_none]

theorem fault?_of_not_isStopped {v : Verdict} (h : v.isStopped = false) : v.fault? = none := by
  cases v with
  | stopped fault => exact absurd h (by simp [isStopped])
  | _ => rfl

end Verdict

namespace Batch

def tally (b : Batch) : Tally :=
  ⟨b.counters, b.documents, b.fault.toList⟩

/-- The lines that a conversion to the end reads: all of them, or those up to
the first that stops it. -/
def linesRead (settings : Settings) : List Text → List Text
  | [] => []
  | line :: lines =>
    if (Verdict.ofLine settings line).isStopped then [line] else line :: linesRead settings lines

theorem linesRead_eq_self {settings : Settings} {lines : List Text}
    (h : ∀ line ∈ lines, (Verdict.ofLine settings line).isStopped = false) :
    linesRead settings lines = lines := by
  induction lines with
  | nil => rfl
  | cons line lines ih =>
      rw [List.forall_mem_cons] at h
      rw [linesRead, if_neg (ne_true_of_eq_false h.1), ih h.2]

/-- A batch is what the lines that were read come to. -/
theorem tally_convertFrom (settings : Settings) (read : Nat) (lines : List Text) :
    (convertFrom settings read lines).tally = Tally.ofLines settings (linesRead settings lines) := by
  induction lines generalizing read with
  | nil => rfl
  | cons line lines ih =>
      cases hv : (Verdict.ofLine settings line).isStopped with
      | true =>
          rw [convertFrom_cons_of_stopped hv, linesRead, if_pos hv, Tally.ofLines_cons,
            Tally.ofLines_nil, Tally.append_empty]
          rfl
      | false =>
          have hfault := Verdict.fault?_of_not_isStopped hv
          rw [convertFrom_cons hv, linesRead, if_neg (by simp [hv]), Tally.ofLines_cons,
            ← ih (read + 1), Tally.append_def, Tally.ofVerdict, hfault]
          rfl

/-- A conversion that is not stopped reads all its lines. -/
theorem linesRead_of_fault_eq_none {settings : Settings} {read : Nat} {lines : List Text}
    (h : (convertFrom settings read lines).fault = none) : linesRead settings lines = lines := by
  induction lines generalizing read with
  | nil => rfl
  | cons line lines ih =>
      cases hv : (Verdict.ofLine settings line).isStopped with
      | true =>
          rw [convertFrom_cons_of_stopped hv] at h
          cases hw : Verdict.ofLine settings line <;>
            simp_all [ofVerdict, Verdict.fault?, Verdict.isStopped]
      | false =>
          rw [convertFrom_cons hv] at h
          rw [linesRead, if_neg (by simp [hv]), ih h]

end Batch

namespace Pulled

def document? : Pulled → Option Text
  | .document d => some d
  | _ => none

def fault? : Pulled → Option Numeral.Fault
  | .stopped fault => some fault
  | _ => none

end Pulled

namespace Pull

def tally (p : Pull) : Tally :=
  ⟨p.counters, p.outcome.document?.toList, p.outcome.fault?.toList⟩

end Pull

namespace Run

/-- A line at which a pull ends is all that it reads. -/
theorem tally_pullFrom_last {settings : Settings} {line : Text}
    (h : (Verdict.ofLine settings line).endsPull = true) (read : Nat) (lines : List Text) :
    (pullFrom settings read (line :: lines)).run.read = read + 1 ∧
      (pullFrom settings read (line :: lines)).tally =
        Tally.ofVerdict (Verdict.ofLine settings line) := by
  rw [pullFrom]
  cases hv : Verdict.ofLine settings line with
  | converted document => exact ⟨rfl, rfl⟩
  | stopped fault => exact ⟨rfl, rfl⟩
  | _ => rw [hv] at h; cases h

/-- A line at which a pull does not end stands in front of the lines that the
rest of the pull reads. -/
theorem pullFrom_cons {settings : Settings} {line : Text}
    (h : (Verdict.ofLine settings line).endsPull = false) (read : Nat) (lines : List Text) :
    let v := Verdict.ofLine settings line
    let later := pullFrom settings (read + 1) lines
    pullFrom settings read (line :: lines) =
      ⟨later.run, Counters.ofVerdict v + later.counters,
        Message.ofVerdict settings (read + 1) v ++ later.messages, later.outcome⟩ := by
  rw [pullFrom]
  cases hv : Verdict.ofLine settings line with
  | converted document => rw [hv] at h; cases h
  | stopped fault => rw [hv] at h; cases h
  | _ => rfl

theorem tally_pullFrom_cons {settings : Settings} {line : Text}
    (h : (Verdict.ofLine settings line).endsPull = false) (read : Nat) (lines : List Text) :
    (pullFrom settings read (line :: lines)).tally =
      Tally.ofVerdict (Verdict.ofLine settings line) ++
        (pullFrom settings (read + 1) lines).tally := by
  obtain ⟨hdocument, hstopped⟩ := Verdict.endsPull_eq_false_iff.1 h
  have hfault := Verdict.fault?_of_not_isStopped hstopped
  rw [pullFrom_cons h, Tally.append_def, Tally.ofVerdict, hdocument, hfault]
  rfl

/-- A pull reads some lines, says how many, and gives what they come to. -/
theorem tally_pullFrom (settings : Settings) (read : Nat) (lines : List Text) :
    ∃ n, (pullFrom settings read lines).run.read = read + n ∧
      (pullFrom settings read lines).tally = Tally.ofLines settings (lines.take n) := by
  induction lines generalizing read with
  | nil => exact ⟨0, rfl, by rw [List.take_nil]; rfl⟩
  | cons line lines ih =>
      cases h : (Verdict.ofLine settings line).endsPull with
      | true =>
          obtain ⟨hread, htally⟩ := tally_pullFrom_last h read lines
          refine ⟨1, hread, ?_⟩
          rw [htally, List.take_succ_cons, List.take_zero, Tally.ofLines_cons, Tally.ofLines_nil,
            Tally.append_empty]
      | false =>
          obtain ⟨n, hn, hrest⟩ := ih (read + 1)
          refine ⟨n + 1, by rw [pullFrom_cons h, hn, Nat.add_assoc, Nat.add_comm 1], ?_⟩
          rw [tally_pullFrom_cons h, hrest, List.take_succ_cons, Tally.ofLines_cons]

/-- The lines that a pull reads. The run says how many they are by the number of
lines that it has read before and afterwards. -/
def linesRead (settings : Settings) (run : Run) : List Text :=
  run.pending.take ((run.pull settings).run.read - run.read)

/-- A pull gives what the lines that it reads come to. -/
theorem tally_pull (settings : Settings) (run : Run) :
    (run.pull settings).tally = Tally.ofLines settings (run.linesRead settings) := by
  obtain ⟨n, hread, htally⟩ := tally_pullFrom settings run.read run.pending
  rw [linesRead, pull, hread, htally, Nat.add_sub_cancel_left]

end Run

end IdsRules
