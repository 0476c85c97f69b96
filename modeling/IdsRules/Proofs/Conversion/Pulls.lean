import IdsRules.Proofs.Conversion.Tally

/-!
# Pulling a run again and again

A pull reads the lines that give nothing and ends at the first line that gives a
document or a fault, or at the end of the lines. From this follows what a run
looks like after any number of pulls: it has given the documents of the lines
that it has read, and its pending lines are the others, or none after a fault.
Pulled to its end, a run gives what its lines give at once (`Run.ofPulls_start`).
-/

namespace IdsRules

theorem Pulled.document?_eq_some_iff {outcome : Pulled} {document : Text} :
    outcome.document? = some document ↔ outcome = .document document := by
  cases outcome <;> simp [document?]

namespace Run

variable {settings : Settings}

/-! ## One pull -/

/-- The three ways in which a pull ends: with the document of a line, with the
fault of a line, or with no line left. -/
theorem pullFrom_cases (settings : Settings) (read : Nat) (lines : List Text) :
    (∃ before line rest document, lines = before ++ line :: rest ∧
        (∀ l ∈ before, (Verdict.ofLine settings l).endsPull = false) ∧
        Verdict.ofLine settings line = .converted document ∧
        (pullFrom settings read lines).run = ⟨rest, read + (before.length + 1)⟩ ∧
        (pullFrom settings read lines).outcome = .document document) ∨
      (∃ before line rest fault, lines = before ++ line :: rest ∧
        (∀ l ∈ before, (Verdict.ofLine settings l).endsPull = false) ∧
        Verdict.ofLine settings line = .stopped fault ∧
        (pullFrom settings read lines).run = ⟨[], read + (before.length + 1)⟩ ∧
        (pullFrom settings read lines).outcome = .stopped fault) ∨
      ((∀ l ∈ lines, (Verdict.ofLine settings l).endsPull = false) ∧
        (pullFrom settings read lines).run = ⟨[], read + lines.length⟩ ∧
        (pullFrom settings read lines).outcome = .exhausted) := by
  induction lines generalizing read with
  | nil => exact Or.inr (Or.inr ⟨by simp, rfl, rfl⟩)
  | cons line lines ih =>
      cases hv : (Verdict.ofLine settings line).endsPull with
      | true =>
          cases hline : Verdict.ofLine settings line with
          | converted document =>
              refine Or.inl ⟨[], line, lines, document, rfl, by simp, hline, ?_, ?_⟩ <;>
                simp [pullFrom, hline]
          | stopped fault =>
              refine Or.inr (Or.inl ⟨[], line, lines, fault, rfl, by simp, hline, ?_, ?_⟩) <;>
                simp [pullFrom, hline]
          | _ => rw [hline] at hv; cases hv
      | false =>
          -- the line joins those in front of the one at which the rest of the pull ends
          have hmore : ∀ n, read + 1 + n = read + (n + 1) := fun n => by omega
          rw [pullFrom_cons hv]
          rcases ih (read + 1) with
            ⟨before, last, rest, document, hlines, hbefore, hlast, hrun', houtcome'⟩ |
            ⟨before, last, rest, fault, hlines, hbefore, hlast, hrun', houtcome'⟩ |
            ⟨hlines, hrun', houtcome'⟩
          · refine Or.inl ⟨line :: before, last, rest, document, by rw [hlines]; rfl,
              List.forall_mem_cons.2 ⟨hv, hbefore⟩, hlast, ?_, houtcome'⟩
            rw [hrun', hmore, List.length_cons]
          · refine Or.inr (Or.inl ⟨line :: before, last, rest, fault, by rw [hlines]; rfl,
              List.forall_mem_cons.2 ⟨hv, hbefore⟩, hlast, ?_, houtcome'⟩)
            rw [hrun', hmore, List.length_cons]
          · refine Or.inr (Or.inr ⟨List.forall_mem_cons.2 ⟨hv, hlines⟩, ?_, houtcome'⟩)
            rw [hrun', hmore, List.length_cons]

/-! ## Many pulls -/

def pulls (settings : Settings) : Nat → Run → List Pull
  | 0, _ => []
  | n + 1, run => run.pull settings :: pulls settings n (run.pull settings).run

def after (settings : Settings) : Nat → Run → Run
  | 0, run => run
  | n + 1, run => after settings n (run.pull settings).run

theorem length_pulls (n : Nat) (run : Run) : (pulls settings n run).length = n := by
  induction n generalizing run with
  | zero => rfl
  | succ n ih => rw [pulls, List.length_cons, ih]

theorem pulls_add (m n : Nat) (run : Run) :
    pulls settings (m + n) run =
      pulls settings m run ++ pulls settings n (after settings m run) := by
  induction m generalizing run with
  | zero => rw [Nat.zero_add]; rfl
  | succ m ih => rw [Nat.succ_add, pulls, ih, pulls, after, List.cons_append]

theorem isPrefix_pulls {m n : Nat} (h : m ≤ n) (run : Run) :
    pulls settings m run <+: pulls settings n run := by
  obtain ⟨k, rfl⟩ := Nat.exists_eq_add_of_le h
  rw [pulls_add]
  exact List.prefix_append _ _

theorem pending_after_of_pending_nil {run : Run} (h : run.pending = []) (n : Nat) :
    (after settings n run).pending = [] := by
  induction n with
  | zero => exact h
  | succ n ih => rw [after, pull_of_pending_nil h]; exact ih

/-- After a pull that gave no document there is nothing left to read. -/
theorem pending_after_of_mem_pulls {n : Nat} {run : Run} {p : Pull}
    (hp : p ∈ pulls settings n run) (h : ∀ document, p.outcome ≠ .document document) :
    (after settings n run).pending = [] := by
  induction n generalizing run with
  | zero => cases hp
  | succ n ih =>
      rw [pulls, List.mem_cons] at hp
      rw [after]
      rcases hp with rfl | hp
      · exact pending_after_of_pending_nil (pending_pullFrom h) n
      · exact ih hp

/-! ## The run of a list of lines -/

/-- A run of the lines that has given the documents of the lines that it has
read, and has the others or none left to read. -/
structure Reached (settings : Settings) (lines : List Text) (documents : List Text) (run : Run) :
    Prop where
  documents_eq :
    documents = (lines.take run.read).filterMap fun line => (Verdict.ofLine settings line).document?
  pending_eq : run.pending = lines.drop run.read ∨ run.pending = []

theorem filterMap_eq_nil_of_not_endsPull {lines : List Text}
    (h : ∀ line ∈ lines, (Verdict.ofLine settings line).endsPull = false) :
    (lines.filterMap fun line => (Verdict.ofLine settings line).document?) = [] :=
  List.filterMap_eq_nil_iff.2 fun line hline => (Verdict.endsPull_eq_false_iff.1 (h line hline)).1

theorem take_length_append_cons (before : List Text) (line : Text) (rest : List Text) :
    (before ++ line :: rest).take (before.length + 1) = before ++ [line] := by
  rw [List.take_length_add_append, List.take_succ_cons, List.take_zero]

theorem drop_length_append_cons (before : List Text) (line : Text) (rest : List Text) :
    (before ++ line :: rest).drop (before.length + 1) = rest := by
  rw [List.drop_length_add_append, List.drop_succ_cons, List.drop_zero]

/-- The documents of the lines up to the one at which a pull ends. -/
theorem filterMap_take_of_drop {lines before rest : List Text} {line : Text} {read : Nat}
    (hlines : lines.drop read = before ++ line :: rest)
    (hbefore : ∀ l ∈ before, (Verdict.ofLine settings l).endsPull = false) :
    ((lines.take (read + (before.length + 1))).filterMap fun l =>
        (Verdict.ofLine settings l).document?) =
      ((lines.take read).filterMap fun l => (Verdict.ofLine settings l).document?) ++
        (Verdict.ofLine settings line).document?.toList := by
  rw [List.take_add, hlines, take_length_append_cons, List.filterMap_append,
    List.filterMap_append, filterMap_eq_nil_of_not_endsPull hbefore, List.nil_append]
  cases h : (Verdict.ofLine settings line).document? <;> simp [h]

/-- A pull keeps a run within its lines. -/
theorem reached_pull {lines documents : List Text} {run : Run}
    (h : Reached settings lines documents run) :
    Reached settings lines (documents ++ (run.pull settings).outcome.document?.toList)
      (run.pull settings).run := by
  rcases h.pending_eq with hpending | hpending
  · rw [pull]
    rcases pullFrom_cases settings run.read run.pending with
      ⟨before, line, rest, document, hlines, hbefore, hline, hrun, houtcome⟩ |
      ⟨before, line, rest, fault, hlines, hbefore, hline, hrun, houtcome⟩ |
      ⟨hlines, hrun, houtcome⟩
    · rw [hpending] at hlines
      rw [hrun, houtcome]
      refine ⟨?_, Or.inl ?_⟩
      · rw [filterMap_take_of_drop hlines hbefore, ← h.documents_eq, hline]
        rfl
      · rw [← List.drop_drop, hlines, drop_length_append_cons]
    · rw [hpending] at hlines
      rw [hrun, houtcome]
      refine ⟨?_, Or.inr rfl⟩
      rw [filterMap_take_of_drop hlines hbefore, ← h.documents_eq, hline]
      rfl
    · rw [hpending] at hlines
      rw [hrun, houtcome, hpending]
      refine ⟨?_, Or.inr rfl⟩
      rw [List.take_add, List.take_length, List.filterMap_append, ← h.documents_eq,
        filterMap_eq_nil_of_not_endsPull hlines]
      rfl
  · rw [pull_of_pending_nil hpending]
    simpa [Pulled.document?] using h

def documentsOf (pulls : List Pull) : List Text :=
  pulls.filterMap fun p => p.outcome.document?

theorem reached_after {lines documents : List Text} {run : Run}
    (h : Reached settings lines documents run) (n : Nat) :
    Reached settings lines (documents ++ documentsOf (pulls settings n run))
      (after settings n run) := by
  induction n generalizing documents run with
  | zero =>
      rw [pulls, documentsOf, List.filterMap_nil, List.append_nil]
      exact h
  | succ n ih =>
      have hstep := ih (reached_pull h)
      have hdocuments : documentsOf (pulls settings (n + 1) run) =
          (run.pull settings).outcome.document?.toList ++
            documentsOf (pulls settings n (run.pull settings).run) := by
        rw [documentsOf, pulls, List.filterMap_cons]
        cases (run.pull settings).outcome.document? <;> rfl
      rw [hdocuments, ← List.append_assoc]
      exact hstep

theorem reached_start (lines : List Text) : Reached settings lines [] ⟨lines, 0⟩ :=
  ⟨rfl, Or.inl rfl⟩

/-- A pull that gives a document has read up to the line of the document, and it
counts what the lines that it read come to by themselves. -/
theorem pull_eq_document {lines documents : List Text} {run : Run}
    (h : Reached settings lines documents run) {document : Text}
    (hdocument : (run.pull settings).outcome = .document document) :
    ∃ before line rest, lines.drop run.read = before ++ line :: rest ∧
      Verdict.ofLine settings line = .converted document ∧
      (run.pull settings).run = ⟨rest, run.read + (before.length + 1)⟩ ∧
      (run.pull settings).counters = (Batch.convert settings (before ++ [line])).counters := by
  -- a run without pending lines gives no document, so this one was not stopped
  have hpending : run.pending = lines.drop run.read := by
    rcases h.pending_eq with hpending | hpending
    · exact hpending
    · rw [pull_of_pending_nil hpending] at hdocument
      cases hdocument
  rcases pullFrom_cases settings run.read run.pending with
    ⟨before, line, rest, document', hlines, hbefore, hline, hrun, houtcome⟩ |
    ⟨before, line, rest, fault, hlines, hbefore, hline, hrun, houtcome⟩ |
    ⟨hlines, hrun, houtcome⟩
  · cases houtcome.symm.trans hdocument
    refine ⟨before, line, rest, hpending.symm.trans hlines, hline, hrun, ?_⟩
    have hread : Batch.linesRead settings (before ++ [line]) = before ++ [line] := by
      apply Batch.linesRead_eq_self
      rw [List.forall_mem_append]
      refine ⟨fun l hl => (Verdict.endsPull_eq_false_iff.1 (hbefore l hl)).2, ?_⟩
      simp [hline, Verdict.isStopped]
    have hpull : run.linesRead settings = before ++ [line] := by
      rw [linesRead, pull, hrun, hlines, Nat.add_sub_cancel_left, take_length_append_cons]
    have hbatch := Batch.tally_convertFrom settings 0 (before ++ [line])
    have htally := tally_pull settings run
    rw [hread] at hbatch
    rw [hpull, ← hbatch] at htally
    exact congrArg Tally.counters htally
  · cases houtcome.symm.trans hdocument
  · cases houtcome.symm.trans hdocument

end Run

/-! ## Pulls to the end -/

namespace Batch

/-- What two sequences of lines give, where the second is not read if the first
stops. -/
def followedBy (a b : Batch) : Batch :=
  { a.append b with fault := a.fault.or b.fault }

theorem followedBy_empty (b : Batch) : b.followedBy {} = b := by
  rw [followedBy, append, List.append_nil, List.append_nil, Option.or_none]
  rfl

theorem empty_followedBy (b : Batch) : ({} : Batch).followedBy b = b := by
  rw [followedBy, append, List.nil_append, List.nil_append, Option.none_or]
  exact congrArg (fun counters => { b with counters }) (Counters.zero_add b.counters)

theorem followedBy_assoc (a b c : Batch) :
    (a.followedBy b).followedBy c = a.followedBy (b.followedBy c) := by
  simp [followedBy, append, Counters.add_assoc, Option.or_assoc]

theorem append_eq_followedBy {a : Batch} (h : a.fault = none) (b : Batch) :
    a.append b = a.followedBy b := by
  rw [followedBy, h, Option.none_or]
  rfl

end Batch

def Pull.batch (p : Pull) : Batch where
  documents := p.outcome.document?.toList
  counters := p.counters
  messages := p.messages
  fault := p.outcome.fault?

def Batch.ofPulls (pulls : List Pull) : Batch :=
  pulls.foldr (fun p b => p.batch.followedBy b) {}

namespace Run

variable {settings : Settings}

theorem batch_pullFrom_cons {line : Text}
    (h : (Verdict.ofLine settings line).endsPull = false) (read : Nat) (lines : List Text) :
    (pullFrom settings read (line :: lines)).batch =
      (Batch.ofVerdict settings (read + 1) (Verdict.ofLine settings line)).followedBy
        (pullFrom settings (read + 1) lines).batch := by
  obtain ⟨hdocument, hstopped⟩ := Verdict.endsPull_eq_false_iff.1 h
  have hfault := Verdict.fault?_of_not_isStopped hstopped
  rw [pullFrom_cons h, Batch.followedBy, Batch.ofVerdict, hdocument, hfault]
  rfl

/-- A pull gives what its lines give, and leaves the other lines to what follows. -/
theorem convertFrom_eq_pullFrom (settings : Settings) (read : Nat) (lines : List Text) :
    let p := pullFrom settings read lines
    Batch.convertFrom settings read lines =
      p.batch.followedBy (Batch.convertFrom settings p.run.read p.run.pending) := by
  induction lines generalizing read with
  | nil => rfl
  | cons line lines ih =>
      intro p
      cases hends : (Verdict.ofLine settings line).endsPull with
      | false =>
          obtain ⟨-, hstopped⟩ := Verdict.endsPull_eq_false_iff.1 hends
          have hfault := Verdict.fault?_of_not_isStopped hstopped
          rw [Batch.convertFrom_cons hstopped, Batch.append_eq_followedBy hfault, ih,
            ← Batch.followedBy_assoc, ← batch_pullFrom_cons hends]
          simp only [p, pullFrom_cons hends]
      | true =>
          cases hv : Verdict.ofLine settings line with
          | converted document => simp [p, Batch.convertFrom, pullFrom, hv, Verdict.isStopped]; rfl
          | stopped fault =>
              simp only [p, Batch.convertFrom, pullFrom, hv, Verdict.isStopped, if_true]
              exact (Batch.followedBy_empty _).symm
          | _ => rw [hv] at hends; cases hends

/-- What pulls have given, and then what the lines give that they have left. -/
theorem convertFrom_eq_pulls (settings : Settings) (n : Nat) (run : Run) :
    Batch.convertFrom settings run.read run.pending =
      (Batch.ofPulls (pulls settings n run)).followedBy
        (Batch.convertFrom settings (after settings n run).read (after settings n run).pending) := by
  induction n generalizing run with
  | zero => exact (Batch.empty_followedBy _).symm
  | succ n ih =>
      rw [pulls, Batch.ofPulls, List.foldr_cons, Batch.followedBy_assoc]
      exact (convertFrom_eq_pullFrom settings run.read run.pending).trans
        (congrArg (run.pull settings).batch.followedBy (ih _))

theorem length_pending_lt {run : Run} {document : Text}
    (h : (run.pull settings).outcome = .document document) :
    (run.pull settings).run.pending.length < run.pending.length := by
  rw [pull] at h ⊢
  rcases pullFrom_cases settings run.read run.pending with
    ⟨before, line, rest, _, hlines, -, -, hrun, -⟩ | ⟨_, _, _, _, -, -, -, -, houtcome⟩ |
    ⟨-, -, houtcome⟩
  · have hlength := congrArg List.length hlines
    rw [List.length_append, List.length_cons] at hlength
    simp only [hrun]
    omega
  · cases houtcome.symm.trans h
  · cases houtcome.symm.trans h

/-- Each pull that gives a document reads a line, so with more pulls than lines there is one
that gives none. -/
theorem exists_mem_pulls_of_length_lt {n : Nat} {run : Run} (h : run.pending.length < n) :
    ∃ p ∈ pulls settings n run, ∀ document, p.outcome ≠ .document document := by
  induction n generalizing run with
  | zero => cases h
  | succ n ih =>
      by_cases hdocument : ∃ document, (run.pull settings).outcome = .document document
      · obtain ⟨document, hdocument⟩ := hdocument
        have hlength := length_pending_lt hdocument
        obtain ⟨p, hp, hnone⟩ := @ih (run.pull settings).run (by omega)
        exact ⟨p, List.mem_cons_of_mem _ hp, hnone⟩
      · exact ⟨_, List.mem_cons_self, not_exists.1 hdocument⟩

/-- A run that is pulled until it gives no document gives what its lines give at once. -/
theorem ofPulls_pulls {n : Nat} {run : Run} {p : Pull} (hp : p ∈ pulls settings n run)
    (h : ∀ document, p.outcome ≠ .document document) :
    Batch.ofPulls (pulls settings n run) = Batch.convertFrom settings run.read run.pending := by
  rw [convertFrom_eq_pulls settings n run, pending_after_of_mem_pulls hp h, Batch.convertFrom_nil,
    Batch.followedBy_empty]

/-- A run of the lines gives its batch, messages with the numbers of their lines included, in
at most one pull more than there are lines. -/
theorem ofPulls_start {n : Nat} {lines : List Text} (h : lines.length < n) :
    Batch.ofPulls (pulls settings n ⟨lines, 0⟩) = Batch.convert settings lines := by
  obtain ⟨p, hp, hnone⟩ := @exists_mem_pulls_of_length_lt settings n ⟨lines, 0⟩ h
  exact ofPulls_pulls hp hnone

end Run

end IdsRules
