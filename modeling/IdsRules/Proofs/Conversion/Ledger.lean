import IdsRules.Conversion.Session
import IdsRules.Proofs.Conversion.FileRun
import IdsRules.Proofs.Conversion.Tally

/-!
# The counters of a session

A ledger follows a session from outside. It notes the lines that each step takes
up, the documents that the step hands out or writes to a file, and the fault
that it fails with, and it begins a new page when a file is converted. The
invariant is that counters, documents and faults are the tally of the lines on
the page. Runs may be pulled in any order, and a run goes on counting after the
page was turned, because what a pull adds is the tally of the lines that this
pull reads.
-/

namespace IdsRules

namespace Failure

/-- The fault of a failure that is not one of files. -/
def fault? : Failure → Option Numeral.Fault
  | .value fault => some fault
  | .file _ _ => none

theorem bind_fault?_value (fault : Option Numeral.Fault) :
    (fault.map Failure.value).bind fault? = fault := by
  cases fault <;> rfl

end Failure

namespace Step

def resets : Step → Bool
  | .convertFile _ _ => true
  | _ => false

end Step

namespace Session

/-- The lines that a step takes up. -/
def linesRead (s : Session) : Step → List Text
  | .convert lines => Batch.linesRead s.converter.settings lines
  | .start _ => []
  | .pull number =>
    match s.converter.runs[number]? with
    | none => []
    | some run => run.linesRead s.converter.settings
  | .convertFile input output =>
    match FileRun.opened? s.tree input output with
    | none => []
    | some (lines, _) => Batch.linesRead s.converter.settings lines

/-- The documents that a step hands out, or writes to its output file. -/
def delivered (s : Session) : Step → List Text
  | .convert lines => (s.converter.convert lines).2.documents
  | .start _ => []
  | .pull number =>
    match (s.converter.pull number).2 with
    | none => []
    | some pull => pull.outcome.document?.toList
  | .convertFile input output =>
    match FileRun.opened? s.tree input output with
    | none => []
    | some (lines, _) => (s.converter.convert lines).2.documents

def raised (s : Session) (step : Step) : List Numeral.Fault :=
  ((s.perform step).2.failure?.bind Failure.fault?).toList

/-- There is nothing to pull from a run that was never started. -/
theorem tally_pull_none {s : Session} {number : Nat}
    (h : s.converter.runs[number]? = none) :
    s.linesRead (.pull number) = [] ∧
      (s.perform (.pull number)).1.converter.counters = s.converter.counters ∧
      s.delivered (.pull number) = [] ∧ s.raised (.pull number) = [] := by
  have hpull : s.converter.pull number = (s.converter, none) := by rw [Converter.pull, h]
  refine ⟨by rw [linesRead, h], by rw [perform, hpull], by rw [delivered, hpull], ?_⟩
  rw [raised, perform, hpull]
  rfl

theorem tally_pull_some {s : Session} {number : Nat} {run : Run}
    (h : s.converter.runs[number]? = some run) :
    let t := Tally.ofLines s.converter.settings (s.linesRead (.pull number))
    (s.perform (.pull number)).1.converter.counters = s.converter.counters + t.counters ∧
      s.delivered (.pull number) = t.documents ∧ s.raised (.pull number) = t.faults := by
  have htally := Run.tally_pull s.converter.settings run
  have hlines : s.linesRead (.pull number) = run.linesRead s.converter.settings := by
    rw [linesRead, h]
  have hpull : (s.converter.pull number).2 = some (run.pull s.converter.settings) := by
    rw [Converter.pull, h]
  simp only [hlines, ← htally]
  refine ⟨?_, ?_, ?_⟩
  · rw [perform, Converter.pull, h]
    rfl
  · rw [delivered, hpull]
    rfl
  · have hreport : (s.perform (.pull number)).2 =
        .pulled (some (run.pull s.converter.settings)) := by
      rw [← hpull]
      rfl
    rw [raised, hreport, Pull.tally]
    cases hend : (run.pull s.converter.settings).outcome <;>
      simp [StepReport.failure?, hend, Pulled.fault?, Failure.fault?]

theorem tally_convertFile (s : Session) (input output : Text) :
    let t := Tally.ofLines s.converter.settings (s.linesRead (.convertFile input output))
    (s.perform (.convertFile input output)).1.converter.counters = t.counters ∧
      s.delivered (.convertFile input output) = t.documents ∧
      s.raised (.convertFile input output) = t.faults := by
  cases hopen : FileRun.opened? s.tree input output with
  | none =>
      obtain ⟨hcounters, -, path, error, hfailure⟩ :=
        FileRun.convert_of_not_opened hopen s.converter.settings
      have hlines : s.linesRead (.convertFile input output) = [] := by rw [linesRead, hopen]
      simp only [hlines, Tally.ofLines_nil]
      refine ⟨hcounters, by rw [delivered, hopen], ?_⟩
      rw [raised, perform, StepReport.failure?, Converter.convertFile, hfailure]
      rfl
  | some opened =>
      obtain ⟨lines, place⟩ := opened
      obtain ⟨hcounters, -, hfailure⟩ := FileRun.convert_of_opened hopen s.converter.settings
      have htally := Batch.tally_convertFrom s.converter.settings 0 lines
      have hlines : s.linesRead (.convertFile input output) =
          Batch.linesRead s.converter.settings lines := by rw [linesRead, hopen]
      simp only [hlines, ← htally]
      refine ⟨hcounters, by rw [delivered, hopen]; rfl, ?_⟩
      rw [raised, perform, StepReport.failure?, Converter.convertFile, hfailure,
        Failure.bind_fault?_value]
      rfl

/-- A step adds the tally of the lines that it takes up, to the counters as they
are or to counters that it has set back. -/
theorem tally_perform (s : Session) (step : Step) :
    let t := Tally.ofLines s.converter.settings (s.linesRead step)
    (s.perform step).1.converter.counters =
        (if step.resets then .zero else s.converter.counters) + t.counters ∧
      s.delivered step = t.documents ∧ s.raised step = t.faults := by
  cases step with
  | start lines => exact ⟨rfl, rfl, rfl⟩
  | convert lines =>
      have htally := Batch.tally_convertFrom s.converter.settings 0 lines
      simp only [linesRead, ← htally]
      refine ⟨rfl, rfl, ?_⟩
      rw [raised, perform, StepReport.failure?, Failure.bind_fault?_value]
      rfl
  | pull number =>
      cases hrun : s.converter.runs[number]? with
      | none =>
          obtain ⟨hlines, hcounters, hdelivered, hraised⟩ := tally_pull_none hrun
          rw [hlines, hcounters, hdelivered, hraised]
          exact ⟨rfl, rfl, rfl⟩
      | some run => exact tally_pull_some hrun
  | convertFile input output =>
      obtain ⟨hcounters, hdelivered, hraised⟩ := s.tally_convertFile input output
      refine ⟨?_, hdelivered, hraised⟩
      rw [hcounters]
      exact (Counters.zero_add _).symm

/-- The documents that the conversion of a file delivers are what its output
file holds. -/
theorem exists_written {s : Session} {input output : Text} {content : List UInt8}
    {place : Place} (hread : s.tree.read input = .ok content)
    (htarget : s.tree.target output = .ok place) :
    ∃ written, Utf8.decode written =
        ((s.delivered (.convertFile input output)).flatMap fun document => document ++ ['\n']) ∧
      Utf8.encode (Utf8.decode written) = written ∧
      (s.perform (.convertFile input output)).1.tree.lookup place = some (.file written) := by
  have hopen : FileRun.opened? s.tree input output = some (FileRun.linesOf content, place) :=
    FileRun.opened?_eq_some_iff.2 ⟨content, hread, rfl, htarget⟩
  obtain ⟨written, hdecode, hencode, hlookup, -⟩ :=
    FileRun.exists_written hread htarget s.converter.settings
  refine ⟨written, ?_, hencode, hlookup⟩
  rw [delivered, hopen]
  exact hdecode

/-- When the conversion of a file returns, every line of the input has been
counted and has a class. -/
theorem counters_convertFile {s : Session} {input output : Text}
    (h : (s.perform (.convertFile input output)).2.failure? = none) :
    (s.perform (.convertFile input output)).1.converter.counters.total =
        (s.perform (.convertFile input output)).1.converter.counters.classified ∧
      ∃ content, s.tree.read input = .ok content ∧
        (s.perform (.convertFile input output)).1.converter.counters.total =
          (FileRun.linesOf content).length := by
  obtain ⟨hcounters, -, hraised⟩ := s.tally_convertFile input output
  have hfaults : (Tally.ofLines s.converter.settings
      (s.linesRead (.convertFile input output))).faults = [] := by
    rw [← hraised, raised, h]
    rfl
  have hclassified := Tally.classified_ofLines s.converter.settings
    (s.linesRead (.convertFile input output))
  rw [hfaults, List.length_nil, Nat.add_zero] at hclassified
  rw [hcounters, Tally.total_ofLines, hclassified]
  refine ⟨rfl, ?_⟩
  have hfailure : (FileRun.convert s.converter.settings s.tree input output).failure = none := h
  cases hopen : FileRun.opened? s.tree input output with
  | none =>
      obtain ⟨-, -, path, error, hfile⟩ :=
        FileRun.convert_of_not_opened hopen s.converter.settings
      exact absurd (hfile.symm.trans hfailure) (by simp)
  | some opened =>
      obtain ⟨lines, place⟩ := opened
      obtain ⟨content, hread, rfl, -⟩ := FileRun.opened?_eq_some_iff.1 hopen
      obtain ⟨-, -, hfault⟩ := FileRun.convert_of_opened hopen s.converter.settings
      rw [hfailure, eq_comm, Option.map_eq_none_iff] at hfault
      refine ⟨content, hread, ?_⟩
      rw [linesRead, hopen]
      exact congrArg List.length (Batch.linesRead_of_fault_eq_none hfault)

/-- What can happen to a session: a step of its own, or a change of the files by
someone else. -/
inductive Event where
  | step (step : Step)
  | filesChanged (tree : FileTree)

end Session

/-- What has been seen of a session since its counters were last set back. -/
structure Ledger where
  /-- The lines that were taken up. -/
  lines : List Text := []
  /-- The documents that were handed out, or written to a file. -/
  documents : List Text := []
  /-- The faults that steps failed with. -/
  faults : List Numeral.Fault := []

namespace Ledger

def after (l : Ledger) (s : Session) (step : Step) : Ledger :=
  let page := if step.resets then {} else l
  ⟨page.lines ++ s.linesRead step, page.documents ++ s.delivered step,
    page.faults ++ s.raised step⟩

/-- Counters, documents and faults are the tally of the lines. -/
def Accounts (l : Ledger) (c : Converter) : Prop :=
  ⟨c.counters, l.documents, l.faults⟩ = Tally.ofLines c.settings l.lines

/-- A step keeps a ledger that accounts for the counters. -/
theorem accounts_after {l : Ledger} {s : Session} (h : l.Accounts s.converter) (step : Step) :
    (l.after s step).Accounts (s.perform step).1.converter := by
  obtain ⟨hcounters, hdelivered, hraised⟩ := s.tally_perform step
  rw [Accounts, hcounters, Session.settings_perform, after]
  cases hreset : step.resets with
  | true => simp [hdelivered, hraised]
  | false =>
      rw [Accounts] at h
      simp [Tally.ofLines_append, Tally.append_def, hdelivered, hraised, ← h]

def follow (state : Session × Ledger) : Session.Event → Session × Ledger
  | .step step => ((state.1.perform step).1, state.2.after state.1 step)
  | .filesChanged tree => ({ state.1 with tree }, state.2)

/-- A session with its ledger after a sequence of events. -/
def followAll (settings : Settings) (tree : FileTree) (events : List Session.Event) :
    Session × Ledger :=
  events.foldl follow (Session.initial settings tree, {})

theorem accounts_followAll (settings : Settings) (tree : FileTree)
    (events : List Session.Event) :
    (followAll settings tree events).2.Accounts (followAll settings tree events).1.converter ∧
      (followAll settings tree events).1.converter.settings = settings := by
  have hrun : ∀ state : Session × Ledger,
      state.2.Accounts state.1.converter ∧ state.1.converter.settings = settings →
        (events.foldl follow state).2.Accounts (events.foldl follow state).1.converter ∧
          (events.foldl follow state).1.converter.settings = settings := by
    induction events with
    | nil => exact fun _ h => h
    | cons event events ih =>
        intro state h
        apply ih
        cases event with
        | step step => exact ⟨accounts_after h.1 step, (state.1.settings_perform step).trans h.2⟩
        | filesChanged tree => exact h
  exact hrun _ ⟨rfl, rfl⟩

/-- After any sequence of steps, with the files changed in between or not, the
lines that were counted are those with a class and those of which a value could
not be read, and a line is counted as converted for each document delivered. The
documents delivered by the conversion of a file are the text of its output, each
with a line feed behind it, and when it returns it has counted the lines of its
input. -/
theorem counters_conserved (settings : Settings) (tree : FileTree)
    (events : List Session.Event) :
    let s := (followAll settings tree events).1
    let l := (followAll settings tree events).2
    let c := s.converter.counters
    let stopped := l.lines.countP fun line => (Verdict.ofLine settings line).isStopped
    c.total = c.converted + c.errors + c.filtered + c.skipped + stopped ∧
      c.total = l.lines.length ∧ c.converted = l.documents.length ∧ l.faults.length = stopped ∧
      ∀ input output,
        (∀ content place, s.tree.read input = .ok content → s.tree.target output = .ok place →
          ∃ written, Utf8.decode written = ((s.delivered (.convertFile input output)).flatMap
              fun document => document ++ ['\n']) ∧
            Utf8.encode (Utf8.decode written) = written ∧
            (s.perform (.convertFile input output)).1.tree.lookup place = some (.file written)) ∧
        ((s.perform (.convertFile input output)).2.failure? = none →
          let c := (s.perform (.convertFile input output)).1.converter.counters
          c.total = c.converted + c.errors + c.filtered + c.skipped ∧
            ∃ content, s.tree.read input = .ok content ∧
              c.total = (FileRun.linesOf content).length) := by
  intro s l c stopped
  obtain ⟨haccounts, hsettings⟩ := accounts_followAll settings tree events
  have htally : ⟨c, l.documents, l.faults⟩ = Tally.ofLines settings l.lines := by
    rw [← hsettings]
    exact haccounts
  have hcounters : c = (Tally.ofLines settings l.lines).counters := congrArg Tally.counters htally
  have hdocuments : l.documents = (Tally.ofLines settings l.lines).documents :=
    congrArg Tally.documents htally
  have hfaults : l.faults = (Tally.ofLines settings l.lines).faults :=
    congrArg Tally.faults htally
  have htotal : c.total = l.lines.length := by rw [hcounters, Tally.total_ofLines]
  have hstopped : l.faults.length = stopped := by rw [hfaults, Tally.length_faults_ofLines]
  have hclassified : c.classified + l.faults.length = l.lines.length := by
    rw [hcounters, hfaults, Tally.classified_ofLines]
  refine ⟨?_, htotal, ?_, hstopped, fun input output => ⟨fun content place hread htarget =>
    Session.exists_written hread htarget, fun hreturns => Session.counters_convertFile hreturns⟩⟩
  · rw [htotal, ← hclassified, hstopped]
    rfl
  · rw [hcounters, hdocuments, Tally.length_documents_ofLines]

/-- A run of three rules, of which the last has a value at fault. A file is
converted between its documents, so the second document and the fault are on a
later page than the first document. -/
def crossingEvents : List Session.Event :=
  let line (value : Text) : Text := "a b c d > e f (k:".toList ++ value ++ [')']
  [.step (.start [line "1".toList, line "2".toList, line "\u0131nf".toList]),
    .step (.pull 0), .step (.convertFile "in".toList "out".toList), .step (.pull 0),
    .step (.pull 0)]

/-- A directory with a file of a comment and a rule. -/
def crossingTree : FileTree :=
  ⟨⟨[(["in".toList], .file (Utf8.encode "#\na b any any > c any (k:1)".toList))], by decide⟩, []⟩

/-- Of the two documents on the second page one was written and one was handed out. -/
theorem counters_conserved_crossing :
    let s := (followAll {} crossingTree crossingEvents).1
    let l := (followAll {} crossingTree crossingEvents).2
    let after := s.perform (.convertFile "in".toList "out".toList)
    s.converter.counters = { total := 4, converted := 2, skipped := 1 } ∧
      l.documents.length = 2 ∧ l.faults.length = 1 ∧
      (∃ written, after.1.tree.lookup ["out".toList] = some (.file written) ∧ Utf8.decode written =
        "\x7B\"action\":\"a\",\"protocol\":\"b\",\"source_ip\":\"any\",".toList ++
          "\"source_port\":\"any\",\"direction\":\">\",\"dest_ip\":\"c\",".toList ++
          "\"dest_port\":\"any\",\"options\":\x7B\"k\":1\x7D,".toList ++
          "\"raw_rule\":\"a b any any > c any (k:1)\"\x7D\n".toList) ∧
      ∃ content, s.tree.read "in".toList = .ok content ∧
        after.1.converter.counters.total = (FileRun.linesOf content).length := by
  intro s l after
  have hcounters : s.converter.counters = { total := 4, converted := 2, skipped := 1 } := by
    decide +kernel
  have htarget : s.tree.target "out".toList = .ok ["out".toList] := by rfl
  have hreturns : after.2.failure? = none := by decide +kernel
  have hafter : after = (followAll {} crossingTree crossingEvents).1.perform
    (.convertFile "in".toList "out".toList) := rfl
  obtain ⟨-, -, hconverted, hfaults, hfile⟩ := counters_conserved {} crossingTree crossingEvents
  obtain ⟨hwritten, hreturned⟩ := hfile "in".toList "out".toList
  obtain ⟨-, content, hread, htotal⟩ := hreturned hreturns
  obtain ⟨written, hdecode, -, hlookup⟩ := hwritten content _ hread htarget
  -- the lines are made known first, so that they are not read again for each character
  have hlines : FileRun.linesOf content = ["#".toList, "a b any any > c any (k:1)".toList] := by
    have hcontent : s.tree.read "in".toList =
        .ok (Utf8.encode "#\na b any any > c any (k:1)".toList) := by rfl
    cases hread.symm.trans hcontent
    decide +kernel
  have hdelivered : s.delivered (.convertFile "in".toList "out".toList) =
      (Batch.convert s.converter.settings (FileRun.linesOf content)).documents := by
    rw [Session.delivered, FileRun.opened?_eq_some_iff.2 ⟨content, hread, rfl, htarget⟩]
    rfl
  refine ⟨hcounters, ?_, ?_, ⟨written, hlookup, hdecode.trans ?_⟩, content, hread, ?_⟩
  · exact hconverted.symm.trans (congrArg Counters.converted hcounters)
  · exact hfaults.trans (by decide +kernel)
  · have hsettings : s.converter.settings = {} :=
      (accounts_followAll {} crossingTree crossingEvents).2
    rw [hdelivered, hsettings, hlines]
    decide +kernel
  · rw [hafter]
    exact htotal

end Ledger

end IdsRules
