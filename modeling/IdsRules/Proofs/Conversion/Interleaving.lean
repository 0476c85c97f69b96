import IdsRules.Proofs.Conversion.Ledger
import IdsRules.Proofs.Conversion.Pulls

/-!
# Runs of one session do not disturb each other

The runs of a session share its settings, which never change, and its counters,
which no run reads. So a pull does to its run what it would do to the run alone,
and everything else that happens leaves the run as it is: however steps are
interleaved, the pulls on one run are the first pulls on a run of the same lines
that nobody disturbs.
-/

namespace IdsRules

/-- What is seen of a pull from outside. -/
inductive Signal where
  | message (message : Message)
  | document (document : Text)
  | fault (fault : Numeral.Fault)

/-- What a pull lets be seen, in order: it tells about the lines that it reads
before it ends. -/
def Pull.signals (p : Pull) : List Signal :=
  p.messages.map .message ++
    match p.outcome with
    | .document document => [.document document]
    | .stopped fault => [.fault fault]
    | .exhausted => []

namespace Session

def Event.startedLines? : Event → Option (List Text)
  | .step (.start lines) => some lines
  | _ => none

theorem startedLines?_eq_some {event : Event} {lines : List Text}
    (h : event.startedLines? = some lines) : event = .step (.start lines) := by
  cases event with
  | filesChanged tree => cases h
  | step step =>
      cases step with
      | start lines' => cases h; rfl
      | _ => cases h

def advance (s : Session) : Event → Session
  | .step step => (s.perform step).1
  | .filesChanged tree => { s with tree }

def advanceAll (s : Session) (events : List Event) : Session :=
  events.foldl advance s

/-- What an event pulls from the run of a number. -/
def pulledBy (s : Session) (number : Nat) : Event → List Pull
  | .step (.pull n) => if n = number then (s.converter.pull number).2.toList else []
  | _ => []

/-- What a sequence of events pulls from the run of a number. -/
def pullsOf (number : Nat) (s : Session) : List Event → List Pull
  | [] => []
  | event :: events => s.pulledBy number event ++ pullsOf number (s.advance event) events

/-- What is pulled from a run of the lines when it is pulled `n` times and
nothing else happens. -/
def lonePulls (settings : Settings) (tree : FileTree) (lines : List Text) (n : Nat) : List Pull :=
  pullsOf 0 (initial settings tree)
    (.step (.start lines) :: List.replicate n (.step (.pull 0)))

theorem settings_advance (s : Session) (event : Event) :
    (s.advance event).converter.settings = s.converter.settings := by
  cases event with
  | step step => exact s.settings_perform step
  | filesChanged tree => rfl

theorem settings_advanceAll (s : Session) (events : List Event) :
    (s.advanceAll events).converter.settings = s.converter.settings := by
  induction events generalizing s with
  | nil => rfl
  | cons event events ih => exact (ih (s.advance event)).trans (s.settings_advance event)

/-! ## What an event does to one run -/

section Started

variable {s : Session} {number : Nat} {run : Run}

theorem runs_pull (h : s.converter.runs[number]? = some run) :
    s.pulledBy number (.step (.pull number)) = [run.pull s.converter.settings] ∧
      (s.advance (.step (.pull number))).converter.runs[number]? =
        some (run.pull s.converter.settings).run := by
  have hlength : number < s.converter.runs.length := (List.getElem?_eq_some_iff.1 h).1
  constructor
  · rw [pulledBy, if_pos rfl, Converter.pull, h]
    rfl
  · rw [advance, perform, Converter.pull, h]
    exact List.getElem?_set_self hlength

theorem perform_pull (h : s.converter.runs[number]? = some run) :
    (s.perform (.pull number)).2 = .pulled (some (run.pull s.converter.settings)) ∧
      (s.perform (.pull number)).1.converter.counters =
        s.converter.counters + (run.pull s.converter.settings).counters := by
  rw [perform, Converter.pull, h]
  exact ⟨rfl, rfl⟩

theorem runs_other (h : s.converter.runs[number]? = some run) {event : Event}
    (hevent : event ≠ .step (.pull number)) :
    s.pulledBy number event = [] ∧
      (s.advance event).converter.runs[number]? = some run := by
  have hlength : number < s.converter.runs.length := (List.getElem?_eq_some_iff.1 h).1
  cases event with
  | filesChanged tree => exact ⟨rfl, h⟩
  | step step =>
      cases step with
      | convert lines => exact ⟨rfl, h⟩
      | convertFile input output => exact ⟨rfl, h⟩
      | start lines =>
          refine ⟨rfl, ?_⟩
          exact (List.getElem?_append_left hlength).trans h
      | pull n =>
          have hn : n ≠ number := fun hn => hevent (by rw [hn])
          refine ⟨if_neg hn, ?_⟩
          rw [advance, perform, Converter.pull]
          cases hother : s.converter.runs[n]? with
          | none => exact h
          | some other => exact (List.getElem?_set_ne hn).trans h

/-- However they are interleaved with other steps, pulls on a run are pulls in a
row. -/
theorem exists_pulls_of_run (h : s.converter.runs[number]? = some run) (events : List Event) :
    ∃ k, pullsOf number s events = Run.pulls s.converter.settings k run ∧
      (s.advanceAll events).converter.runs[number]? =
        some (Run.after s.converter.settings k run) := by
  -- for every session: the other runs and the counters may be whatever they like
  induction events generalizing s run with
  | nil => exact ⟨0, rfl, h⟩
  | cons event events ih =>
      by_cases hevent : event = .step (.pull number)
      · subst hevent
        obtain ⟨hpull, hrun⟩ := runs_pull h
        obtain ⟨k, hpulls, hafter⟩ := ih hrun
        rw [settings_advance] at hpulls hafter
        refine ⟨k + 1, ?_, hafter⟩
        rw [pullsOf, hpull, hpulls]
        rfl
      · obtain ⟨hpull, hrun⟩ := runs_other h hevent
        obtain ⟨k, hpulls, hafter⟩ := ih hrun
        rw [settings_advance] at hpulls hafter
        refine ⟨k, ?_, hafter⟩
        rw [pullsOf, hpull, hpulls]
        rfl

theorem pullsOf_replicate (h : s.converter.runs[number]? = some run) (n : Nat) :
    pullsOf number s (List.replicate n (.step (.pull number))) =
      Run.pulls s.converter.settings n run := by
  induction n generalizing s run with
  | zero => rfl
  | succ n ih =>
      obtain ⟨hpull, hrun⟩ := runs_pull h
      rw [List.replicate_succ, pullsOf, hpull, ih hrun, settings_advance]
      rfl

end Started

/-- There is nothing to pull from a run that is not started yet, and an event
that starts none leaves the runs as many as they are. -/
theorem runs_not_started {s : Session} {number : Nat} (h : s.converter.runs.length ≤ number)
    {event : Event} (hevent : event.startedLines? = none) :
    s.pulledBy number event = [] ∧
      (s.advance event).converter.runs.length = s.converter.runs.length := by
  have hnone : s.converter.runs[number]? = none := List.getElem?_eq_none h
  cases event with
  | filesChanged tree => exact ⟨rfl, rfl⟩
  | step step =>
      cases step with
      | convert lines => exact ⟨rfl, rfl⟩
      | convertFile input output => exact ⟨rfl, rfl⟩
      | start lines => cases hevent
      | pull n =>
          constructor
          · rw [pulledBy, Converter.pull, hnone]
            exact ite_self _
          · rw [advance, perform, Converter.pull]
            cases s.converter.runs[n]? with
            | none => rfl
            | some other => exact List.length_set

theorem exists_pulls_of_started {s : Session} {number : Nat} {lines : List Text}
    {events : List Event} (hnumber : s.converter.runs.length ≤ number)
    (h : (events.filterMap Event.startedLines?)[number - s.converter.runs.length]? = some lines) :
    ∃ k, pullsOf number s events = Run.pulls s.converter.settings k ⟨lines, 0⟩ ∧
      (s.advanceAll events).converter.runs[number]? =
        some (Run.after s.converter.settings k ⟨lines, 0⟩) := by
  -- the number counts the starts from the runs that the session already has
  induction events generalizing s with
  | nil => cases h
  | cons event events ih =>
      cases hevent : event.startedLines? with
      | none =>
          obtain ⟨hpull, hruns⟩ := runs_not_started hnumber hevent
          rw [List.filterMap_cons_none hevent, ← hruns] at h
          obtain ⟨k, hpulls, hafter⟩ := ih (Nat.le_trans (Nat.le_of_eq hruns) hnumber) h
          rw [settings_advance] at hpulls hafter
          refine ⟨k, ?_, hafter⟩
          rw [pullsOf, hpull, hpulls]
          rfl
      | some started =>
          obtain rfl := startedLines?_eq_some hevent
          have hruns : (s.advance (.step (.start started))).converter.runs =
              s.converter.runs ++ [⟨started, 0⟩] := rfl
          rw [List.filterMap_cons_some hevent] at h
          obtain hlast | hlater := Nat.eq_or_lt_of_le hnumber
          · rw [← hlast, Nat.sub_self, List.getElem?_cons_zero, Option.some.injEq] at h
            subst h
            have hrun : (s.advance (.step (.start started))).converter.runs[number]? =
                some ⟨started, 0⟩ := by
              rw [hruns, ← hlast]
              exact List.getElem?_concat_length
            exact exists_pulls_of_run hrun events
          · have hlength : (s.advance (.step (.start started))).converter.runs.length =
                s.converter.runs.length + 1 := by rw [hruns, List.length_append]; rfl
            have hindex : number - s.converter.runs.length =
                number - (s.converter.runs.length + 1) + 1 := by omega
            rw [hindex, List.getElem?_cons_succ, ← hlength] at h
            exact ih (hlength ▸ hlater) h

/-- A run that nobody disturbs is pulled as often as it is asked to be. -/
theorem lonePulls_eq (settings : Settings) (tree : FileTree) (lines : List Text) (n : Nat) :
    lonePulls settings tree lines n = Run.pulls settings n ⟨lines, 0⟩ := by
  have hrun : ((initial settings tree).advance (.step (.start lines))).converter.runs[0]? =
      some ⟨lines, 0⟩ := rfl
  exact pullsOf_replicate hrun n

/-- However the steps of a session are interleaved, the pulls on the run of a
number are the first ones on a run of the same lines that nobody disturbs, and
so is all that they let be seen. The next pull that gives a document reads up to
the line of the document, the next of the lines that have one, and counts what
the lines that it reads come to by themselves. Behind a pull that gave none, no
pull gives, tells or counts anything. -/
theorem pulls_interleaved (settings : Settings) (tree : FileTree) (events : List Event)
    (number : Nat) (lines : List Text)
    (h : (events.filterMap Event.startedLines?)[number]? = some lines) :
    let s := (initial settings tree).advanceAll events
    let taken := pullsOf number (initial settings tree) events
    (∀ tree' n, taken.length ≤ n →
      taken <+: lonePulls settings tree' lines n ∧
        taken.flatMap Pull.signals <+: (lonePulls settings tree' lines n).flatMap Pull.signals) ∧
    ∃ run pull, s.converter.runs[number]? = some run ∧
      (s.perform (.pull number)).2 = .pulled (some pull) ∧
      (∀ document, pull.outcome = .document document →
        ∃ before line rest, lines.drop run.read = before ++ line :: rest ∧
          Verdict.ofLine settings line = .converted document ∧
          pull.run = ⟨rest, run.read + (before.length + 1)⟩ ∧
          Run.documentsOf taken ++ [document] =
            ((lines.take pull.run.read).filterMap fun l =>
              (Verdict.ofLine settings l).document?) ∧
          (s.perform (.pull number)).1.converter.counters =
            s.converter.counters + (Batch.convert settings (before ++ [line])).counters) ∧
      ((∃ earlier ∈ taken, ∀ document, earlier.outcome ≠ .document document) →
        pull.outcome = .exhausted ∧ pull.messages = [] ∧
          (s.perform (.pull number)).1.converter.counters = s.converter.counters) := by
  intro s taken
  have hsettings : s.converter.settings = settings := settings_advanceAll _ events
  have hstarted := exists_pulls_of_started (s := initial settings tree) (Nat.zero_le number) h
  obtain ⟨k, htaken, hrun⟩ : ∃ k, taken = Run.pulls settings k ⟨lines, 0⟩ ∧
    s.converter.runs[number]? = some (Run.after settings k ⟨lines, 0⟩) := hstarted
  obtain ⟨hreport, hcounters⟩ := perform_pull hrun
  rw [hsettings] at hreport hcounters
  have hreached := Run.reached_after (@Run.reached_start settings lines) k
  rw [← htaken, List.nil_append] at hreached
  refine ⟨?_, _, _, hrun, hreport, ?_, ?_⟩
  · intro tree' n hn
    have hinitial : taken <+: lonePulls settings tree' lines n := by
      rw [htaken, Run.length_pulls] at hn
      rw [lonePulls_eq, htaken]
      exact Run.isPrefix_pulls hn _
    refine ⟨hinitial, ?_⟩
    obtain ⟨later, hlater⟩ := hinitial
    rw [← hlater, List.flatMap_append]
    exact List.prefix_append _ _
  · intro document hdocument
    obtain ⟨before, line, rest, hlines, hline, hafter, hcount⟩ :=
      Run.pull_eq_document hreached hdocument
    have hdocuments := (Run.reached_pull hreached).documents_eq
    rw [hdocument] at hdocuments
    exact ⟨before, line, rest, hlines, hline, hafter, hdocuments, by rw [hcounters, hcount]⟩
  · rintro ⟨earlier, hmem, hearlier⟩
    rw [htaken] at hmem
    have hpending := Run.pending_after_of_mem_pulls hmem hearlier
    rw [hcounters, Run.pull_of_pending_nil hpending]
    exact ⟨rfl, rfl, rfl⟩

/-- Two runs, of which the second is pulled before and after a file is converted
and the first is pulled. Its lines are a malformed line, a rule, a comment, a
rule with a value at fault, and a rule that is never read. -/
def twoRuns : List Text × List Event :=
  let line (value : Text) : Text := "a b c d > e f (k:".toList ++ value ++ [')']
  let lines := ["x".toList, line "1".toList, "#".toList, line "\u0131nf".toList,
    line "2".toList]
  (lines, [.step (.start [line "3".toList]), .step (.start lines), .step (.pull 1),
    .step (.convertFile "in".toList "out".toList), .step (.pull 0),
    .filesChanged Ledger.crossingTree, .step (.pull 1)])

theorem pulls_interleaved_twoRuns :
    let lines := twoRuns.1
    let start := initial {} Ledger.crossingTree
    let s := start.advanceAll twoRuns.2
    let s' := start.advanceAll (twoRuns.2.take 2)
    (pullsOf 1 start twoRuns.2).flatMap Pull.signals <+:
        (lonePulls {} Ledger.crossingTree lines 3).flatMap Pull.signals ∧
      (s.perform (.pull 1)).1.converter.counters = s.converter.counters ∧
      ∃ before line rest, lines = before ++ line :: rest ∧
        (s'.perform (.pull 1)).1.converter.counters =
          s'.converter.counters + (Batch.convert {} (before ++ [line])).counters := by
  intro lines start s s'
  have hlength : (pullsOf 1 start twoRuns.2).length ≤ 3 := by decide +kernel
  have hstopped : ((pullsOf 1 start twoRuns.2).any fun p => p.outcome.document?.isNone) = true := by
    decide +kernel
  have hrun : s'.converter.runs[1]? = some ⟨lines, 0⟩ := by decide +kernel
  have hfirst : ((Run.mk lines 0).pull s'.converter.settings).outcome.document?.isSome = true := by
    decide +kernel
  obtain ⟨earlier, hmem, hearlier⟩ := List.any_eq_true.1 hstopped
  have hnone : ∀ document, earlier.outcome ≠ .document document := by
    intro document hdocument
    rw [hdocument] at hearlier
    cases hearlier
  obtain ⟨hlone, _, _, _, _, _, hquiet⟩ :=
    pulls_interleaved {} Ledger.crossingTree twoRuns.2 1 lines rfl
  obtain ⟨-, run, pull, hrun', hreport, hnext, -⟩ :=
    pulls_interleaved {} Ledger.crossingTree (twoRuns.2.take 2) 1 lines rfl
  have hsame : ⟨lines, 0⟩ = run := Option.some.inj (hrun.symm.trans hrun')
  have hpull : (Run.mk lines 0).pull s'.converter.settings = pull :=
    Option.some.inj (StepReport.pulled.inj ((perform_pull hrun).1.symm.trans hreport))
  refine ⟨(hlone Ledger.crossingTree 3 hlength).2, (hquiet ⟨earlier, hmem, hnone⟩).2.2, ?_⟩
  rw [hpull, Option.isSome_iff_exists] at hfirst
  obtain ⟨document, hdocument⟩ := hfirst
  obtain ⟨before, line, rest, hlines, -, -, -, hcounters⟩ :=
    hnext document (Pulled.document?_eq_some_iff.1 hdocument)
  rw [← hsame, List.drop_zero] at hlines
  exact ⟨before, line, rest, hlines, hcounters⟩

end Session

end IdsRules
