import IdsRules.Conversion.Batch

/-!
# Converting line by line on demand

A run converts its lines only as far as it is asked to. It holds the lines that
it has not read yet and the number of those that it has, and nothing else: a run
that has read its last line, or that was stopped by a fault, has no lines left.
One pull reads lines up to and including the next one that gives a document, so
the counters move by the lines that were read and not by those still waiting.
-/

namespace IdsRules

/-- A sequence of lines that is converted on demand. -/
structure Run where
  pending : List Text
  read : Nat := 0
deriving DecidableEq, Repr

/-- How a pull ends. -/
inductive Pulled where
  | document (document : Text)
  | exhausted
  /-- With a fault, after which no line is left. -/
  | stopped (fault : Numeral.Fault)
deriving DecidableEq, Repr

structure Pull where
  run : Run
  counters : Counters
  messages : List Message
  outcome : Pulled
deriving DecidableEq, Repr

namespace Run

/-- Reads the lines until one gives a document, where `read` lines stand before
them. -/
def pullFrom (settings : Settings) (read : Nat) : List Text → Pull
  | [] => ⟨⟨[], read⟩, .zero, [], .exhausted⟩
  | line :: rest =>
    let v := Verdict.ofLine settings line
    let messages := Message.ofVerdict settings (read + 1) v
    match v with
    | .converted document =>
      ⟨⟨rest, read + 1⟩, Counters.ofVerdict v, messages, .document document⟩
    | .stopped fault => ⟨⟨[], read + 1⟩, Counters.ofVerdict v, messages, .stopped fault⟩
    | _ =>
      let later := pullFrom settings (read + 1) rest
      ⟨later.run, Counters.ofVerdict v + later.counters, messages ++ later.messages,
        later.outcome⟩

/-- Asks a run for its next document. -/
def pull (settings : Settings) (run : Run) : Pull :=
  pullFrom settings run.read run.pending

/-- A run without lines gives nothing, tells nothing and counts nothing. -/
theorem pull_of_pending_nil {run : Run} (h : run.pending = []) (settings : Settings) :
    run.pull settings = ⟨run, .zero, [], .exhausted⟩ := by
  cases run
  subst h
  rfl

/-- A run that was not ended with a document has no lines left. -/
theorem pending_pullFrom {settings : Settings} {read : Nat} {lines : List Text}
    (h : ∀ document, (pullFrom settings read lines).outcome ≠ .document document) :
    (pullFrom settings read lines).run.pending = [] := by
  induction lines generalizing read with
  | nil => rfl
  | cons line rest ih =>
    rw [pullFrom] at h ⊢
    cases hv : Verdict.ofLine settings line with
    | converted document =>
      rw [hv] at h
      exact absurd rfl (h document)
    | stopped fault => rfl
    | skipped => rw [hv] at h; exact ih h
    | malformed => rw [hv] at h; exact ih h
    | filtered => rw [hv] at h; exact ih h
    | unencodable error => rw [hv] at h; exact ih h

end Run

end IdsRules
