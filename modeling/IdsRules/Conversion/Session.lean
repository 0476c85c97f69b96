import IdsRules.Conversion.FileRun
import IdsRules.Conversion.Run

/-!
# Sessions

One converter serves any number of conversions: whole batches, runs that are
pulled from time to time, and files. Its counters add up over all of them, and
the conversion of a file sets them back first. The runs of a session share its
settings and its counters and nothing else, so what a run gives does not depend
on what the others do.

A session is the converter with the file tree that it works on. It moves by
steps, and each step says what it did.
-/

namespace IdsRules

/-- Settings with the state that conversions leave behind. -/
structure Converter where
  settings : Settings
  counters : Counters := .zero
  runs : List Run := []
deriving DecidableEq, Repr

namespace Converter

def count (c : Converter) (counters : Counters) : Converter :=
  { c with counters := c.counters + counters }

def convert (c : Converter) (lines : List Text) : Converter × Batch :=
  let batch := Batch.convert c.settings lines
  (c.count batch.counters, batch)

/-- Starts a run on a sequence of lines, of which none is read yet. -/
def start (c : Converter) (lines : List Text) : Converter × Nat :=
  ({ c with runs := c.runs ++ [⟨lines, 0⟩] }, c.runs.length)

/-- Asks the run of a number for its next document. There is nothing to pull
from a run that was never started. -/
def pull (c : Converter) (number : Nat) : Converter × Option Pull :=
  match c.runs[number]? with
  | none => (c, none)
  | some run =>
    let pull := run.pull c.settings
    ({ c.count pull.counters with runs := c.runs.set number pull.run }, some pull)

/-- Converts a file, after setting the counters back. -/
def convertFile (c : Converter) (tree : FileTree) (input output : Text) : Converter × FileRun :=
  let fileRun := FileRun.convert c.settings tree input output
  ({ c with counters := fileRun.counters }, fileRun)

end Converter

/-- A converter with the files that it works on. -/
structure Session where
  converter : Converter
  tree : FileTree

/-- What a session can be asked to do. -/
inductive Step where
  | convert (lines : List Text)
  | start (lines : List Text)
  | pull (number : Nat)
  | convertFile (input output : Text)
deriving DecidableEq, Repr

inductive StepReport where
  | converted (batch : Batch)
  | started (number : Nat)
  /-- A run was pulled, if there was one. -/
  | pulled (pull : Option Pull)
  | convertedFile (fileRun : FileRun)

namespace StepReport

def messages : StepReport → List Message
  | .converted batch => batch.messages
  | .started _ => []
  | .pulled none => []
  | .pulled (some pull) => pull.messages
  | .convertedFile fileRun => fileRun.messages

def failure? : StepReport → Option Failure
  | .converted batch => batch.fault.map .value
  | .started _ => none
  | .pulled none => none
  | .pulled (some pull) =>
    match pull.outcome with
    | .stopped fault => some (.value fault)
    | _ => none
  | .convertedFile fileRun => fileRun.failure

end StepReport

namespace Session

def initial (settings : Settings) (tree : FileTree) : Session :=
  ⟨{ settings }, tree⟩

def perform (s : Session) : Step → Session × StepReport
  | .convert lines =>
    let (converter, batch) := s.converter.convert lines
    ({ s with converter }, .converted batch)
  | .start lines =>
    let (converter, number) := s.converter.start lines
    ({ s with converter }, .started number)
  | .pull number =>
    let (converter, pull) := s.converter.pull number
    ({ s with converter }, .pulled pull)
  | .convertFile input output =>
    let (converter, fileRun) := s.converter.convertFile s.tree input output
    (⟨converter, fileRun.tree⟩, .convertedFile fileRun)

/-- The settings never change. -/
theorem settings_perform (s : Session) (step : Step) :
    (s.perform step).1.converter.settings = s.converter.settings := by
  cases step with
  | convert lines => rfl
  | start lines => rfl
  | convertFile input output => rfl
  | pull number =>
    simp only [perform, Converter.pull]
    split <;> rfl

end Session

end IdsRules
