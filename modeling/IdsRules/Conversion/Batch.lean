import IdsRules.Conversion.Message

/-!
# Converting a sequence of lines

A batch is everything that a sequence of lines gives: its documents, what it
adds to the counters, what is told about it, and the fault that stopped it if
one did. Lines are numbered from one. A batch is put together from what its
single lines give, up to the first line that stops it.
-/

namespace IdsRules

/-- What a sequence of lines gives. -/
structure Batch where
  documents : List Text := []
  counters : Counters := {}
  messages : List Message := []
  fault : Option Numeral.Fault := none
deriving DecidableEq, Repr

namespace Batch

def ofVerdict (settings : Settings) (number : Nat) (v : Verdict) : Batch where
  documents := v.document?.toList
  counters := Counters.ofVerdict v
  messages := Message.ofVerdict settings number v
  fault := v.fault?

/-- What two sequences of lines give together, if the first did not stop. -/
def append (a b : Batch) : Batch where
  documents := a.documents ++ b.documents
  counters := a.counters + b.counters
  messages := a.messages ++ b.messages
  fault := b.fault

/-- What lines give when `read` lines stand before them. -/
def convertFrom (settings : Settings) (read : Nat) : List Text → Batch
  | [] => {}
  | line :: rest =>
    let v := Verdict.ofLine settings line
    let first := ofVerdict settings (read + 1) v
    if v.isStopped then first else first.append (convertFrom settings (read + 1) rest)

def convert (settings : Settings) (lines : List Text) : Batch :=
  convertFrom settings 0 lines

@[simp] theorem convertFrom_nil (settings : Settings) (read : Nat) :
    convertFrom settings read [] = {} := rfl

theorem convertFrom_cons_of_stopped {settings : Settings} {line : Text}
    (h : (Verdict.ofLine settings line).isStopped = true) (read : Nat) (rest : List Text) :
    convertFrom settings read (line :: rest) =
      ofVerdict settings (read + 1) (Verdict.ofLine settings line) := by
  simp [convertFrom, h]

theorem convertFrom_cons {settings : Settings} {line : Text}
    (h : (Verdict.ofLine settings line).isStopped = false) (read : Nat) (rest : List Text) :
    convertFrom settings read (line :: rest) =
      (ofVerdict settings (read + 1) (Verdict.ofLine settings line)).append
        (convertFrom settings (read + 1) rest) := by
  simp [convertFrom, h]

/-- The text that a file of the documents has: a line feed ends each. -/
def fileText (documents : List Text) : Text :=
  documents.flatMap fun document => document ++ ['\n']

end Batch

end IdsRules
