import IdsRules.Conversion.Batch
import IdsRules.Files.Access
import IdsRules.Text.Lines

/-!
# Converting a file

A file is converted in three steps. Its content is read whole and taken apart
into lines; the output file is opened, which empties it; the documents are
written, each with a line feed. The input is read before the output is touched,
so a file can be converted onto itself. A fault leaves the documents before it
in the output file, and no report is made. The counters are those of this file
alone.
-/

namespace IdsRules

/-- Why a step of a conversion fails: the value of an option cannot be read, or
a file cannot be opened. -/
inductive Failure where
  | value (fault : Numeral.Fault)
  | file (path : Text) (error : FileError)
deriving DecidableEq, Repr

def Failure.message : Failure → Text
  | .value fault => fault.message
  | .file path error => error.message path

/-- What the conversion of a file tells and counts, and why it failed if it
did. -/
structure FileReport where
  messages : List Message
  counters : Counters
  failure : Option Failure

namespace FileReport

def refused (input output path : Text) (error : FileError) : FileReport where
  messages := [.started input output]
  counters := .zero
  failure := some (.file path error)

/-- What is told after a file of which the lines gave a batch. -/
def closing (settings : Settings) (output : Text) (batch : Batch) : List Message :=
  match batch.fault with
  | some _ => []
  | none => [.report batch.counters settings.sidFilter output]

def ofBatch (settings : Settings) (input output : Text) (batch : Batch) : FileReport where
  messages := .started input output :: batch.messages ++ closing settings output batch
  counters := batch.counters
  failure := batch.fault.map .value

end FileReport

/-- The report on the conversion of a file, with the file tree afterwards. -/
structure FileRun extends FileReport where
  tree : FileTree

namespace FileRun

def linesOf (content : List UInt8) : List Text :=
  Text.lines (Utf8.decode content)

def contentOf (documents : List Text) : List UInt8 :=
  Utf8.encode (Batch.fileText documents)

/-- Converts the file at one path to a file at another. -/
def perform {m : Type → Type} [Monad m] (files : FileAccess m) (settings : Settings)
    (input output : Text) : m FileReport := do
  match ← files.read input with
  | .error error => return .refused input output input error
  | .ok content =>
    let batch := Batch.convert settings (linesOf content)
    match ← files.write output (contentOf batch.documents) with
    | .error error => return .refused input output output error
    | .ok () => return .ofBatch settings input output batch

def convert (settings : Settings) (tree : FileTree) (input output : Text) : FileRun :=
  let (report, tree) := Id.run ((perform FileTree.access settings input output).run tree)
  { report with tree }

variable {tree : FileTree} {input output : Text}

theorem convert_of_read_eq_error {error : FileError} (hread : tree.read input = .error error)
    (settings : Settings) :
    convert settings tree input output = ⟨.refused input output input error, tree⟩ := by
  simp [convert, perform, FileTree.access, hread]

theorem convert_of_target_eq_error {content : List UInt8} {error : FileError}
    (hread : tree.read input = .ok content) (htarget : tree.target output = .error error)
    (settings : Settings) :
    convert settings tree input output = ⟨.refused input output output error, tree⟩ := by
  simp [convert, perform, FileTree.access, FileTree.write, hread, htarget]

theorem convert_of_target_eq_ok {content : List UInt8} {place : Place}
    (hread : tree.read input = .ok content) (htarget : tree.target output = .ok place)
    (settings : Settings) :
    let batch := Batch.convert settings (linesOf content)
    convert settings tree input output =
      ⟨.ofBatch settings input output batch, tree.put place (contentOf batch.documents)⟩ := by
  simp [convert, perform, FileTree.access, FileTree.write, hread, htarget]

end FileRun

end IdsRules
