import IdsRules.CommandLine.Request
import IdsRules.CommandLine.Usage
import IdsRules.Conversion.FileRun
import IdsRules.Files.Naming

/-!
# The program

The program converts one rule file. Given its arguments and access to files it
responds with a status and two output texts; on a file tree it leaves another
file tree behind. Status 2 is a wrong call, status 1 a file that is not there or
cannot be opened, and status 0 everything else that ends by itself, however many
rules were left out. A fault in the value of an option has no status: it ends
the program from outside.
-/

namespace IdsRules

/-- Whether the operating system refused to open a file. -/
def Failure.isRefusal : Failure → Bool
  | .value _ => false
  | .file _ error => error.system?.isSome

namespace CommandLine

structure Response where
  /-- The exit status, or the failure that ends the program from outside. -/
  status : Except Failure Nat
  output : Text
  /-- What is told on the standard error output when the arguments end the
  program. -/
  errors : Option Text

/-- How the program ends: its response, and the file tree afterwards. -/
structure Ended extends Response where
  tree : FileTree

def Ended.of (steps : StateM FileTree Response) (tree : FileTree) : Ended :=
  let (response, tree) := Id.run (steps.run tree)
  { response with tree }

def Ending.response : Ending → Response
  | .help => ⟨.ok 0, helpText, some []⟩
  | .misuse m => ⟨.ok 2, [], some m.text⟩

namespace Request

def outputPath (request : Request) : Text :=
  if request.output.isEmpty then Naming.outputPath request.rules else request.output

def failureMessages : Option Failure → List Message
  | some (.file path error) =>
    if (Failure.file path error).isRefusal then [.fileFailed path error] else []
  | _ => []

def status : Option Failure → Except Failure Nat
  | none => .ok 0
  | some failure => if failure.isRefusal then .ok 1 else .error failure

def missing (request : Request) : Response where
  status := .ok 1
  output := Message.transcript [.inputMissing request.rules]
  errors := none

def respond (done : FileReport) : Response where
  status := status done.failure
  output := Message.transcript (done.messages ++ failureMessages done.failure)
  errors := none

def perform {m : Type → Type} [Monad m] (files : FileAccess m) (request : Request) :
    m Response := do
  if ← files.isFile request.rules then
    let done ← FileRun.perform files request.settings request.rules request.outputPath
    return respond done
  else
    return request.missing

def run (tree : FileTree) (request : Request) : Ended :=
  Ended.of (request.perform FileTree.access) tree

theorem run_of_isFile {tree : FileTree} {request : Request}
    (h : tree.isFile request.rules = true) :
    let done := FileRun.convert request.settings tree request.rules request.outputPath
    request.run tree = ⟨respond done.toFileReport, done.tree⟩ := by
  simp [run, Ended.of, perform, FileTree.access, FileRun.convert, h]

end Request

def perform {m : Type → Type} [Monad m] (files : FileAccess m) (arguments : List Text) :
    m Response :=
  match Request.read arguments with
  | .error ending => return ending.response
  | .ok request => request.perform files

/-- The program on a file tree. -/
def program (arguments : List Text) (tree : FileTree) : Ended :=
  Ended.of (perform FileTree.access arguments) tree

theorem program_of_read_eq_ok {arguments : List Text} {request : Request}
    (h : Request.read arguments = .ok request) (tree : FileTree) :
    program arguments tree = request.run tree := by
  rw [program, perform, h, Request.run]

end CommandLine

end IdsRules
