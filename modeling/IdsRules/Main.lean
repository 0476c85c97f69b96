import IdsRules.CommandLine.Program

/-!
# Entry point

The outer layer of the program: it gives the program access to the files of the
system and prints what it responds with. What is read, written and printed is
decided elsewhere.
-/

namespace IdsRules

/-- The reason that the system gives for not opening a file, if it is one that
has a message of its own. -/
def FileError.ofSystem? : IO.Error → Option FileError
  | .noFileOrDirectory _ _ _ => some .notFound
  | .inappropriateType _ code _ => some (if code = 20 then .notDirectory else .isDirectory)
  | _ => none

namespace FileAccess

/-- The answer of the system, which may be a reason for not opening a file. -/
def answer {α : Type} (action : IO α) : IO (Except FileError α) := do
  try
    return .ok (← action)
  catch error =>
    match FileError.ofSystem? error with
    | some reason => return .error reason
    | none => throw error

def content (path : Text) : IO (List UInt8) := do
  return (← IO.FS.readBinFile (String.ofList path)).toList

def system : FileAccess IO where
  isFile path := do
    try
      discard (content path)
      return true
    catch _ =>
      return false
  read path := answer (content path)
  write path content := answer (IO.FS.writeBinFile (String.ofList path) ⟨content.toArray⟩)

end FileAccess

def CommandLine.Response.print (response : Response) : IO UInt32 := do
  IO.print (String.ofList response.output)
  IO.eprint (String.ofList (response.errors.getD []))
  match response.status with
  | .ok status => return status.toUInt32
  | .error failure =>
    IO.eprintln (String.ofList failure.message)
    return 1

end IdsRules

/-- Converts a rule file as the arguments ask. -/
def main (arguments : List String) : IO UInt32 := do
  try
    let response ← IdsRules.CommandLine.perform .system (arguments.map String.toList)
    response.print
  catch error =>
    IO.println s!"[ERREUR] {error}"
    return 1
