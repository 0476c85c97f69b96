import IdsRules.Numeral.Digits
import IdsRules.Text.Quoted

/-!
# Why a file cannot be opened

The reasons have the numbers and the wording that the operating system gives
them. A path with a null character is refused before the system is asked, so
this reason has no number.
-/

namespace IdsRules

inductive FileError where
  | notFound
  /-- The path goes through a file. -/
  | notDirectory
  | isDirectory
  /-- The path, or a name in it, is too long. -/
  | nameTooLong
  | nullCharacter
deriving DecidableEq, Repr

namespace FileError

/-- The number and the wording of the operating system. -/
def system? : FileError → Option (Nat × Text)
  | .notFound => some (2, "No such file or directory".toList)
  | .notDirectory => some (20, "Not a directory".toList)
  | .isDirectory => some (21, "Is a directory".toList)
  | .nameTooLong => some (36, "File name too long".toList)
  | .nullCharacter => none

def message (path : Text) (error : FileError) : Text :=
  match error.system? with
  | some (number, wording) =>
    "[Errno ".toList ++ Numeral.naturalText number ++ "] ".toList ++ wording ++ ": ".toList
      ++ Text.quoted path
  | none => "embedded null byte".toList

end FileError

end IdsRules
