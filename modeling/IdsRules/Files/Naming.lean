import IdsRules.Text.Basic

/-!
# Names of output files

The output of a rule file is named after it: the extension of the last name in
the path is replaced, or added if that name has none. The extension starts at
the last point of the path, unless a slash stands behind that: then the point
belongs to the name of a directory and marks no extension.
-/

namespace IdsRules

/-- Where a character stands for the last time in a text. -/
def Text.lastIndex? (c : Char) : Text → Option Nat
  | [] => none
  | d :: s =>
    match lastIndex? c s with
    | some i => some (i + 1)
    | none => if d = c then some 0 else none

namespace Naming

def outputExtension : Text := ".ndjson".toList

/-- The path of the output of a rule file. -/
def outputPath (path : Text) : Text :=
  match Text.lastIndex? '.' path with
  | none => path ++ outputExtension
  | some point =>
    match Text.lastIndex? '/' path with
    | none => path.take point ++ outputExtension
    | some slash =>
      if slash < point then path.take point ++ outputExtension else path ++ outputExtension

end Naming

end IdsRules
