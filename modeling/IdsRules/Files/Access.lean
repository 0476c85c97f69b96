import IdsRules.Files.Tree

/-!
# Access to files

What works on files looks for a file, reads one whole or replaces one whole, in
a monad that it does not know. So the same steps are taken on the files of the
system, where they are effects, and on a file tree, where the tree is the state
that they leave behind.
-/

namespace IdsRules

/-- The files that steps in a monad work on. -/
structure FileAccess (m : Type → Type) where
  isFile (path : Text) : m Bool
  read (path : Text) : m (Except FileError (List UInt8))
  write (path : Text) (content : List UInt8) : m (Except FileError Unit)

/-- The files of a tree. A write that fails leaves the tree as it was. -/
def FileTree.access : FileAccess (StateM FileTree) where
  isFile path := do return (← get).isFile path
  read path := do return (← get).read path
  write path content := do
    match (← get).write path content with
    | .error error => return .error error
    | .ok tree =>
      set tree
      return .ok ()

end IdsRules
