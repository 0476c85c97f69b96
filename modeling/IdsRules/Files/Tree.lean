import IdsRules.Files.Error
import IdsRules.Table
import IdsRules.Text.Split
import IdsRules.Text.Utf8

/-!
# File trees

A file tree is a table from places to what is there, and a place is the list of
names that leads to it from the root. The root is always a directory and has no
row. Paths are texts: they are resolved by walking the tree name by name, from
the root or from the working directory, where `.` stays and `..` goes back to
the directory above. A name can only be looked up in a directory, so a path
through a file fails even if `..` would lead out of it again.

Reading needs a file at the path; writing needs a directory to put the file
into, and replaces a file that is there. A path that ends with a slash means a
directory, so it can be neither read nor written as a file. Reading looks such a
path up all the same, while writing refuses it once the directory above is
reached, whatever name stands in front of the slash. Writing changes the entry
at one place and no other (`lookup_put`).
-/

namespace IdsRules

/-- The names that lead from the root to a place. -/
abbrev Place := List Text

inductive Entry where
  | directory
  | file (content : List UInt8)
deriving DecidableEq, Repr

/-- A tree of files and directories, with a working directory. -/
structure FileTree where
  /-- What is at each place but the root. -/
  entries : Table Place Entry
  /-- Where paths start that do not start at the root. -/
  workingDirectory : Place

namespace FileTree

/-- The most bytes of a name. -/
def nameLimit : Nat := 255

/-- The least number of bytes that is too much for a path. -/
def pathLimit : Nat := 4096

def lookup (tree : FileTree) (place : Place) : Option Entry :=
  if place = [] then some .directory else tree.entries.get? place

def isTooLong (name : Text) : Bool :=
  nameLimit < (Utf8.encode name).length

/-- The names of a path. Slashes that follow each other count as one. -/
def names (path : Text) : List Text :=
  (Text.splitOn '/' path).filter fun name => !name.isEmpty

def origin (tree : FileTree) (path : Text) : Place :=
  if path.head? = some '/' then [] else tree.workingDirectory

def endsWithSlash (path : Text) : Bool :=
  path.getLast? == some '/'

/-- The directory that names are looked up in, if the place is one. -/
def asDirectory (tree : FileTree) (place : Place) : Except FileError Unit :=
  match tree.lookup place with
  | some .directory => .ok ()
  | some (.file _) => .error .notDirectory
  | none => .error .notFound

/-- The place that one name leads to from a directory. -/
def child (tree : FileTree) (place : Place) (name : Text) : Except FileError Place :=
  match tree.asDirectory place with
  | .error error => .error error
  | .ok () =>
    if name = ".".toList then .ok place
    else if name = "..".toList then .ok place.dropLast
    else if isTooLong name then .error .nameTooLong
    else .ok (place ++ [name])

/-- The place that names lead to. All places on the way are entered; what is at
the last one does not matter. -/
def walk (tree : FileTree) (place : Place) : List Text → Except FileError Place
  | [] => .ok place
  | name :: rest =>
    match tree.child place name with
    | .error error => .error error
    | .ok next => walk tree next rest

/-- The paths that are refused before the tree is looked at. -/
def refuse? (path : Text) : Option FileError :=
  if '\x00' ∈ path then some .nullCharacter
  else if path = [] then some .notFound
  else if pathLimit ≤ (Utf8.encode path).length then some .nameTooLong
  else none

def resolve (tree : FileTree) (path : Text) : Except FileError Place :=
  match refuse? path with
  | some error => .error error
  | none => tree.walk (tree.origin path) (names path)

def read (tree : FileTree) (path : Text) : Except FileError (List UInt8) :=
  match tree.resolve path with
  | .error error => .error error
  | .ok place =>
    match tree.lookup place with
    | none => .error .notFound
    | some .directory => .error .isDirectory
    | some (.file content) => if endsWithSlash path then .error .notDirectory else .ok content

def isFile (tree : FileTree) (path : Text) : Bool :=
  match tree.read path with
  | .ok _ => true
  | .error _ => false

/-- The name of the file that a path asks for, if its end can name a file. -/
def fileName? (path : Text) : Option Text :=
  if endsWithSlash path then none
  else (names path).getLast?.filter fun name => name != ".".toList && name != "..".toList

/-- The place that a file written to a path goes to. The directory above it is
entered first, and a path of which the end names no file fails before the end is
looked at. -/
def target (tree : FileTree) (path : Text) : Except FileError Place :=
  match refuse? path with
  | some error => .error error
  | none =>
    match tree.walk (tree.origin path) (names path).dropLast with
    | .error error => .error error
    | .ok parent =>
      match fileName? path with
      | none =>
        match tree.asDirectory parent with
        | .error error => .error error
        | .ok () => .error .isDirectory
      | some name =>
        match tree.child parent name with
        | .error error => .error error
        | .ok place =>
          match tree.lookup place with
          | some .directory => .error .isDirectory
          | _ => .ok place

def put (tree : FileTree) (place : Place) (content : List UInt8) : FileTree :=
  { tree with entries := tree.entries.insert place (.file content) }

def write (tree : FileTree) (path : Text) (content : List UInt8) : Except FileError FileTree :=
  match tree.target path with
  | .error error => .error error
  | .ok place => .ok (tree.put place content)

/-- Putting a file changes what is at its place and nothing else. -/
theorem lookup_put {tree : FileTree} {place : Place} (h : place ≠ []) (content : List UInt8)
    (other : Place) :
    (tree.put place content).lookup other =
      if place = other then some (.file content) else tree.lookup other := by
  unfold lookup put
  by_cases ho : other = []
  · subst ho; simp [h]
  · simp only [ho, if_false, Table.get?_insert]

end FileTree

end IdsRules
