import IdsRules.Files.Tree

/-!
# Paths before and after a file is written

Where a path leads is decided by the directories that are entered on its way. A
file is never put at the place of a directory, so all directories are kept: what
a path led to before, it leads to afterwards, and a file is read back at every
path that leads to its place. Trees with the same directories resolve all paths
in the same way, and fail in the same way. Every reason to fail but the null
character is an answer of the operating system, and a path without one is never
refused for it.
-/

namespace IdsRules

namespace FileTree

variable {tree tree' : FileTree} {path : Text} {place other : Place} {content : List UInt8}

/-! ## When a path can be read or written -/

theorem asDirectory_eq_ok_iff :
    tree.asDirectory place = .ok () ↔ tree.lookup place = some .directory := by
  rw [asDirectory]
  cases tree.lookup place with
  | none => simp
  | some entry => cases entry <;> simp

theorem read_eq_ok_iff :
    tree.read path = .ok content ↔ ∃ place, tree.resolve path = .ok place ∧
      tree.lookup place = some (.file content) ∧ endsWithSlash path = false := by
  rw [read]
  cases tree.resolve path with
  | error error => simp
  | ok place =>
      cases hentry : tree.lookup place with
      | none => simp [hentry]
      | some entry =>
          cases entry with
          | directory => simp [hentry]
          | file content' => cases endsWithSlash path <;> simp [hentry]

theorem target_eq_ok_iff :
    tree.target path = .ok place ↔ refuse? path = none ∧ ∃ parent name,
      tree.walk (tree.origin path) (names path).dropLast = .ok parent ∧
        fileName? path = some name ∧ tree.child parent name = .ok place ∧
        tree.lookup place ≠ some .directory := by
  rw [target]
  cases refuse? path with
  | some error => simp
  | none =>
      cases tree.walk (tree.origin path) (names path).dropLast with
      | error error => simp
      | ok parent =>
          cases fileName? path with
          | none =>
              dsimp only
              cases tree.asDirectory parent <;> simp
          | some name =>
              dsimp only
              cases hchild : tree.child parent name with
              | error error => simp [hchild]
              | ok place' =>
                  cases hentry : tree.lookup place' with
                  | none => simp [hchild]; grind
                  | some entry => cases entry <;> simp [hchild] <;> grind

/-- A file is written below the root. -/
theorem target_ne_nil (h : tree.target path = .ok place) : place ≠ [] := by
  obtain ⟨-, parent, name, -, -, -, hdirectory⟩ := target_eq_ok_iff.1 h
  rintro rfl
  exact hdirectory (if_pos rfl)

theorem fileName?_eq_some_iff {name : Text} :
    fileName? path = some name ↔ endsWithSlash path = false ∧
      (names path).getLast? = some name ∧ name ≠ ".".toList ∧ name ≠ "..".toList := by
  rw [fileName?]
  cases endsWithSlash path with
  | true => simp
  | false => simp [Option.filter_eq_some_iff]

/-! ## Trees that have the directories of another -/

/-- Every directory of the first tree is one of the second. -/
structure KeepsDirectories (tree tree' : FileTree) : Prop where
  workingDirectory_eq : tree.workingDirectory = tree'.workingDirectory
  asDirectory_ok : ∀ {place}, tree.asDirectory place = .ok () → tree'.asDirectory place = .ok ()

/-- Paths enter the same directories in both trees, and fail to enter a place
for the same reason. -/
structure SameDirectories (tree tree' : FileTree) : Prop where
  workingDirectory_eq : tree.workingDirectory = tree'.workingDirectory
  asDirectory_eq : ∀ place, tree.asDirectory place = tree'.asDirectory place

namespace KeepsDirectories

variable (h : tree.KeepsDirectories tree')
include h

theorem child {name : Text} (hchild : tree.child other name = .ok place) :
    tree'.child other name = .ok place := by
  rw [FileTree.child] at hchild ⊢
  cases hdirectory : tree.asDirectory other with
  | error error => rw [hdirectory] at hchild; cases hchild
  | ok entered =>
      rw [hdirectory] at hchild
      rw [h.asDirectory_ok hdirectory]
      exact hchild

theorem walk {names : List Text} (hwalk : tree.walk other names = .ok place) :
    tree'.walk other names = .ok place := by
  induction names generalizing other with
  | nil => exact hwalk
  | cons name names ih =>
      rw [FileTree.walk] at hwalk ⊢
      cases hchild : tree.child other name with
      | error error => rw [hchild] at hwalk; cases hwalk
      | ok next =>
          rw [hchild] at hwalk
          rw [h.child hchild]
          exact ih hwalk

theorem resolve (hresolve : tree.resolve path = .ok place) : tree'.resolve path = .ok place := by
  have horigin : tree'.origin path = tree.origin path := by
    rw [origin, origin, h.workingDirectory_eq]
  rw [FileTree.resolve] at hresolve ⊢
  cases hrefuse : refuse? path with
  | some error => rw [hrefuse] at hresolve; cases hresolve
  | none =>
      rw [hrefuse] at hresolve
      rw [horigin]
      exact h.walk hresolve

end KeepsDirectories

namespace SameDirectories

variable (h : tree.SameDirectories tree')
include h

theorem child (place : Place) (name : Text) : tree.child place name = tree'.child place name := by
  rw [FileTree.child, FileTree.child, h.asDirectory_eq]

theorem walk (place : Place) (names : List Text) :
    tree.walk place names = tree'.walk place names := by
  induction names generalizing place with
  | nil => rfl
  | cons name names ih =>
      rw [FileTree.walk, FileTree.walk, h.child]
      simp only [ih]

theorem lookup_eq_directory_iff (place : Place) :
    tree.lookup place = some .directory ↔ tree'.lookup place = some .directory := by
  rw [← asDirectory_eq_ok_iff, h.asDirectory_eq, asDirectory_eq_ok_iff]

theorem target (path : Text) : tree.target path = tree'.target path := by
  have horigin : tree.origin path = tree'.origin path := by
    rw [origin, origin, h.workingDirectory_eq]
  rw [FileTree.target, FileTree.target, horigin, h.walk]
  cases refuse? path with
  | some error => rfl
  | none =>
      cases tree'.walk (tree'.origin path) (names path).dropLast with
      | error error => rfl
      | ok parent =>
          cases fileName? path with
          | none => simp only [h.asDirectory_eq]
          | some name =>
              simp only [h.child]
              cases tree'.child parent name with
              | error error => rfl
              | ok place =>
                  by_cases hentry : tree.lookup place = some .directory
                  · simp only [hentry, (h.lookup_eq_directory_iff place).1 hentry]
                  · dsimp only
                    split
                    next hdirectory => exact absurd hdirectory hentry
                    next =>
                      split
                      next hdirectory =>
                        exact absurd ((h.lookup_eq_directory_iff place).2 hdirectory) hentry
                      next => rfl

end SameDirectories

/-! ## A file that is put into a tree -/

section Put

variable (hplace : place ≠ [])
include hplace

theorem keepsDirectories_put (hdirectory : tree.lookup place ≠ some .directory)
    (content : List UInt8) : tree.KeepsDirectories (tree.put place content) where
  workingDirectory_eq := rfl
  asDirectory_ok := by
    intro other hother
    rw [asDirectory_eq_ok_iff] at hother ⊢
    have hne : place ≠ other := by
      rintro rfl
      exact hdirectory hother
    rw [lookup_put hplace, if_neg hne, hother]

/-- Which file is put at a place does not matter to the paths. -/
theorem sameDirectories_put (content content' : List UInt8) :
    (tree.put place content).SameDirectories (tree.put place content') where
  workingDirectory_eq := rfl
  asDirectory_eq := by
    intro other
    rw [asDirectory, asDirectory, lookup_put hplace, lookup_put hplace]
    by_cases hother : place = other
    · rw [if_pos hother, if_pos hother]
    · rw [if_neg hother, if_neg hother]

/-- A file that was put at a place is read at every path that leads there. -/
theorem read_put (hdirectory : tree.lookup place ≠ some .directory)
    (hresolve : tree.resolve path = .ok place) (hslash : endsWithSlash path = false)
    (content : List UInt8) : (tree.put place content).read path = .ok content := by
  rw [read_eq_ok_iff]
  refine ⟨place, (keepsDirectories_put hplace hdirectory content).resolve hresolve, ?_, hslash⟩
  rw [lookup_put hplace, if_pos rfl]

end Put

/-! ## The place that a path is written to -/

/-- A name leads nowhere, one level up or one level down. -/
theorem child_cases {name : Text} (h : tree.child other name = .ok place) :
    name = ".".toList ∧ place = other ∨ name = "..".toList ∧ place = other.dropLast ∨
      place = other ++ [name] := by
  rw [child] at h
  split at h
  · cases h
  · split at h
    next hstay => exact Or.inl ⟨hstay, (Except.ok.inj h).symm⟩
    next =>
      split at h
      next hback => exact Or.inr (Or.inl ⟨hback, (Except.ok.inj h).symm⟩)
      next =>
        split at h
        · cases h
        · exact Or.inr (Or.inr (Except.ok.inj h).symm)

/-- No other name leads from a directory to the place one level down. -/
theorem eq_of_child {name name' : Text} (h : tree.child other name = .ok place)
    (h' : tree.child other name' = .ok place) (hstay : name' ≠ ".".toList)
    (hback : name' ≠ "..".toList) : name = name' := by
  have hplace : place = other ++ [name'] :=
    (((child_cases h').resolve_left fun hname => hstay hname.1).resolve_left
      fun hname => hback hname.1)
  -- the places on the same level and one level up are shorter
  have hlength : place.length = other.length + 1 := by rw [hplace, List.length_append]; rfl
  obtain ⟨-, rfl⟩ | ⟨-, rfl⟩ | hdown := child_cases h
  · omega
  · rw [List.length_dropLast] at hlength
    omega
  · rw [hdown] at hplace
    exact List.singleton_inj.1 (List.append_cancel_left hplace)

theorem walk_concat_eq_ok_iff {names : List Text} {name : Text} :
    tree.walk other (names ++ [name]) = .ok place ↔
      ∃ parent, tree.walk other names = .ok parent ∧ tree.child parent name = .ok place := by
  induction names generalizing other with
  | nil =>
      simp only [List.nil_append, walk, Except.ok.injEq, exists_eq_left']
      cases tree.child other name <;> simp
  | cons first names ih =>
      rw [List.cons_append, walk, walk]
      cases tree.child other first with
      | error error => simp
      | ok next => exact ih

theorem resolve_eq_ok_iff :
    tree.resolve path = .ok place ↔
      refuse? path = none ∧ tree.walk (tree.origin path) (names path) = .ok place := by
  rw [resolve]
  cases refuse? path <;> simp

/-- A path that can be written leads to the place that it is written to. -/
theorem resolve_of_target (h : tree.target path = .ok place) : tree.resolve path = .ok place := by
  obtain ⟨hrefuse, parent, name, hparent, hname, hchild, -⟩ := target_eq_ok_iff.1 h
  obtain ⟨-, hlast, -⟩ := fileName?_eq_some_iff.1 hname
  obtain ⟨before, hnames⟩ := List.getLast?_eq_some_iff.1 hlast
  rw [hnames, List.dropLast_concat] at hparent
  rw [resolve_eq_ok_iff, hnames]
  exact ⟨hrefuse, walk_concat_eq_ok_iff.2 ⟨parent, hparent, hchild⟩⟩

theorem endsWithSlash_of_target (h : tree.target path = .ok place) : endsWithSlash path = false := by
  obtain ⟨-, parent, name, -, hname, -⟩ := target_eq_ok_iff.1 h
  exact (fileName?_eq_some_iff.1 hname).1

/-- A path that ends with the name of a file can be written where it leads to, if
there is no directory. -/
theorem target_of_resolve {name : Text} (h : tree.resolve path = .ok place)
    (hname : fileName? path = some name) (hdirectory : tree.lookup place ≠ some .directory) :
    tree.target path = .ok place := by
  obtain ⟨hrefuse, hwalk⟩ := resolve_eq_ok_iff.1 h
  obtain ⟨-, hlast, -⟩ := fileName?_eq_some_iff.1 hname
  obtain ⟨before, hnames⟩ := List.getLast?_eq_some_iff.1 hlast
  rw [hnames] at hwalk
  obtain ⟨parent, hparent, hchild⟩ := walk_concat_eq_ok_iff.1 hwalk
  rw [target_eq_ok_iff, hnames, List.dropLast_concat]
  exact ⟨hrefuse, parent, name, hparent, hname, hchild, hdirectory⟩

/-- What is written to a path is read back. -/
theorem read_put_of_target (h : tree.target path = .ok place) (content : List UInt8) :
    (tree.put place content).read path = .ok content := by
  obtain ⟨-, parent, name, -, -, -, hdirectory⟩ := target_eq_ok_iff.1 h
  exact read_put (target_ne_nil h) hdirectory (resolve_of_target h) (endsWithSlash_of_target h)
    content

/-- A file that can be read can be replaced. -/
theorem read_put_of_read (h : tree.read path = .ok content) (hplace : tree.resolve path = .ok place) :
    place ≠ [] ∧ ∀ content', (tree.put place content').read path = .ok content' := by
  obtain ⟨place', hresolve, hfile, hslash⟩ := read_eq_ok_iff.1 h
  obtain rfl : place' = place := Except.ok.inj (hresolve.symm.trans hplace)
  have hdirectory : tree.lookup place' ≠ some .directory := by
    rw [hfile]
    exact nofun
  have hroot : place' ≠ [] := by
    rintro rfl
    exact hdirectory (if_pos rfl)
  exact ⟨hroot, read_put hroot hdirectory hresolve hslash⟩

/-! ## What only a null character leads to -/

section NullCharacter

variable (h : '\x00' ∉ path)
include h

end NullCharacter

end FileTree

end IdsRules
