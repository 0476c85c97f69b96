import IdsRules.Conversion.FileRun
import IdsRules.Proofs.Files.Tree
import IdsRules.Proofs.Text.Utf8

/-!
# Files that are opened or not

The conversion of a file has two cases. If the input can be read and the output
can be written, the lines of the input are converted and the documents become
the content of the output; otherwise nothing is converted and no file changes.
What the output holds is said in terms of the text that is read back from it.
-/

namespace IdsRules

namespace FileRun

/-- The lines of the input and the place of the output, if both files can be
opened. -/
def opened? (tree : FileTree) (input output : Text) : Option (List Text × Place) :=
  match tree.read input, tree.target output with
  | .ok content, .ok place => some (linesOf content, place)
  | _, _ => none

theorem opened?_eq_some_iff {tree : FileTree} {input output : Text} {lines : List Text}
    {place : Place} :
    opened? tree input output = some (lines, place) ↔
      ∃ content, tree.read input = .ok content ∧ linesOf content = lines ∧
        tree.target output = .ok place := by
  rw [opened?]
  cases tree.read input with
  | error error => simp
  | ok content =>
      cases tree.target output with
      | error error => simp
      | ok p => simp

theorem opened?_eq_none_iff {tree : FileTree} {input output : Text} :
    opened? tree input output = none ↔
      (∀ content, tree.read input ≠ .ok content) ∨ ∀ place, tree.target output ≠ .ok place := by
  rw [opened?]
  cases tree.read input with
  | error error => simp
  | ok content =>
      cases tree.target output with
      | error error => simp
      | ok p => simp

/-- The conversion of files that can be opened. -/
theorem convert_of_opened {tree : FileTree} {input output : Text} {lines : List Text}
    {place : Place} (h : opened? tree input output = some (lines, place)) (settings : Settings) :
    (convert settings tree input output).counters = (Batch.convert settings lines).counters ∧
      (convert settings tree input output).tree =
        tree.put place (contentOf (Batch.convert settings lines).documents) ∧
      (convert settings tree input output).failure =
        (Batch.convert settings lines).fault.map .value := by
  obtain ⟨content, hread, rfl, htarget⟩ := opened?_eq_some_iff.1 h
  rw [convert_of_target_eq_ok hread htarget]
  exact ⟨rfl, rfl, rfl⟩

/-- Of the content of the input only its lines are looked at. -/
theorem convert_congr {tree tree' : FileTree} {input output : Text}
    {content content' : List UInt8} (hread : tree.read input = .ok content)
    (hread' : tree'.read input = .ok content') (htarget : tree.target output = tree'.target output)
    (hlines : linesOf content = linesOf content') (settings : Settings) :
    (convert settings tree input output).messages =
        (convert settings tree' input output).messages ∧
      (convert settings tree input output).counters =
        (convert settings tree' input output).counters ∧
      (convert settings tree input output).failure =
        (convert settings tree' input output).failure := by
  cases htarget' : tree'.target output with
  | error error =>
      rw [convert_of_target_eq_error hread (htarget.trans htarget'),
        convert_of_target_eq_error hread' htarget']
      exact ⟨rfl, rfl, rfl⟩
  | ok place =>
      rw [convert_of_target_eq_ok hread (htarget.trans htarget'),
        convert_of_target_eq_ok hread' htarget', hlines]
      exact ⟨rfl, rfl, rfl⟩

/-- The conversion of files that cannot be opened. -/
theorem convert_of_not_opened {tree : FileTree} {input output : Text}
    (h : opened? tree input output = none) (settings : Settings) :
    (convert settings tree input output).counters = .zero ∧
      (convert settings tree input output).tree = tree ∧
      ∃ path error, (convert settings tree input output).failure = some (.file path error) := by
  rw [opened?] at h
  cases hread : tree.read input with
  | error error =>
      rw [convert_of_read_eq_error hread]
      exact ⟨rfl, rfl, input, error, rfl⟩
  | ok content =>
      cases htarget : tree.target output with
      | error error =>
          rw [convert_of_target_eq_error hread htarget]
          exact ⟨rfl, rfl, output, error, rfl⟩
      | ok place =>
          rw [hread, htarget] at h
          cases h

/-- Nothing changes but at the place that the output path is written to. -/
theorem lookup_convert_of_ne {tree : FileTree} {output : Text} {other : Place}
    (h : tree.target output ≠ .ok other) (settings : Settings) (input : Text) :
    (convert settings tree input output).tree.lookup other = tree.lookup other := by
  cases hopen : opened? tree input output with
  | none => rw [(convert_of_not_opened hopen settings).2.1]
  | some opened =>
      obtain ⟨lines, place⟩ := opened
      obtain ⟨-, -, -, htarget⟩ := opened?_eq_some_iff.1 hopen
      have hne : place ≠ other := by
        rintro rfl
        exact h htarget
      rw [(convert_of_opened hopen settings).2.1,
        FileTree.lookup_put (FileTree.target_ne_nil htarget), if_neg hne]

/-- An input that is not the output is kept. -/
theorem read_convert_of_ne {tree : FileTree} {input output : Text} {content : List UInt8}
    (hread : tree.read input = .ok content)
    (h : ∀ place, tree.target output = .ok place → tree.resolve input ≠ .ok place)
    (settings : Settings) : (convert settings tree input output).tree.read input = .ok content := by
  obtain ⟨place, hresolve, hfile, hslash⟩ := FileTree.read_eq_ok_iff.1 hread
  have hkept : tree.KeepsDirectories (convert settings tree input output).tree := by
    cases hopen : opened? tree input output with
    | none =>
        rw [(convert_of_not_opened hopen settings).2.1]
        exact ⟨rfl, id⟩
    | some opened =>
        obtain ⟨lines, place'⟩ := opened
        obtain ⟨-, -, -, htarget⟩ := opened?_eq_some_iff.1 hopen
        obtain ⟨-, -, -, -, -, -, hdirectory⟩ := FileTree.target_eq_ok_iff.1 htarget
        rw [(convert_of_opened hopen settings).2.1]
        exact FileTree.keepsDirectories_put (FileTree.target_ne_nil htarget) hdirectory _
  refine FileTree.read_eq_ok_iff.2 ⟨place, hkept.resolve hresolve, ?_, hslash⟩
  rw [lookup_convert_of_ne (fun htarget => h place htarget hresolve), hfile]

/-- The documents of the input are found at the place of the output, and at every
path that leads there. -/
theorem read_convert {tree : FileTree} {input output : Text} {content : List UInt8} {place : Place}
    (hread : tree.read input = .ok content) (htarget : tree.target output = .ok place)
    (settings : Settings) :
    let written := contentOf (Batch.convert settings (linesOf content)).documents
    (convert settings tree input output).tree.lookup place = some (.file written) ∧
      ∀ path, tree.resolve path = .ok place → FileTree.endsWithSlash path = false →
        (convert settings tree input output).tree.read path = .ok written := by
  intro written
  have hopen : opened? tree input output = some (linesOf content, place) :=
    opened?_eq_some_iff.2 ⟨content, hread, rfl, htarget⟩
  obtain ⟨-, -, -, -, -, -, hdirectory⟩ := FileTree.target_eq_ok_iff.1 htarget
  have hplace := FileTree.target_ne_nil htarget
  rw [(convert_of_opened hopen settings).2.1]
  refine ⟨by rw [FileTree.lookup_put hplace, if_pos rfl], fun path hresolve hslash => ?_⟩
  exact FileTree.read_put hplace hdirectory hresolve hslash written

theorem decode_contentOf (documents : List Text) :
    Utf8.decode (contentOf documents) = documents.flatMap fun document => document ++ ['\n'] :=
  Utf8.decode_encode _

theorem encode_decode_contentOf (documents : List Text) :
    Utf8.encode (Utf8.decode (contentOf documents)) = contentOf documents :=
  congrArg Utf8.encode (Utf8.decode_encode _)

/-- The output holds the text of the documents, each with a line feed behind it, in
its encoding and in no other. -/
theorem exists_written {tree : FileTree} {input output : Text} {content : List UInt8}
    {place : Place} (hread : tree.read input = .ok content) (htarget : tree.target output = .ok place)
    (settings : Settings) :
    let documents := (Batch.convert settings (linesOf content)).documents
    ∃ written, Utf8.decode written = (documents.flatMap fun document => document ++ ['\n']) ∧
      Utf8.encode (Utf8.decode written) = written ∧
      (convert settings tree input output).tree.lookup place = some (.file written) ∧
      ∀ path, tree.resolve path = .ok place → FileTree.endsWithSlash path = false →
        (convert settings tree input output).tree.read path = .ok written := by
  obtain ⟨hlookup, hpaths⟩ := read_convert hread htarget settings
  exact ⟨_, decode_contentOf _, encode_decode_contentOf _, hlookup, hpaths⟩

end FileRun

end IdsRules
