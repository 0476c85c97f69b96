import IdsRules.Conversion.Session
import IdsRules.Proofs.Conversion.FileRun
import IdsRules.Proofs.Text.LineEnds
import IdsRules.Proofs.Text.Utf8

/-!
# Conversions do not see line ends

The conversion of a file looks at the lines of its content and at nothing else
of it. So files with the same lines are converted in the same way, whichever
ends their lines have and whether or not the last line has one.
-/

namespace IdsRules

/-- Two conversions that write the same to the output, tell the same, count the
same and fail in the same way. `files` are the files that both start with, but
for what is in the input. -/
structure SameConversion (files : FileTree) (output : Text) (done done' : Converter × FileRun) :
    Prop where
  converter : done.1 = done'.1
  messages : done.2.messages = done'.2.messages
  counters : done.2.counters = done'.2.counters
  failure : done.2.failure = done'.2.failure
  written : ∀ place, files.target output = .ok place →
    ∃ content, done.2.tree.lookup place = some (.file content) ∧
      done'.2.tree.lookup place = some (.file content)

namespace Converter

theorem sameConversion (c : Converter) {tree tree' : FileTree} {input output : Text}
    {content content' : List UInt8} (hread : tree.read input = .ok content)
    (hread' : tree'.read input = .ok content') (htarget : tree.target output = tree'.target output)
    (hlines : FileRun.linesOf content = FileRun.linesOf content') :
    SameConversion tree' output (c.convertFile tree input output)
      (c.convertFile tree' input output) := by
  obtain ⟨hmessages, hcounters, hfailure⟩ :=
    FileRun.convert_congr hread hread' htarget hlines c.settings
  refine ⟨?_, hmessages, hcounters, hfailure, fun place hplace => ?_⟩
  · rw [convertFile, convertFile, hcounters]
  · have hwritten := (FileRun.read_convert hread (htarget.trans hplace) c.settings).1
    rw [hlines] at hwritten
    exact ⟨_, hwritten, (FileRun.read_convert hread' hplace c.settings).1⟩

/-- A file that holds a text without carriage returns is converted in the same
way when other line ends stand in the place of its line feeds, and when a line
feed is put behind a last line that has none. Line feeds and carriage returns,
alone or together, are all that ends a line of any text. -/
theorem convertFile_lineEnds (c : Converter) {tree : FileTree} {input : Text} {place : Place}
    {old : List UInt8} (hinput : tree.read input = .ok old)
    (hplace : tree.resolve input = .ok place) {t : Text} (ht : '\r' ∉ t) (output : Text) :
    let files := fun s : Text => tree.put place (Utf8.encode s)
    let done := fun s : Text => c.convertFile (files s) input output
    (∀ e, SameConversion (files t) output (done (Text.withLineEnds e t)) (done t)) ∧
      (t ≠ [] → t.getLast? ≠ some '\n' →
        SameConversion (files t) output (done (t ++ ['\n'])) (done t)) ∧
      ∀ s ls, FileRun.linesOf (Utf8.encode s) = ls ↔ Text.HasLines s ls := by
  intro files done
  obtain ⟨hroot, hread⟩ := FileTree.read_put_of_read hinput hplace
  have hsame : ∀ s, Text.lines s = Text.lines t →
      SameConversion (files t) output (done s) (done t) := by
    intro s hs
    have hlines : FileRun.linesOf (Utf8.encode s) = FileRun.linesOf (Utf8.encode t) := by
      rw [FileRun.linesOf, FileRun.linesOf, Utf8.decode_encode, Utf8.decode_encode, hs]
    exact c.sameConversion (hread _) (hread _)
      ((FileTree.sameDirectories_put hroot _ _).target output) hlines
  refine ⟨fun e => hsame _ (Text.lines_withLineEnds e ht), ?_, ?_⟩
  · intro hne hlast
    have hend : ∀ l ∈ t.getLast?, Text.isLineEnd l = false := by
      intro l hl
      have hfeed : l ≠ '\n' := fun h => hlast (h ▸ hl)
      have hreturn : l ≠ '\r' := fun h => ht (h ▸ List.mem_of_getLast? hl)
      simp [Text.isLineEnd, hfeed, hreturn]
    exact hsame _ (Text.lines_append_lineFeed_of_getLast? hne hend)
  · intro s ls
    rw [FileRun.linesOf, Utf8.decode_encode, Text.lines_eq_iff]

/-- A comment, an empty line, a rule and a line that is none, of which three hold
characters that end lines elsewhere. -/
def foreignBreaks : Text :=
  "#\u2028x\n\na b c d > e f (k:\"\x0B\u0085\";\x1C)\n\x0C<-".toList

theorem convertFile_lineEnds_foreignBreaks :
    let c : Converter := { settings := {} }
    let tree : FileTree := ⟨⟨[(["in".toList], .file [])], by decide⟩, []⟩
    let done := fun s : Text =>
      c.convertFile (tree.put ["in".toList] (Utf8.encode s)) "in".toList "out".toList
    (done (Text.withLineEnds .carriageReturn foreignBreaks)).2.messages.take 2 =
        [.started "in".toList "out".toList, .malformedLine 4] ∧
      (done (Text.withLineEnds .returnLineFeed foreignBreaks)).1.counters =
        { total := 4, converted := 1, errors := 1, skipped := 2 } ∧
      (done (foreignBreaks ++ ['\n'])).1 = (done foreignBreaks).1 ∧
      (∃ content, (done (foreignBreaks ++ ['\n'])).2.tree.lookup ["out".toList] =
          some (.file content) ∧
        (done foreignBreaks).2.tree.lookup ["out".toList] = some (.file content)) ∧
      Text.HasLines foreignBreaks (FileRun.linesOf (Utf8.encode foreignBreaks)) := by
  intro c tree done
  have hin : tree.read "in".toList = .ok [] := rfl
  have hplace : tree.resolve "in".toList = .ok ["in".toList] := rfl
  obtain ⟨hends, hlast, hlines⟩ := convertFile_lineEnds c hin hplace
    (t := foreignBreaks) (by decide +kernel) "out".toList
  have hfeed := hlast (by decide +kernel) (by decide +kernel)
  refine ⟨?_, ?_, hfeed.converter, hfeed.written _ rfl, (hlines _ _).1 rfl⟩
  · rw [(hends .carriageReturn).messages]
    decide +kernel
  · rw [congrArg Converter.counters (hends .returnLineFeed).converter]
    decide +kernel

end Converter

end IdsRules
