import IdsRules.Conversion.Framing
import IdsRules.Conversion.Session
import IdsRules.Proofs.Conversion.FileRun
import IdsRules.Proofs.Conversion.LineClass
import IdsRules.Proofs.Json.Indent
import IdsRules.Proofs.Text.Utf8

/-!
# Output files can be taken apart

In the compact layout no document holds a line feed, so the line feeds of an
output file are the ends of its documents. In the indented layout every line of
a document but its last is the opening brace or starts with an indent, so the
lines that are a closing brace and nothing else are the ends of its documents.
What the rules hold does not matter, because strings escape their line feeds and
braces in a string never stand on a line of their own.
-/

namespace IdsRules

namespace Framing

/-- A document of which the first line is an opening brace and the last a
closing one, with an indent at the start of every line in between. -/
def IsBlock (document : Text) : Prop :=
  ∃ body, Text.splitOn '\n' document = ['\x7B'] :: (body ++ [closingLine]) ∧
    ∀ line ∈ body, [' ', ' '] <+: line

theorem splitOn_fileText (documents : List Text) :
    Text.splitOn '\n' (Batch.fileText documents) =
      documents.flatMap (Text.splitOn '\n') ++ [[]] := by
  induction documents with
  | nil => rfl
  | cons document documents ih =>
      rw [Batch.fileText, List.flatMap_cons, List.append_assoc, List.singleton_append,
        Text.splitOn_append_cons, ← Batch.fileText, ih, List.flatMap_cons, List.append_assoc]

/-- Documents without line feeds are the lines of their file. -/
theorem splitOn_fileText_of_not_mem {documents : List Text}
    (h : ∀ document ∈ documents, '\n' ∉ document) :
    Text.splitOn '\n' (Batch.fileText documents) = documents ++ [[]] := by
  have hlines : documents.flatMap (Text.splitOn '\n') = documents := by
    rw [List.flatMap_congr fun d hd => Text.splitOn_eq_singleton (h d hd)]
    exact List.flatMap_singleton' documents
  rw [splitOn_fileText, hlines]

/-- Blocks are the groups of lines that end with a closing brace. -/
theorem groups_of_isBlock {documents : List Text} (h : ∀ document ∈ documents, IsBlock document) :
    groups (fun line => line == closingLine) (documents.flatMap (Text.splitOn '\n')) =
      documents.map (Text.splitOn '\n') := by
  induction documents with
  | nil => rfl
  | cons document documents ih =>
      rw [List.forall_mem_cons] at h
      obtain ⟨body, hlines, hindent⟩ := h.1
      -- an indented line is no closing line, since it starts with a space
      have hbody : ∀ line ∈ ['\x7B'] :: body, (line == closingLine) = false := by
        rw [List.forall_mem_cons]
        refine ⟨by decide, fun line hline => ?_⟩
        obtain ⟨s, rfl⟩ := hindent line hline
        rfl
      rw [List.flatMap_cons, hlines, ← List.cons_append, List.append_assoc,
        List.singleton_append, groups_append hbody (by decide), ih h.2, List.map_cons, hlines]
      rfl

theorem documents_fileText_of_isBlock {documents : List Text}
    (h : ∀ document ∈ documents, IsBlock document) :
    Framing.documents .indented (Batch.fileText documents) = documents := by
  have hjoin : documents.map (Text.join '\n' ∘ Text.splitOn '\n') = documents :=
    (List.map_congr_left fun d _ => Text.join_splitOn '\n' d).trans (List.map_id documents)
  simp only [Framing.documents, fileLines, splitOn_fileText, List.dropLast_concat,
    groups_of_isBlock h, List.map_map, hjoin]

end Framing

namespace Verdict

theorem exists_text_of_converted {settings : Settings} {line document : Text}
    (h : ofLine settings line = .converted document) :
    ∃ rule : Rule, document = Json.text settings.layout rule.toJson := by
  cases ofLine_eq_iff.1 h with
  | converted hskip hparse hkeeps hencode => exact ⟨_, (Json.encode_eq_ok_iff.1 hencode).2⟩

end Verdict

namespace Batch

/-- A document is an object that is not empty: a rule always has its header. -/
theorem exists_members_of_mem_documents {settings : Settings} {lines : List Text}
    {document : Text} (h : document ∈ (convert settings lines).documents) :
    ∃ members, members ≠ [] ∧ document = Json.text settings.layout (.object members) := by
  rw [documents_convert, List.mem_filterMap] at h
  obtain ⟨line, -, hline⟩ := h
  obtain ⟨rule, hrule⟩ :=
    Verdict.exists_text_of_converted (Verdict.document?_eq_some_iff.1 hline)
  exact ⟨rule.members, List.cons_ne_nil _ _, hrule⟩

theorem le_toNat_of_compact {settings : Settings} (h : settings.layout = .compact)
    (lines : List Text) :
    ∀ document ∈ (convert settings lines).documents, ∀ char ∈ document, 0x20 ≤ char.toNat := by
  intro document hdocument
  obtain ⟨members, hne, rfl⟩ := exists_members_of_mem_documents hdocument
  rw [h]
  exact Json.isPlain_text_compact hne

theorem isBlock_of_indented {settings : Settings} (h : settings.layout = .indented)
    (lines : List Text) :
    ∀ document ∈ (convert settings lines).documents, Framing.IsBlock document := by
  intro document hdocument
  obtain ⟨members, hne, rfl⟩ := exists_members_of_mem_documents hdocument
  rw [h]
  exact Json.exists_splitOn_text_indented hne

end Batch

namespace Converter

/-- When the conversion of a file returns or is stopped by a value at fault, its
output is the documents of the lines that were read, each with a line feed
behind it, and cutting the output gives the documents back: at the line feeds in
the compact layout, and behind the closing lines in the indented one. -/
theorem convertFile_frames (c : Converter) (tree : FileTree) (input output : Text)
    (h : ∀ path error, (c.convertFile tree input output).2.failure ≠ some (.file path error)) :
    ∃ content place, tree.read input = .ok content ∧ tree.target output = .ok place ∧
      let lines := FileRun.linesOf content
      let documents := (c.convert lines).2.documents
      let written := FileRun.contentOf documents
      (c.convertFile tree input output).2.tree.lookup place = some (.file written) ∧
        documents = ((Batch.linesRead c.settings lines).filterMap fun line =>
          (Verdict.ofLine c.settings line).document?) ∧
        Utf8.decode written = documents.flatMap (fun document => document ++ ['\n']) ∧
        (c.settings.layout = .compact →
          (∀ document ∈ documents, ∀ char ∈ document, 0x20 ≤ char.toNat) ∧
            Text.splitOn '\n' (Utf8.decode written) = documents ++ [[]]) ∧
        (c.settings.layout = .indented →
          (∀ document ∈ documents, ∃ body,
            Text.splitOn '\n' document = ['\x7B'] :: (body ++ [['\x7D']]) ∧
              ∀ line ∈ body, [' ', ' '] <+: line) ∧
            Framing.documents .indented (Utf8.decode written) = documents) := by
  cases hopen : FileRun.opened? tree input output with
  | none =>
      obtain ⟨-, -, path, error, hfailure⟩ := FileRun.convert_of_not_opened hopen c.settings
      exact absurd hfailure (h path error)
  | some opened =>
      obtain ⟨lines, place⟩ := opened
      obtain ⟨content, hread, rfl, htarget⟩ := FileRun.opened?_eq_some_iff.1 hopen
      obtain ⟨-, htree, -⟩ := FileRun.convert_of_opened hopen c.settings
      have hdecode : Utf8.decode (FileRun.contentOf
          (c.convert (FileRun.linesOf content)).2.documents) =
            Batch.fileText (c.convert (FileRun.linesOf content)).2.documents :=
        Utf8.decode_encode _
      refine ⟨content, place, hread, htarget, ?_, Batch.documents_convert _ _, hdecode, ?_, ?_⟩
      · have hput : (c.convertFile tree input output).2.tree =
            tree.put place (FileRun.contentOf
              (c.convert (FileRun.linesOf content)).2.documents) := htree
        rw [hput, FileTree.lookup_put (FileTree.target_ne_nil htarget), if_pos rfl]
      · intro hlayout
        have hchars := Batch.le_toNat_of_compact hlayout (FileRun.linesOf content)
        refine ⟨hchars, ?_⟩
        rw [hdecode]
        exact Framing.splitOn_fileText_of_not_mem fun d hd hfeed =>
          absurd (hchars d hd '\n' hfeed) (by decide)
      · intro hlayout
        have hblocks := Batch.isBlock_of_indented hlayout (FileRun.linesOf content)
        refine ⟨hblocks, ?_⟩
        rw [hdecode]
        exact Framing.documents_fileText_of_isBlock hblocks

/-- Rules with braces, quotes, control characters and a line separator in their
keys and values, and in the end a rule that stops the conversion. -/
def hostileContent : List UInt8 :=
  Utf8.encode ("a b \x7D\x0B\x7B 1 > e \x7D\x01 (\x7D:\"\x7D\";\x02\x7B\u2028)\n#\nx\n".toList
    ++ "a b c [\x7D] > e f (k:\x7B)\na b c d > e f (k:\u0131nf)\na b c d > e f (k)\n".toList)

theorem convertFile_frames_hostileContent :
    let tree : FileTree := ⟨⟨[(["in".toList], .file hostileContent)], by decide⟩, []⟩
    let run (layout : Json.Layout) : FileRun :=
      (Converter.convertFile { settings := { layout } } tree "in".toList "out".toList).2
    (∃ documents : List Text, documents.length = 2 ∧
      (run .compact).tree.lookup ["out".toList] = some (.file (FileRun.contentOf documents)) ∧
      Text.splitOn '\n' (Utf8.decode (FileRun.contentOf documents)) = documents ++ [[]]) ∧
    ∃ documents : List Text, documents.length = 2 ∧
      (run .indented).tree.lookup ["out".toList] = some (.file (FileRun.contentOf documents)) ∧
      Framing.documents .indented (Utf8.decode (FileRun.contentOf documents)) = documents := by
  intro tree run
  have hread : tree.read "in".toList = .ok hostileContent := rfl
  have htarget : tree.target "out".toList = .ok ["out".toList] := rfl
  have hstops : ∀ layout, (run layout).failure =
      some (.value (.notANumber "\u0131nf".toList)) := by
    intro layout
    cases layout <;> decide +kernel
  have hfails : ∀ layout path error, (run layout).failure ≠ some (.file path error) := by
    intro layout path error
    rw [hstops layout]
    simp
  have hlength : ∀ layout, (Converter.convert { settings := { layout } }
      (FileRun.linesOf hostileContent)).2.documents.length = 2 := by
    intro layout
    cases layout <;> decide +kernel
  constructor
  · obtain ⟨content, place, hcontent, hplace, hlookup, -, -, hcompact, -⟩ :=
      convertFile_frames { settings := { layout := .compact } } tree _ _ (hfails .compact)
    cases hread.symm.trans hcontent
    cases htarget.symm.trans hplace
    exact ⟨_, hlength .compact, hlookup, (hcompact rfl).2⟩
  · obtain ⟨content, place, hcontent, hplace, hlookup, -, -, -, hindented⟩ :=
      convertFile_frames { settings := { layout := .indented } } tree _ _ (hfails .indented)
    cases hread.symm.trans hcontent
    cases htarget.symm.trans hplace
    exact ⟨_, hlength .indented, hlookup, (hindented rfl).2⟩

end Converter

end IdsRules
