import IdsRules.Proofs.CommandLine.Status

/-!
# The output that is not named

If the arguments name no output, it is named after the rule file and stands beside
it: the two paths have one directory part, so they lead through the same directories,
and the names behind it tell whether they end at the same place. A rule file that has
the extension of output files is its own output, and its documents take its place.
Any other rule file is kept.
-/

namespace IdsRules

namespace Naming

open FileTree

variable {path directory name : Text} {tree : FileTree} {place : Place} {content : List UInt8}

/-! ## Paths with one directory part -/

theorem IsSplit.origin_eq (h : IsSplit path directory name) (tree : FileTree) :
    tree.origin path = tree.origin directory := by
  obtain ⟨rfl, rfl | ⟨above, rfl⟩, hname⟩ := h
  · have hhead : name.head? ≠ some '/' := fun hhead => hname (List.mem_of_mem_head? hhead)
    rw [origin, origin, List.nil_append, if_neg hhead, List.head?_nil, if_neg (by simp)]
  · rw [origin, origin, List.head?_append_of_ne_nil _ (by simp)]

theorem IsSplit.names_eq (h : IsSplit path directory name) (hname : name ≠ []) :
    names path = names directory ++ [name] := by
  obtain ⟨rfl, rfl | ⟨above, rfl⟩, hslash⟩ := h
  · simp [names, Text.splitOn_eq_singleton hslash, hname]
  · rw [List.append_assoc, List.singleton_append, names, names, Text.splitOn_append_cons,
      Text.splitOn_append_cons, Text.splitOn_eq_singleton hslash]
    simp [hname]

theorem IsSplit.child_of_resolve (h : IsSplit path directory name) (hname : name ≠ [])
    (hresolve : tree.resolve path = .ok place) :
    ∃ parent, tree.walk (tree.origin directory) (names directory) = .ok parent ∧
      tree.child parent name = .ok place := by
  obtain ⟨-, hwalk⟩ := resolve_eq_ok_iff.1 hresolve
  rw [h.origin_eq, h.names_eq hname] at hwalk
  exact walk_concat_eq_ok_iff.1 hwalk

theorem IsSplit.name_ne_nil_of_read (h : IsSplit path directory name)
    (hread : tree.read path = .ok content) : name ≠ [] := by
  obtain ⟨place, hresolve, -, hslash⟩ := read_eq_ok_iff.1 hread
  obtain ⟨hrefuse, -⟩ := resolve_eq_ok_iff.1 hresolve
  rintro rfl
  obtain ⟨rfl, rfl | ⟨above, rfl⟩, -⟩ := h
  · exact absurd hrefuse (by decide)
  · simp [endsWithSlash] at hslash

/-! ## A rule file and its output -/

/-- What has the extension of output files is long enough to be the name of a file. -/
theorem append_outputExtension_ne (stem : Text) :
    stem ++ outputExtension ≠ [] ∧ stem ++ outputExtension ≠ ".".toList ∧
      stem ++ outputExtension ≠ "..".toList := by
  have hlength : (stem ++ outputExtension).length = stem.length + 7 := List.length_append
  refine ⟨fun h => ?_, fun h => ?_, fun h => ?_⟩
  all_goals
    have hshort := congrArg List.length h
    simp [hlength] at hshort

/-- A rule file that is not named like an output is not where its output goes. -/
theorem resolve_ne_of_target_outputPath (hread : tree.read path = .ok content)
    (h : ¬outputExtension <:+ path) (htarget : tree.target (outputPath path) = .ok place) :
    tree.resolve path ≠ .ok place := by
  intro hresolve
  obtain ⟨directory, name, hsplit⟩ := exists_isSplit path
  obtain ⟨stem, hstem, -⟩ := existsUnique_isStem name
  obtain ⟨hne, hstay, hback⟩ := append_outputExtension_ne stem
  obtain ⟨parent, hparent, hchild⟩ :=
    hsplit.child_of_resolve (hsplit.name_ne_nil_of_read hread) hresolve
  obtain ⟨parent', hparent', hchild'⟩ :=
    (hsplit.isSplit_outputPath hstem).child_of_resolve hne (resolve_of_target htarget)
  obtain rfl : parent = parent' := Except.ok.inj (hparent.symm.trans hparent')
  apply h
  rw [hsplit.path_eq, eq_of_child hchild hchild' hstay hback, ← List.append_assoc]
  exact List.suffix_append _ _

/-- A rule file that is named like an output can be written where it is. -/
theorem exists_target_of_read (hread : tree.read path = .ok content)
    (h : outputExtension <:+ path) :
    ∃ place, tree.resolve path = .ok place ∧ tree.target path = .ok place := by
  obtain ⟨place, hresolve, hfile, hslash⟩ := read_eq_ok_iff.1 hread
  obtain ⟨directory, name, hsplit⟩ := exists_isSplit path
  obtain ⟨stem, hstem, -⟩ := existsUnique_isStem name
  obtain ⟨hne, hstay, hback⟩ := append_outputExtension_ne stem
  have houtput := hsplit.isSplit_outputPath hstem
  rw [outputPath_eq_self_iff.2 h] at houtput
  have hname : fileName? path = some (stem ++ outputExtension) := by
    refine fileName?_eq_some_iff.2 ⟨hslash, ?_, hstay, hback⟩
    rw [houtput.names_eq hne, List.getLast?_concat]
  exact ⟨place, hresolve, target_of_resolve hresolve hname (by rw [hfile]; exact nofun)⟩

end Naming

namespace CommandLine

variable {request : Request} {tree : FileTree} {content : List UInt8}

/-- Without a name for the output, a rule file is replaced by its documents if it is
named like an output, and kept otherwise. -/
theorem Request.read_rules_run (houtput : request.output = [])
    (hread : tree.read request.rules = .ok content) :
    (Naming.outputExtension <:+ request.rules →
      ∃ written, (request.run tree).tree.read request.rules = .ok written ∧
        Utf8.decode written = ((Batch.convert request.settings (FileRun.linesOf content)).documents
          |>.flatMap fun document => document ++ ['\n']) ∧
        Utf8.encode (Utf8.decode written) = written) ∧
    (¬Naming.outputExtension <:+ request.rules →
      (request.run tree).tree.read request.rules = .ok content) := by
  have hpath : request.outputPath = Naming.outputPath request.rules := by
    rw [outputPath, houtput]
    rfl
  rw [tree_run hread, hpath]
  constructor
  · intro h
    obtain ⟨place, hresolve, htarget⟩ := Naming.exists_target_of_read hread h
    obtain ⟨-, -, -, hslash⟩ := FileTree.read_eq_ok_iff.1 hread
    rw [Naming.outputPath_eq_self_iff.2 h]
    obtain ⟨written, hdecode, hencode, -, hpaths⟩ :=
      FileRun.exists_written hread htarget request.settings
    exact ⟨written, hpaths _ hresolve hslash, hdecode, hencode⟩
  · intro h
    exact FileRun.read_convert_of_ne hread
      (fun place htarget => Naming.resolve_ne_of_target_outputPath hread h htarget) request.settings

end CommandLine

namespace Naming

/-- A path is a directory part and a name in one way, and a name has one stem. The
path of the output is the directory part, the stem and the extension of output files,
so its directory part is the same. In other words, the extension replaces what begins
at the last point if no slash stands behind that, and is added otherwise. The output
of the output is the output, and it is the path itself exactly if that has the
extension already. Then a program that is not told its output puts the documents of
the rule file into the rule file, which it keeps otherwise. -/
theorem outputPath_replaces_extension (path : Text) :
    (∃! parts : Text × Text, IsSplit path parts.1 parts.2) ∧
    (∀ name, ∃! stem, IsStem name stem) ∧
    (∀ directory name stem, IsSplit path directory name → IsStem name stem →
      outputPath path = directory ++ stem ++ ".ndjson".toList ∧
        IsSplit (outputPath path) directory (stem ++ ".ndjson".toList)) ∧
    (∀ i, Text.IsLastAt '.' path i → (∀ j, Text.IsLastAt '/' path j → j < i) →
      outputPath path = path.take i ++ ".ndjson".toList) ∧
    ((∀ i, Text.IsLastAt '.' path i → ∃ j, Text.IsLastAt '/' path j ∧ i < j) →
      outputPath path = path ++ ".ndjson".toList) ∧
    outputPath (outputPath path) = outputPath path ∧
    (outputPath path = path ↔ ".ndjson".toList <:+ path) ∧
    ∀ arguments request tree content, CommandLine.Request.read arguments = .ok request →
      request.rules = path → request.output = [] → tree.read path = .ok content →
        let after := (CommandLine.program arguments tree).tree
        let documents := (Batch.convert request.settings (FileRun.linesOf content)).documents
        (".ndjson".toList <:+ path → ∃ written, after.read path = .ok written ∧
          Utf8.decode written = (documents.flatMap fun document => document ++ ['\n']) ∧
          Utf8.encode (Utf8.decode written) = written) ∧
          (¬".ndjson".toList <:+ path → after.read path = .ok content) := by
  refine ⟨existsUnique_isSplit path, existsUnique_isStem,
    fun directory name stem hsplit hstem =>
      ⟨hsplit.outputPath_eq hstem, hsplit.isSplit_outputPath hstem⟩,
    fun i => outputPath_of_isLastAt, outputPath_of_lt_slash, outputPath_outputPath path,
    outputPath_eq_self_iff, ?_⟩
  rintro arguments request tree content hrequest rfl houtput hread
  rw [CommandLine.program_of_read_eq_ok hrequest]
  exact CommandLine.Request.read_rules_run houtput hread

/-- In a directory with a point in its name, a rule file without an extension and one
that is named like an output. -/
def pointedTree : FileTree :=
  ⟨⟨[(["d.x".toList], .directory),
    (["d.x".toList, "in".toList], .file (Utf8.encode "a b c d > e f (k:1)".toList)),
    (["d.x".toList, "in.rules.ndjson".toList],
      .file (Utf8.encode "a b any any > c any (k:2)\n#".toList))], by decide⟩, []⟩

/-- The point in the name of the directory marks no extension, and of the two points in
the name of a file the last one does. -/
theorem outputPath_replaces_extension_pointedTree :
    outputPath "d.x/in".toList = "d.x/in.ndjson".toList ∧
      (CommandLine.program ["d.x/in".toList] pointedTree).tree.read "d.x/in".toList =
        .ok (Utf8.encode "a b c d > e f (k:1)".toList) ∧
      outputPath "d.x/in.rules.ndjson".toList = "d.x/in.rules.ndjson".toList ∧
      ∃ written, (CommandLine.program ["--no-raw".toList, "d.x/in.rules.ndjson".toList]
          pointedTree).tree.read "d.x/in.rules.ndjson".toList = .ok written ∧
        Utf8.decode written =
          "\x7B\"action\":\"a\",\"protocol\":\"b\",\"source_ip\":\"any\",".toList ++
            "\"source_port\":\"any\",\"direction\":\">\",\"dest_ip\":\"c\",".toList ++
            "\"dest_port\":\"any\",\"options\":\x7B\"k\":2\x7D\x7D\n".toList := by
  obtain ⟨-, -, hparts, -, -, -, -, hkept⟩ := outputPath_replaces_extension "d.x/in".toList
  obtain ⟨-, -, -, -, -, -, hself, hreplaced⟩ :=
    outputPath_replaces_extension "d.x/in.rules.ndjson".toList
  have hsplit : IsSplit "d.x/in".toList "d.x/".toList "in".toList :=
    ⟨rfl, .inr ⟨"d.x".toList, rfl⟩, by decide⟩
  obtain ⟨content, hcontent⟩ :
      ∃ content, pointedTree.read "d.x/in.rules.ndjson".toList = .ok content := ⟨_, rfl⟩
  obtain ⟨hwritten, -⟩ := hreplaced ["--no-raw".toList, "d.x/in.rules.ndjson".toList]
    ⟨"d.x/in.rules.ndjson".toList, [], { keepSource := false }⟩ pointedTree content
    (by decide +kernel) rfl rfl hcontent
  refine ⟨(hparts _ _ "in".toList hsplit (.inl ⟨by decide, rfl⟩)).1, ?_, hself.2 (by decide), ?_⟩
  · exact (hkept ["d.x/in".toList] ⟨"d.x/in".toList, [], {}⟩ pointedTree _ (by decide +kernel)
      rfl rfl rfl).2 (by decide)
  · obtain ⟨written, hread, hdecode, -⟩ := hwritten (by decide)
    refine ⟨written, hread, hdecode.trans ?_⟩
    cases hcontent
    decide +kernel

end Naming

end IdsRules
