import IdsRules.Proofs.Conversion.Interleaving
import IdsRules.Proofs.Conversion.LineClass

/-!
# The conversion of a file starts afresh

A converter that has been used holds counters and runs that wait to be pulled.
The conversion of a file sets the counters back and asks none of the runs, so it
does what a new converter with the same settings does, whatever happened before.
Of the files it changes the output only, and that only once both files could be
opened. The input has been read to its end by then, so it may be the output.
-/

namespace IdsRules

namespace Session

/-- After any events, the conversion of a file does and tells what it does and
tells for a new converter, and leaves the runs as they are. It changes nothing
but at the place that the output path is written to; it changes nothing at all
and counts nothing if a file cannot be opened. Otherwise the output holds the
documents of the content that the input had, each with a line feed behind it, even
if it is the input, and those of the lines before the first with a value at fault
if there is one. -/
theorem convertFile_startsAfresh (settings : Settings) (tree : FileTree) (events : List Event)
    (files : FileTree) (input output : Text) :
    let c := ((initial settings tree).advanceAll events).converter
    let fresh : Converter := { settings }
    let done := c.convertFile files input output
    (done.2 = (fresh.convertFile files input output).2 ∧
      done.1.counters = (fresh.convertFile files input output).1.counters ∧
      done.1.runs = c.runs) ∧
    (∀ place, files.target output ≠ .ok place →
      done.2.tree.lookup place = files.lookup place) ∧
    ((∀ content, files.read input ≠ .ok content) ∨ (∀ place, files.target output ≠ .ok place) →
      done.2.tree = files ∧ done.1.counters = .zero ∧
        ∃ path error, done.2.failure = some (.file path error)) ∧
    ∀ content place, files.read input = .ok content → files.target output = .ok place →
      let lines := FileRun.linesOf content
      let documents := (fresh.convert lines).2.documents
      ∃ written, Utf8.decode written = (documents.flatMap fun document => document ++ ['\n']) ∧
        Utf8.encode (Utf8.decode written) = written ∧
        done.2.tree.lookup place = some (.file written) ∧
        (files.resolve input = .ok place → done.2.tree.read input = .ok written) ∧
        ∀ before line rest fault, lines = before ++ line :: rest →
          (∀ l ∈ before, ∀ f, Rule.parse settings.keepSource l ≠ .error (.value f)) →
          Rule.parse settings.keepSource line = .error (.value fault) →
            done.2.failure = some (.value fault) ∧
              documents = before.filterMap fun l => (Verdict.ofLine settings l).document? := by
  intro c fresh done
  have hsettings : c.settings = settings := settings_advanceAll (initial settings tree) events
  have hdone : done.2 = FileRun.convert settings files input output := by rw [← hsettings]; rfl
  have hcounters : done.1.counters = (FileRun.convert settings files input output).counters := by
    rw [← hsettings]
    rfl
  refine ⟨⟨hdone, hcounters, rfl⟩, ?_, ?_, ?_⟩
  · intro place hplace
    rw [hdone, FileRun.lookup_convert_of_ne hplace]
  · intro hrefused
    obtain ⟨hzero, htree, hfailure⟩ :=
      FileRun.convert_of_not_opened (FileRun.opened?_eq_none_iff.2 hrefused) settings
    rw [hcounters, hdone]
    exact ⟨htree, hzero, hfailure⟩
  · intro content place hread htarget lines documents
    obtain ⟨written, hdecode, hencode, hlookup, hpaths⟩ :=
      FileRun.exists_written hread htarget settings
    rw [hdone]
    refine ⟨written, hdecode, hencode, hlookup, fun hsame => ?_, ?_⟩
    · obtain ⟨-, -, -, hslash⟩ := FileTree.read_eq_ok_iff.1 hread
      exact hpaths input hsame hslash
    · intro before line rest fault hlines hbefore hline
      have hopen : FileRun.opened? files input output = some (lines, place) :=
        FileRun.opened?_eq_some_iff.2 ⟨content, hread, rfl, htarget⟩
      obtain ⟨hfault, hdocuments⟩ := Batch.convert_append_cons
        (fun l hl => Verdict.isStopped_ofLine_eq_false_iff_parse.2 (hbefore l hl))
        (Verdict.ofLine_eq_stopped_iff.2 hline) rest
      rw [← hlines] at hfault hdocuments
      refine ⟨?_, hdocuments⟩
      rw [(FileRun.convert_of_opened hopen settings).2.2, hfault]
      rfl

/-- A comment, two rules with a value at fault between them, and another
file. -/
def damagedTree : FileTree :=
  ⟨⟨[(["in".toList], .file (Utf8.encode ("#\r\na b any any > c any (k:1)\n".toList
      ++ "a b any any > c any (k:\u0131nf)\na b any any > c any (k:2)".toList))),
    (["other".toList], .file [0x23])], by decide⟩, []⟩

/-- A converter with a run that has come to its end and with counters of three
lines converts a file onto itself, by another path. -/
theorem convertFile_startsAfresh_ontoItself :
    let c := ((initial {} Ledger.crossingTree).advanceAll Ledger.crossingEvents).converter
    let done := c.convertFile damagedTree "in".toList "./in".toList
    c.counters ≠ .zero ∧ done.1.runs = c.runs ∧ done.1.runs.length = 1 ∧
      done.1.counters = { total := 3, converted := 1, skipped := 1 } ∧
      done.2.failure = some (.value (.notANumber "\u0131nf".toList)) ∧
      (∃ written, done.2.tree.read "in".toList = .ok written ∧ Utf8.decode written =
        "\x7B\"action\":\"a\",\"protocol\":\"b\",\"source_ip\":\"any\",".toList ++
          "\"source_port\":\"any\",\"direction\":\">\",\"dest_ip\":\"c\",".toList ++
          "\"dest_port\":\"any\",\"options\":\x7B\"k\":1\x7D,".toList ++
          "\"raw_rule\":\"a b any any > c any (k:1)\"\x7D\n".toList) ∧
      done.2.tree.lookup ["other".toList] = some (.file [0x23]) ∧
      (c.convertFile damagedTree "in".toList "other/out".toList).2.tree = damagedTree ∧
      (c.convertFile damagedTree "in".toList "other/out".toList).1.counters = .zero := by
  intro c done
  have hevents := convertFile_startsAfresh {} Ledger.crossingTree Ledger.crossingEvents damagedTree
  obtain ⟨⟨hdone, hcounters, hruns⟩, hframe, -, hopened⟩ := hevents "in".toList "./in".toList
  obtain ⟨-, -, hrefused, -⟩ := hevents "in".toList "other/out".toList
  obtain ⟨content, hcontent⟩ : ∃ content, damagedTree.read "in".toList = .ok content := ⟨_, rfl⟩
  have htarget : damagedTree.target "./in".toList = .ok ["in".toList] := rfl
  obtain ⟨written, hdecode, -, -, hread, hstops⟩ := hopened content _ hcontent htarget
  have hlines : FileRun.linesOf content =
      ["#".toList, "a b any any > c any (k:1)".toList] ++
        "a b any any > c any (k:\u0131nf)".toList :: ["a b any any > c any (k:2)".toList] := by
    cases hcontent
    decide +kernel
  have hbefore : ∀ l ∈ ["#".toList, "a b any any > c any (k:1)".toList],
      (Verdict.ofLine {} l).isStopped = false := by
    decide +kernel
  obtain ⟨hfault, hdocuments⟩ := hstops _ _ _ (.notANumber "\u0131nf".toList) hlines
    (fun l hl => Verdict.isStopped_ofLine_eq_false_iff_parse.1 (hbefore l hl)) (by decide +kernel)
  refine ⟨by decide +kernel, hruns, by decide +kernel, ?_, hfault,
    ⟨written, hread rfl, hdecode.trans ?_⟩, ?_, ?_⟩
  · rw [hcounters]
    decide +kernel
  · rw [hdocuments]
    decide +kernel
  · rw [hframe ["other".toList] (by rw [htarget]; decide)]
    rfl
  · have hother : damagedTree.target "other/out".toList = .error .notDirectory := rfl
    obtain ⟨htree, hzero, -⟩ := hrefused (.inr fun place => by rw [hother]; exact nofun)
    exact ⟨htree, hzero⟩

end Session

end IdsRules
