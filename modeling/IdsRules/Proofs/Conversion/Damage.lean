import IdsRules.Conversion.Session
import IdsRules.Proofs.Conversion.FileRun
import IdsRules.Proofs.Conversion.Rows
import IdsRules.Proofs.Text.Lines
import IdsRules.Proofs.Text.Utf8Boundary

/-!
# A damaged line

The bytes of a line may be anything but line ends, and no character at all. What
is read of them ends where they end: a sequence that breaks off there takes
neither the line end behind it nor the line after that. So a file with other
bytes in the place of a line has the same other lines under the same numbers,
and its conversion does with them what it did before.
-/

namespace IdsRules

namespace FileRun

/-- Bytes that make one line of a file. -/
structure IsLine (bytes : List UInt8) : Prop where
  ne_nil : bytes ≠ []
  not_end : ∀ b ∈ bytes, b ≠ 0x0A ∧ b ≠ 0x0D

theorem linesOf_append {p : List UInt8} (hp : ∀ b ∈ p.getLast?, b = 0x0A) (rest : List UInt8) :
    linesOf (p ++ rest) = linesOf p ++ linesOf rest := by
  cases hlast : p.getLast? with
  | none =>
      rw [List.getLast?_eq_none_iff.1 hlast]
      rfl
  | some b =>
      obtain ⟨p, rfl⟩ := List.getLast?_eq_some_iff.1 hlast
      rw [hp b hlast]
      have hdecode : ∀ r, Utf8.decode (p ++ 0x0A :: r) = Utf8.decode p ++ '\n' :: Utf8.decode r := by
        intro r
        rw [Utf8.decode_append (by simp), Utf8.decode_cons_ascii (by decide)]
        rfl
      rw [linesOf, linesOf, List.append_assoc, List.singleton_append, hdecode, hdecode,
        Text.lines_append_lineFeed_append]
      rfl

theorem IsLine.isLineEnd_eq_false {bytes : List UInt8} (h : IsLine bytes) :
    ∀ c ∈ Utf8.decode bytes, Text.isLineEnd c = false := by
  intro c hc
  rw [Text.isLineEnd, Bool.or_eq_false_iff, beq_eq_false_iff_ne, beq_eq_false_iff_ne]
  constructor
  · rintro rfl
    obtain ⟨b, hb, hvalue⟩ := Utf8.exists_mem_of_mem_decode hc (by decide) (by decide)
    exact (h.not_end b hb).1 (UInt8.toNat_inj.1 hvalue)
  · rintro rfl
    obtain ⟨b, hb, hvalue⟩ := Utf8.exists_mem_of_mem_decode hc (by decide) (by decide)
    exact (h.not_end b hb).2 (UInt8.toNat_inj.1 hvalue)

/-- A line joins neither what stands in front of it nor what stands behind it. -/
theorem linesOf_append_line {p x q : List UInt8} (hp : ∀ b ∈ p.getLast?, b = 0x0A)
    (hq : ∀ b ∈ q.head?, b = 0x0A ∨ b = 0x0D) (hx : IsLine x) :
    linesOf (p ++ x ++ q) = linesOf p ++ Utf8.decode x :: (linesOf q).tail := by
  have hascii : ∀ b ∈ q.head?, b.toNat < 0x80 := by
    intro b hb
    rcases hq b hb with rfl | rfl <;> decide
  have hhead : ∀ c ∈ (Utf8.decode q).head?, Text.isLineEnd c = true := by
    cases q with
    | nil => exact nofun
    | cons b q =>
        rw [Utf8.decode_cons_ascii (hascii b rfl)]
        rintro c ⟨⟩
        rcases hq b rfl with rfl | rfl <;> decide
  rw [List.append_assoc, linesOf_append hp, linesOf, linesOf, Utf8.decode_append hascii,
    Text.lines_append_of_lineEnd (Utf8.decode_ne_nil hx.ne_nil)
      hx.isLineEnd_eq_false hhead]
  rfl

/-- What a run does if these are its rows. -/
structure Follows (settings : Settings) (input output : Text) (rows : List Row) (run : FileRun) :
    Prop where
  messages : run.messages = .started input output :: (Batch.ofRows settings rows).messages ++
    FileReport.closing settings output (Batch.ofRows settings rows)
  counters : run.counters = (Batch.ofRows settings rows).counters
  failure : run.failure = (Batch.ofRows settings rows).fault.map .value
  content : ∃ written, run.tree.read output = .ok written ∧
    Utf8.decode written = ((Batch.ofRows settings rows).documents.flatMap
      fun document => document ++ ['\n']) ∧
    Utf8.encode (Utf8.decode written) = written

theorem follows_convert {settings : Settings} {tree : FileTree} {input output : Text}
    {content : List UInt8} {place : Place} (hread : tree.read input = .ok content)
    (htarget : tree.target output = .ok place) :
    (convert settings tree input output).Follows settings input output
      (Batch.rows settings (linesOf content)) := by
  have hbatch : Batch.convert settings (linesOf content) =
      Batch.ofRows settings (Batch.rows settings (linesOf content)) :=
    Batch.convertFrom_eq_ofRows settings 0 (linesOf content)
  rw [convert_of_target_eq_ok hread htarget, hbatch]
  exact ⟨rfl, rfl, rfl, _, FileTree.read_put_of_target htarget _, decode_contentOf _,
    encode_decode_contentOf _⟩

end FileRun

namespace Converter

/-- Conversions of a file with the bytes `x` or `x'` in the place of a line,
neither of which has a value at fault. The file has the same other lines. Both
conversions read the same number of them and come to the same end; they have the
same rows but that of the line in question. If another line is the first with a
value at fault, it has the last row of both. A conversion does what its rows say,
unless the output cannot be opened, which neither of them can do then. -/
theorem convertFile_damage (c : Converter) {tree : FileTree} {input : Text} {place : Place}
    {old : List UInt8} (hinput : tree.read input = .ok old)
    (hplace : tree.resolve input = .ok place) {p x x' q : List UInt8}
    (hp : ∀ b ∈ p.getLast?, b = 0x0A) (hq : ∀ b ∈ q.head?, b = 0x0A ∨ b = 0x0D)
    (hx : FileRun.IsLine x) (hx' : FileRun.IsLine x')
    (hline : ∀ fault, Rule.parse c.settings.keepSource (Utf8.decode x) ≠ .error (.value fault))
    (hline' : ∀ fault, Rule.parse c.settings.keepSource (Utf8.decode x') ≠ .error (.value fault))
    (output : Text) :
    let before := FileRun.linesOf p
    let after := (FileRun.linesOf q).tail
    let lines := FileRun.linesOf (p ++ x ++ q)
    let lines' := FileRun.linesOf (p ++ x' ++ q)
    let rows := Batch.rows c.settings lines
    let rows' := Batch.rows c.settings lines'
    let intact := tree.put place (p ++ x ++ q)
    let damaged := tree.put place (p ++ x' ++ q)
    let done := c.convertFile intact input output
    let done' := c.convertFile damaged input output
    (lines = before ++ Utf8.decode x :: after ∧ lines' = before ++ Utf8.decode x' :: after) ∧
    (done.1.counters.total = done'.1.counters.total ∧ done.2.failure = done'.2.failure) ∧
    List.Forall₂ (Row.SameBut (before.length + 1) (Verdict.ofLine c.settings (Utf8.decode x))
      (Verdict.ofLine c.settings (Utf8.decode x'))) rows rows' ∧
    (∀ above line below fault, lines = above ++ line :: below →
      (∀ l ∈ above, ∀ f, Rule.parse c.settings.keepSource l ≠ .error (.value f)) →
      Rule.parse c.settings.keepSource line = .error (.value fault) →
        rows.getLast? = some ⟨above.length + 1, .stopped fault⟩ ∧
        rows'.getLast? = some ⟨above.length + 1, .stopped fault⟩) ∧
    match intact.target output with
    | .ok _ => done.2.Follows c.settings input output rows ∧
        done'.2.Follows c.settings input output rows'
    | .error _ => done.2.messages = done'.2.messages ∧ done.2.tree = intact ∧
        done'.2.tree = damaged := by
  intro before after lines lines' rows rows' intact damaged done done'
  obtain ⟨hroot, hread⟩ := FileTree.read_put_of_read hinput hplace
  have hlines : lines = before ++ Utf8.decode x :: after := FileRun.linesOf_append_line hp hq hx
  have hlines' : lines' = before ++ Utf8.decode x' :: after :=
    FileRun.linesOf_append_line hp hq hx'
  have hsound := Verdict.isStopped_ofLine_eq_false_iff_parse.2 hline
  have hsound' := Verdict.isStopped_ofLine_eq_false_iff_parse.2 hline'
  have hrows : List.Forall₂ (Row.SameBut (before.length + 1)
      (Verdict.ofLine c.settings (Utf8.decode x)) (Verdict.ofLine c.settings (Utf8.decode x')))
      rows rows' := by
    have hall := Batch.rowsFrom_forall₂ hsound hsound' 0 before after
    rwa [Nat.zero_add, ← hlines, ← hlines'] at hall
  have htarget : damaged.target output = intact.target output :=
    (FileTree.sameDirectories_put hroot _ _).target output
  have hstops : ∀ above line below fault, lines = above ++ line :: below →
      (∀ l ∈ above, ∀ f, Rule.parse c.settings.keepSource l ≠ .error (.value f)) →
      Rule.parse c.settings.keepSource line = .error (.value fault) →
        rows.getLast? = some ⟨above.length + 1, .stopped fault⟩ ∧
        rows'.getLast? = some ⟨above.length + 1, .stopped fault⟩ := by
    intro above line below fault habove hsounds hfault
    have hlast := Batch.rowsFrom_append_cons
      (fun l hl => Verdict.isStopped_ofLine_eq_false_iff_parse.2 (hsounds l hl))
      (Verdict.ofLine_eq_stopped_iff.2 hfault) 0 below
    rw [← habove, Nat.zero_add] at hlast
    exact ⟨hlast, Batch.getLast?_eq_of_stopped hrows hsound hlast⟩
  cases hopen : intact.target output with
  | error error =>
      have hdone : done.2 = _ := FileRun.convert_of_target_eq_error (hread _) hopen c.settings
      have hdone' : done'.2 = _ :=
        FileRun.convert_of_target_eq_error (hread _) (htarget.trans hopen) c.settings
      refine ⟨⟨hlines, hlines'⟩, ⟨?_, ?_⟩, hrows, hstops, ?_, congrArg FileRun.tree hdone,
        congrArg FileRun.tree hdone'⟩
      · change done.2.counters.total = done'.2.counters.total
        rw [hdone, hdone']
      all_goals rw [hdone, hdone']
  | ok target =>
      have hdone : done.2.Follows c.settings input output rows :=
        FileRun.follows_convert (hread _) hopen
      have hdone' : done'.2.Follows c.settings input output rows' :=
        FileRun.follows_convert (hread _) (htarget.trans hopen)
      refine ⟨⟨hlines, hlines'⟩, ⟨?_, ?_⟩, hrows, hstops, hdone, hdone'⟩
      · change done.2.counters.total = done'.2.counters.total
        rw [hdone.counters, hdone'.counters]
        exact hrows.length_eq
      · rw [hdone.failure, hdone'.failure, Batch.fault_ofRows_congr hrows hsound hsound']

/-- A sequence of four bytes that breaks off behind the third takes nothing of
the line end behind it, and the line after that is still the third. -/
theorem convertFile_damage_brokenOff :
    let c : Converter := { settings := {} }
    let tree : FileTree := ⟨⟨[(["in".toList], .file [])], by decide⟩, []⟩
    let rule := Utf8.encode "a b c d > e f (k:1)".toList
    let content := fun line : List UInt8 => [0x23, 0x0A] ++ line ++ [0x0D, 0x0A, 0x61]
    let done := c.convertFile (tree.put ["in".toList] (content rule)) "in".toList "out".toList
    let done' := c.convertFile (tree.put ["in".toList] (content [0xF0, 0x9F, 0x98])) "in".toList
      "out".toList
    done.1.counters.total = done'.1.counters.total ∧ done.2.failure = done'.2.failure ∧
      done.2.messages.take 2 = [.started "in".toList "out".toList, .malformedLine 3] ∧
      done'.2.messages.take 3 =
        [.started "in".toList "out".toList, .malformedLine 2, .malformedLine 3] ∧
      done'.2.tree.read "out".toList = .ok [] := by
  intro c tree rule content done done'
  have hsound : (Verdict.ofLine {} (Utf8.decode rule)).isStopped = false := by decide +kernel
  have hsound' : (Verdict.ofLine {} (Utf8.decode [0xF0, 0x9F, 0x98])).isStopped = false := by
    decide +kernel
  have hrule : FileRun.IsLine rule := ⟨by decide, by decide +kernel⟩
  have hbroken : FileRun.IsLine [0xF0, 0x9F, 0x98] := ⟨by decide, by decide +kernel⟩
  have hin : tree.read "in".toList = .ok [] := rfl
  have hplace : tree.resolve "in".toList = .ok ["in".toList] := rfl
  have hp : ∀ b ∈ ([0x23, 0x0A] : List UInt8).getLast?, b = 0x0A := by decide +kernel
  have hq : ∀ b ∈ ([0x0D, 0x0A, 0x61] : List UInt8).head?, b = 0x0A ∨ b = 0x0D := by
    decide +kernel
  obtain ⟨-, ⟨htotal, hfailure⟩, -, -, hfollows, hfollows'⟩ :=
    convertFile_damage c hin hplace hp hq hrule hbroken
      (Verdict.isStopped_ofLine_eq_false_iff_parse.1 hsound)
      (Verdict.isStopped_ofLine_eq_false_iff_parse.1 hsound') "out".toList
  refine ⟨htotal, hfailure, ?_, ?_, ?_⟩
  · rw [hfollows.messages]
    decide +kernel
  · rw [hfollows'.messages]
    decide +kernel
  · obtain ⟨written, hread, hdecode, hencode⟩ := hfollows'.content
    rw [hread, ← hencode, hdecode]
    decide +kernel

end Converter

end IdsRules
