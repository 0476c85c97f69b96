import IdsRules.Proofs.Rule.Fragments
import IdsRules.Proofs.Table
import IdsRules.Rule.OptionBlock

/-!
# Option blocks behind each other

Nothing goes from one part of an option block to the next but whether a quote is
open. Behind a text that leaves none open, a semicolon starts afresh: the block
is cut on both sides of it as if the other side were not there, the values of the
first side are read before those of the second, and the second side is assigned
to the table of the first. So the options of the two sides together are known
from the options of each.
-/

namespace IdsRules

namespace OptionBlock

/-- The fragments of a first list are read before those of a second, and their
rows stand in front. -/
theorem rows_append (ps qs : List Text) :
    rows (ps ++ qs) = (rows ps).bind fun first => (rows qs).map fun second => first ++ second := by
  induction ps with
  | nil =>
      change rows qs = (rows qs).map id
      cases rows qs <;> rfl
  | cons p ps ih =>
      rw [List.cons_append, rows, rows, ih]
      cases value p with
      | error fault => rfl
      | ok v =>
          cases rows ps with
          | error fault => rfl
          | ok first => cases rows qs <;> rfl

/-- The options behind a semicolon are set in the table of those in front. -/
theorem parse_append_cons {a : Text} (h : Balanced a) (b : Text) :
    parse (a ++ ';' :: b) =
      (parse a).bind fun first => (parse b).map fun second => first.update second.rows := by
  rw [parse, parse, parse, fragments_append_semicolon h, rows_append]
  cases rows (fragments a) with
  | error fault => rfl
  | ok first =>
      cases rows (fragments b) with
      | error fault => rfl
      | ok second =>
          change Except.ok (Table.ofList (first ++ second)) =
            Except.ok ((Table.ofList first).update (Table.ofList second).rows)
          rw [Table.update_rows_ofList, Table.ofList_append]

/-- Two option blocks with a semicolon between them, of which the first leaves no
quote open, set the options of the first and then those of the second. If one of
them is at fault, so are both together, with the fault of the first if it has
one. Otherwise the keys are those of the first block and behind them the new ones
of the second, each in the order of their block, and a key has the value that the
second block gives it, or else that of the first. -/
theorem parse_append_semicolon {a : Text} (h : Balanced a) (b : Text) :
    (∀ fault, parse (a ++ ';' :: b) = .error fault ↔
        parse a = .error fault ∨ (∃ first, parse a = .ok first) ∧ parse b = .error fault) ∧
      ∀ first second, parse a = .ok first → parse b = .ok second →
        ∃ both, parse (a ++ ';' :: b) = .ok both ∧ both = first.update second.rows ∧
          both.keys = first.keys ++ second.keys.filter (fun k => k ∉ first.keys) ∧
          ∀ k, both.get? k = (second.get? k).or (first.get? k) := by
  rw [parse_append_cons h]
  constructor
  · intro fault
    cases parse a with
    | error fault' => simp [Except.bind]
    | ok first => cases parse b <;> simp [Except.bind, Except.map]
  · intro first second hfirst hsecond
    have hkeys := first.keys_update second.rows
    have hvalues := first.get?_update second.rows
    rw [Table.ofList_rows] at hkeys hvalues
    refine ⟨first.update second.rows, ?_, rfl, hkeys, hvalues⟩
    rw [hfirst, hsecond]
    rfl

/-- A key with a value, a flag, a fragment of blanks and a semicolon as a value. -/
def earlierBlock : Text :=
  "a:1;b; ;c:\";\"".toList

/-- A key whose second value leaves a quote open, and two keys of the earlier
block. -/
def laterBlock : Text :=
  "d;b:2; a;d:\"e;f".toList

def earlierOptions : Options :=
  ⟨[("a".toList, .integer 1), ("b".toList, .flag true), ("c".toList, .text ";".toList)],
    by decide⟩

def laterOptions : Options :=
  ⟨[("d".toList, .text "\"e;f".toList), ("b".toList, .integer 2), ("a".toList, .flag true)],
    by decide⟩

theorem parse_append_semicolon_repeatedKeys :
    Balanced earlierBlock ∧ parse earlierBlock = .ok earlierOptions ∧
      parse laterBlock = .ok laterOptions ∧
      ∃ both, parse (earlierBlock ++ ';' :: laterBlock) = .ok both ∧
        both.keys = ["a".toList, "b".toList, "c".toList, "d".toList] ∧
        both.get? "a".toList = some (.flag true) ∧ both.get? "b".toList = some (.integer 2) ∧
        both.get? "c".toList = some (.text ";".toList) ∧
        both.get? "d".toList = some (.text "\"e;f".toList) := by
  have hbalanced : Balanced earlierBlock := by
    unfold Balanced
    decide
  have hfirst : parse earlierBlock = .ok earlierOptions := by decide +kernel
  have hsecond : parse laterBlock = .ok laterOptions := by decide +kernel
  obtain ⟨both, hboth, -, hkeys, hvalues⟩ :=
    (parse_append_semicolon hbalanced laterBlock).2 _ _ hfirst hsecond
  refine ⟨hbalanced, hfirst, hsecond, both, hboth, ?_⟩
  simp only [hkeys, hvalues]
  decide

end OptionBlock

end IdsRules
