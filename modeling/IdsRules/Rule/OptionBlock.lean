import IdsRules.Rule.Fragment
import IdsRules.Rule.OptionValue
import IdsRules.Table

/-!
# Option tables

The fragments of an option block are assignments. A fragment with a colon sets
the key in front of its first colon to the value behind it; a fragment without
one is itself a key and sets a flag. Key and value have no blanks around them,
and one pair of double quotes around a value is dropped before it is typed.

The table keeps the keys in the order in which they are first set, and a key
that is set again takes the last value. The first fragment whose value cannot
be read is the fault of the whole block.
-/

namespace IdsRules

/-- The options of a rule, in the order in which their keys are first set. -/
abbrev Options := Table Text OptionValue

namespace OptionBlock

/-- The value text of a fragment without the quotes around it, if it has them. -/
def unquote (s : Text) : Text :=
  (Text.between? '"' '"' s).getD s

def key (fragment : Text) : Text :=
  match Text.cut? ':' fragment with
  | none => fragment
  | some (key, _) => Text.trim key

def value (fragment : Text) : Except Numeral.Fault OptionValue :=
  match Text.cut? ':' fragment with
  | none => .ok (.flag true)
  | some (_, value) => OptionValue.read (unquote (Text.trim value))

/-- The rows that a list of fragments sets, in order. -/
def rows : List Text → Except Numeral.Fault (List (Text × OptionValue))
  | [] => .ok []
  | fragment :: rest =>
    match value fragment with
    | .error fault => .error fault
    | .ok v =>
      match rows rest with
      | .error fault => .error fault
      | .ok vs => .ok ((key fragment, v) :: vs)

@[simp] theorem rows_nil : rows [] = .ok [] := rfl

theorem rows_cons_eq_ok_iff {fragment : Text} {rest : List Text}
    {out : List (Text × OptionValue)} :
    rows (fragment :: rest) = .ok out ↔
      ∃ v vs, value fragment = .ok v ∧ rows rest = .ok vs ∧ out = (key fragment, v) :: vs := by
  rw [rows]
  cases hv : value fragment with
  | error fault => simp
  | ok v =>
    cases hr : rows rest with
    | error fault => simp
    | ok vs => simp [eq_comm]

/-- The keys of the rows are the keys of the fragments. -/
theorem keys_rows {fragments : List Text} {out : List (Text × OptionValue)}
    (h : rows fragments = .ok out) : out.map Prod.fst = fragments.map key := by
  induction fragments generalizing out with
  | nil => simp only [rows_nil, Except.ok.injEq] at h; subst h; rfl
  | cons fragment rest ih =>
    obtain ⟨v, vs, -, hr, rfl⟩ := rows_cons_eq_ok_iff.1 h
    simp [ih hr]

/-- The options that an option block sets. -/
def parse (block : Text) : Except Numeral.Fault Options :=
  (rows (fragments block)).map Table.ofList

theorem parse_eq_ok_iff {block : Text} {options : Options} :
    parse block = .ok options ↔
      ∃ out, rows (fragments block) = .ok out ∧ options = Table.ofList out := by
  unfold parse
  cases rows (fragments block) with
  | error fault => simp [Except.map]
  | ok out => simp [Except.map, eq_comm]

end OptionBlock

end IdsRules
