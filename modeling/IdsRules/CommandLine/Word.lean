import IdsRules.CommandLine.Switch
import IdsRules.Text.DecimalDigit
import IdsRules.Text.Split

/-!
# Words of the command line

Each argument of the program is first classified by its form alone. It is an
operand, the terminator `--` after which everything is an operand, or a use of a
switch. A use of a switch may carry an argument of its own, behind an equals
sign or, for a switch of one letter, right behind the letter. Long spellings
may be abbreviated as long as one candidate is left; several candidates are an
error at once. An argument that looks like a switch and is none is a use
without a switch, unless it is a negative number or has a space in it, which
make it an operand.
-/

namespace IdsRules.CommandLine

structure SwitchUse where
  switch : Switch
  spelling : Text
  attached : Option Text
deriving DecidableEq, Repr

/-- What an argument of the program is. -/
inductive Word where
  | operand (s : Text)
  | terminator
  | use (u : SwitchUse)
  | unknown (written : Text)
deriving DecidableEq, Repr

namespace Word

/-- Whether a text is a negative number: a minus sign and decimal digits with
at most one point among them and digits behind it. One line feed may follow. -/
def isNegativeNumber (s : Text) : Bool :=
  match Text.chomp s with
  | [] => false
  | c :: rest =>
    let isNumber := fun (digits : Text) => !digits.isEmpty && digits.all Text.isDecimalDigit
    c == '-' &&
      match Text.cut? '.' rest with
      | none => isNumber rest
      | some (whole, fraction) => whole.all Text.isDecimalDigit && isNumber fraction

/-- The part of an argument in front of its first equals sign, and what stands
behind it. -/
def splitEquals (s : Text) : Text × Option Text :=
  match Text.cut? '=' s with
  | none => (s, none)
  | some (spelling, argument) => (spelling, some argument)

/-- The uses that an argument with two dashes may abbreviate. -/
def longCandidates (s : Text) : List SwitchUse :=
  let (beginning, attached) := splitEquals s
  Switch.spellings.filterMap fun entry =>
    if beginning.isPrefixOf entry.1 then some ⟨entry.2, entry.1, attached⟩ else none

/-- The uses that an argument with one dash may be: a switch of one letter with
its argument right behind the letter, or an abbreviation. -/
def shortCandidates (s : Text) : List SwitchUse :=
  Switch.spellings.filterMap fun entry =>
    if entry.1 = s.take 2 then some ⟨entry.2, entry.1, some (s.drop 2)⟩
    else if s.isPrefixOf entry.1 then some ⟨entry.2, entry.1, none⟩
    else none

/-- The uses that an argument may be if no spelling is written in full. -/
def candidates (s : Text) : List SwitchUse :=
  if "--".toList.isPrefixOf s then longCandidates s else shortCandidates s

/-- The use of a spelling that is written in full, with or without an argument
behind an equals sign. -/
def fullUse? (s : Text) : Option SwitchUse :=
  match Switch.ofSpelling? s with
  | some switch => some ⟨switch, s, none⟩
  | none =>
    let (spelling, attached) := splitEquals s
    if attached.isSome then
      (Switch.ofSpelling? spelling).map fun switch => ⟨switch, spelling, attached⟩
    else none

/-- What an argument is that is not the terminator. -/
def classify (s : Text) : Except Misuse Word :=
  if s.head? ≠ some '-' ∨ s = ['-'] then .ok (.operand s)
  else
    match fullUse? s with
    | some u => .ok (.use u)
    | none =>
      match candidates s with
      | [u] => .ok (.use u)
      | [] => .ok (if isNegativeNumber s ∨ ' ' ∈ s then .operand s else .unknown s)
      | us => .error (.ambiguous s (us.map SwitchUse.spelling))

/-- What the arguments of the program are; behind the terminator there are only
operands. -/
def classifyAll : List Text → Except Misuse (List Word)
  | [] => .ok []
  | s :: rest =>
    if s = "--".toList then .ok (.terminator :: rest.map .operand)
    else
      match classify s with
      | .error misuse => .error misuse
      | .ok word =>
        match classifyAll rest with
        | .error misuse => .error misuse
        | .ok words => .ok (word :: words)

end Word

end IdsRules.CommandLine
