import IdsRules.Numeral.Binary64
import IdsRules.Numeral.Fault

/-!
# Numerals of infinities and of nan

An optional sign and one of the names `inf`, `infinity` and `nan` denotes a
number that no digits denote. The case of the letters is ignored, and in the
comparison the letter `i` is matched by the capital I with a dot above and by
the small dotless i as well. Those two letters have the form of a name without
being one: a numeral with either of them is recognised and is at fault.
-/

namespace IdsRules.Numeral

inductive SpecialKind where
  | infinity
  | nan
deriving DecidableEq, Repr

/-- The names of the special values, in lower case. -/
def specialNames : List (Text × SpecialKind) :=
  [("inf".toList, .infinity), ("infinity".toList, .infinity), ("nan".toList, .nan)]

/-- Whether a character matches a lower-case letter when case is ignored. -/
def matchesLetter (letter c : Char) : Bool :=
  c.toLower == letter || (letter == 'i' && (c == '\u0130' || c == '\u0131'))

/-- Whether a text spells a name when case is ignored. -/
def spells : (name : Text) → Text → Bool
  | [], [] => true
  | letter :: name, c :: s => matchesLetter letter c && spells name s
  | _, _ => false

structure SpecialNumeral where
  negative : Bool
  kind : SpecialKind
  /-- Whether all letters of the name are ASCII letters. -/
  plain : Bool
deriving DecidableEq, Repr

namespace SpecialNumeral

/-- Reads a text that is a special numeral from end to end. -/
def parse? (s : Text) : Option SpecialNumeral :=
  let (negative, name) := splitSign s
  (specialNames.find? fun entry => spells entry.1 name).map fun entry =>
    ⟨negative, entry.2, name.all fun c => c.toNat < 0x80⟩

def value (m : SpecialNumeral) : Binary64 :=
  match m.kind with
  | .infinity => .infinite m.negative
  | .nan => .nan

end SpecialNumeral

end IdsRules.Numeral
