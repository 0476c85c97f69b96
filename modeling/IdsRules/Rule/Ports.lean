import IdsRules.Text.Blank
import IdsRules.Text.Split

/-!
# Port lists

A port field is `any`, one port expression, or several of them separated by
commas, in brackets or not. Expressions are kept as texts: ranges, negations and
variables are not resolved. The two port fields of a rule together give its
port lists, where `any` gives the empty list; when both fields are `any` there
is nothing to say and the rule has no port lists.
-/

namespace IdsRules

/-- The port field that stands for every port. -/
def anyPort : Text := "any".toList

/-- The port expressions of both sides of a rule. -/
structure Ports where
  source : List Text
  destination : List Text
deriving DecidableEq, Repr

namespace Ports

/-- The expressions of a port field, without brackets and without the blanks
around them. -/
def expressions (field : Text) : List Text :=
  (Text.splitOn ',' ((Text.between? '[' ']' field).getD field)).map Text.trim

def side (field : Text) : List Text :=
  if field = anyPort then [] else expressions field

def isEmpty (p : Ports) : Bool :=
  p.source.isEmpty && p.destination.isEmpty

/-- The port lists of two port fields, unless both are empty. -/
def read? (source destination : Text) : Option Ports :=
  let p : Ports := ⟨side source, side destination⟩
  if p.isEmpty then none else some p

end Ports

end IdsRules
