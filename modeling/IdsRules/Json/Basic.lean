import IdsRules.Numeral.Binary64

/-!
# JSON values

A JSON value keeps the order of the members of an object, and it keeps integers
apart from floating-point numbers: `1` and `1.0` are different values, because
a document tells them apart by its number tokens. Objects are lists of members,
so a value may have two members of one name; the documents that the library
writes have none.
-/

namespace IdsRules

inductive Json where
  | null
  | bool (b : Bool)
  /-- A number without fraction and exponent. -/
  | integer (n : Int)
  /-- A number with a fraction or an exponent. -/
  | float (x : Numeral.Binary64)
  | string (s : Text)
  | array (items : List Json)
  | object (members : List (Text × Json))
deriving Repr

namespace Json

def member? (name : Text) : Json → Option Json
  | .object members => (members.find? fun m => m.1 == name).map Prod.snd
  | _ => none

def memberNames : Json → List Text
  | .object members => members.map Prod.fst
  | _ => []

end Json

end IdsRules
