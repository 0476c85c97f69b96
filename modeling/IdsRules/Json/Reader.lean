import IdsRules.Json.Token

/-!
# Reading JSON

`Json.parse?` reads a document: a text of tokens that together are one value.
The tokens drive a machine with a stack. Its stack holds the containers that
are open, innermost first, each with what has been read of it, and its mode
says what may come next. The machine takes each token once, so it is plain
recursion over the tokens whatever the nesting.

Members keep their order and are not compared with each other, so two members
of one name are both kept.
-/

namespace IdsRules.Json

/-- An open container, with what has been read of it in reverse. -/
inductive Frame where
  | array (items : List Json)
  | object (members : List (Text × Json))
  /-- An object that waits for the value of a name. -/
  | member (members : List (Text × Json)) (name : Text)
deriving Repr

inductive Mode where
  | value
  /-- The first item of an array, or its end. -/
  | firstItem
  /-- The first name of an object, or its end. -/
  | firstName
  | name
  | colon
  /-- A comma, or the end of the innermost container. -/
  | next
  /-- Nothing: the document is this value. -/
  | done (value : Json)
deriving Repr

structure Machine where
  stack : List Frame
  mode : Mode
deriving Repr

namespace Machine

def initial : Machine := ⟨[], .value⟩

/-- A value is complete: it belongs to the innermost open container. -/
def complete? (stack : List Frame) (value : Json) : Option Machine :=
  match stack with
  | [] => some ⟨[], .done value⟩
  | .array items :: stack => some ⟨.array (value :: items) :: stack, .next⟩
  | .member members name :: stack => some ⟨.object ((name, value) :: members) :: stack, .next⟩
  | .object _ :: _ => none

def beginValue? (stack : List Frame) : Token → Option Machine
  | .openObject => some ⟨.object [] :: stack, .firstName⟩
  | .openArray => some ⟨.array [] :: stack, .firstItem⟩
  | .string s => complete? stack (.string s)
  | .literal value => complete? stack value
  | _ => none

def beginName? : List Frame → Token → Option Machine
  | .object members :: stack, .string s => some ⟨.member members s :: stack, .colon⟩
  | _, _ => none

def close? : List Frame → Token → Option Machine
  | .array items :: stack, .closeArray => complete? stack (.array items.reverse)
  | .object members :: stack, .closeObject => complete? stack (.object members.reverse)
  | _, _ => none

def step? (m : Machine) (token : Token) : Option Machine :=
  match m.mode, token, m.stack with
  | .value, _, stack => beginValue? stack token
  | .firstItem, .closeArray, stack => close? stack token
  | .firstItem, _, stack => beginValue? stack token
  | .firstName, .closeObject, stack => close? stack token
  | .firstName, _, stack => beginName? stack token
  | .name, _, stack => beginName? stack token
  | .colon, .colon, stack => some ⟨stack, .value⟩
  | .next, .comma, .array items :: stack => some ⟨.array items :: stack, .value⟩
  | .next, .comma, .object members :: stack => some ⟨.object members :: stack, .name⟩
  | .next, _, stack => close? stack token
  | _, _, _ => none

def run? : Machine → List Token → Option Machine
  | m, [] => some m
  | m, token :: tokens => (m.step? token).bind fun m => run? m tokens

@[simp] theorem run?_nil (m : Machine) : run? m [] = some m := rfl

theorem run?_cons (m : Machine) (token : Token) (tokens : List Token) :
    run? m (token :: tokens) = (m.step? token).bind fun m => run? m tokens := rfl

/-- The value of a document that has been read to its end. -/
def result? (m : Machine) : Option Json :=
  match m.mode with
  | .done value => some value
  | _ => none

end Machine

def parse? (s : Text) : Option Json :=
  (Token.read? s).bind fun tokens => (Machine.run? .initial tokens).bind Machine.result?

end IdsRules.Json
