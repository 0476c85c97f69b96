import IdsRules.Text.Basic

/-!
# Rule headers

A header is seven fields, each followed by a run of separators: action,
protocol, source address and port, direction, destination address and port.
Separators are the space, the tab, the line feed, the form feed and the
carriage return; every other character, whatever blank it may look like, can be
part of a field. Action and protocol are words of ASCII letters, digits and
underscores, and the direction is one of four arrows. The option block follows
in parentheses.

No field holds a separator, so a field ends at the first separator and a run of
separators at the first character that is none. This is why a text can be taken
apart in one way only, and why reading it needs no second attempt.
-/

namespace IdsRules

/-- The characters that separate the fields of a header. -/
def isSeparator (c : Char) : Bool :=
  c == ' ' || c == '\t' || c == '\n' || c == '\x0C' || c == '\r'

/-- The characters of actions and protocols. -/
def isWordChar (c : Char) : Bool :=
  c.isAlphanum || c == '_'

/-- Whether a text is an action or a protocol. -/
def isWord (s : Text) : Bool :=
  !s.isEmpty && s.all isWordChar

/-- Whether a text is an address or a port list. -/
def isField (s : Text) : Bool :=
  !s.isEmpty && s.all fun c => !isSeparator c

def isGap (s : Text) : Bool :=
  !s.isEmpty && s.all isSeparator

def directions : List Text :=
  ["->".toList, ">".toList, "<->".toList, "<-".toList]

/-- The seven fields in front of the option block. -/
structure Header where
  action : Text
  protocol : Text
  sourceAddress : Text
  sourcePort : Text
  direction : Text
  destinationAddress : Text
  destinationPort : Text
deriving DecidableEq, Repr

namespace Header

def fields (h : Header) : List Text :=
  [h.action, h.protocol, h.sourceAddress, h.sourcePort, h.direction, h.destinationAddress,
    h.destinationPort]

def isValid (h : Header) : Bool :=
  isWord h.action && isWord h.protocol && isField h.sourceAddress && isField h.sourcePort
    && directions.contains h.direction && isField h.destinationAddress
    && isField h.destinationPort

/-- The first field of a text and what follows the separators behind it. -/
def takeField? (s : Text) : Option (Text × Text) :=
  let field := s.takeWhile fun c => !isSeparator c
  let rest := s.dropWhile fun c => !isSeparator c
  if field = [] ∨ rest = [] then none else some (field, rest.dropWhile isSeparator)

/-- The first `n` fields of a text and what follows the separators behind them. -/
def takeFields? : (n : Nat) → Text → Option (List Text × Text)
  | 0, s => some ([], s)
  | n + 1, s =>
    (takeField? s).bind fun first =>
      (takeFields? n first.2).map fun others => (first.1 :: others.1, others.2)

/-- The header of seven fields, if they have the right forms. -/
def ofFields? : List Text → Option Header
  | [action, protocol, source, sourcePort, direction, destination, destinationPort] =>
    let h : Header :=
      ⟨action, protocol, source, sourcePort, direction, destination, destinationPort⟩
    if h.isValid then some h else none
  | _ => none

theorem ofFields?_eq_some_iff {fs : List Text} {h : Header} :
    ofFields? fs = some h ↔ fs = h.fields ∧ h.isValid = true := by
  constructor
  · intro hs
    unfold ofFields? at hs
    split at hs
    · simp only [Option.ite_none_right_eq_some, Option.some.injEq] at hs
      obtain ⟨hv, rfl⟩ := hs
      exact ⟨rfl, hv⟩
    · simp at hs
  · rintro ⟨rfl, hv⟩
    simp [ofFields?, fields, hv]

/-- The text of an option block: what stands between the opening parenthesis
and the last character, which closes it. It is not empty, and it may hold any
character but a line feed. -/
def block? (s : Text) : Option Text :=
  (Text.between? '(' ')' s).bind fun block =>
    if block = [] ∨ '\n' ∈ block then none else some block

/-- The header and the option block of a rule without blanks around it. -/
def read? (s : Text) : Option (Header × Text) :=
  (takeFields? 7 s).bind fun r =>
    (ofFields? r.1).bind fun header => (block? r.2).map fun block => (header, block)

end Header

end IdsRules
