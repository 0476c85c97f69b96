import IdsRules.Json.Basic
import IdsRules.Rule.Basic

/-!
# Rules as documents

A rule is written as a JSON object: the seven header fields and the options
always, the port lists, the metadata and the source text only if they are
there and say something. Inside port lists and metadata a member at its default
is left out too, so a document has no `null` and, the options apart, no empty
list or object.

`Rule.ofJson?` reads a document back, with a member that is left out at its
default. What it cannot know is whether an empty list of ports or empty metadata
were there, so these come back as absent.
-/

namespace IdsRules

namespace OptionValue

def toJson : OptionValue → Json
  | .flag b => .bool b
  | .integer n => .integer n
  | .float x => .float x
  | .text s => .string s

def ofJson? : Json → Option OptionValue
  | .bool b => some (.flag b)
  | .integer n => some (.integer n)
  | .float x => some (.float x)
  | .string s => some (.text s)
  | _ => none

theorem ofJson?_toJson (v : OptionValue) : ofJson? v.toJson = some v := by
  cases v <;> rfl

end OptionValue

namespace Rule

/-- A member that is left out when its value is an empty list. -/
def listMember (name : String) (items : List Text) : List (Text × Json) :=
  if items.isEmpty then [] else [(name.toList, .array (items.map .string))]

/-- A member that is left out when its value is zero. -/
def integerMember (name : String) (n : Int) : List (Text × Json) :=
  if n = 0 then [] else [(name.toList, .integer n)]

/-- A member that is left out when its value is empty. -/
def textMember (name : String) (s : Text) : List (Text × Json) :=
  if s.isEmpty then [] else [(name.toList, .string s)]

/-- The members of port lists that are not at their defaults. -/
def portMembers (p : Ports) : List (Text × Json) :=
  listMember "source_ports" p.source ++ listMember "destination_ports" p.destination

/-- The members of metadata that are not at their defaults. -/
def metadataMembers (m : Metadata) : List (Text × Json) :=
  listMember "cves" m.cves ++ listMember "references" m.references ++ integerMember "sid" m.sid
    ++ integerMember "revision" m.revision ++ textMember "severity" m.severity

/-- The members of the header, which are always there. -/
def headerMembers (h : Header) : List (Text × Json) :=
  [("action".toList, .string h.action),
    ("protocol".toList, .string h.protocol),
    ("source_ip".toList, .string h.sourceAddress),
    ("source_port".toList, .string h.sourcePort),
    ("direction".toList, .string h.direction),
    ("dest_ip".toList, .string h.destinationAddress),
    ("dest_port".toList, .string h.destinationPort)]

def optionMembers (options : Options) : List (Text × Json) :=
  options.rows.map fun row => (row.1, row.2.toJson)

/-- The member of the port lists, if there are any that are not empty. -/
def portsMember : Option Ports → List (Text × Json)
  | none => []
  | some p => if p.isEmpty then [] else [("parsed_ports".toList, .object (portMembers p))]

/-- The member of the metadata, if there are any that are not empty. -/
def metadataMember : Option Metadata → List (Text × Json)
  | none => []
  | some m => if m.isEmpty then [] else [("metadata".toList, .object (metadataMembers m))]

def sourceMember : Option Text → List (Text × Json)
  | none => []
  | some s => [("raw_rule".toList, .string s)]

def members (r : Rule) : List (Text × Json) :=
  headerMembers r.header ++ [("options".toList, .object (optionMembers r.options))]
    ++ portsMember r.ports ++ metadataMember r.metadata ++ sourceMember r.source

/-- The document of a rule. -/
def toJson (r : Rule) : Json :=
  .object r.members

/-! ## Reading documents back -/

def textAt? (name : String) (j : Json) : Option Text :=
  match j.member? name.toList with
  | some (.string s) => some s
  | _ => none

/-- A member that is a text, empty if it is left out. -/
def textAtOr? (name : String) (j : Json) : Option Text :=
  match j.member? name.toList with
  | none => some []
  | some (.string s) => some s
  | some _ => none

/-- A member that is an integer, zero if it is left out. -/
def integerAtOr? (name : String) (j : Json) : Option Int :=
  match j.member? name.toList with
  | none => some 0
  | some (.integer n) => some n
  | some _ => none

def texts? : List Json → Option (List Text)
  | [] => some []
  | .string s :: items => (texts? items).map (s :: ·)
  | _ :: _ => none

/-- A member that is a list of texts, empty if it is left out. -/
def textsAtOr? (name : String) (j : Json) : Option (List Text) :=
  match j.member? name.toList with
  | none => some []
  | some (.array items) => texts? items
  | some _ => none

def optionRows? : List (Text × Json) → Option (List (Text × OptionValue))
  | [] => some []
  | (key, value) :: members =>
    (OptionValue.ofJson? value).bind fun v => (optionRows? members).map ((key, v) :: ·)

def optionsOf? (j : Json) : Option Options :=
  match j.member? "options".toList with
  | some (.object members) => (optionRows? members).map Table.ofList
  | _ => none

def headerOf? (j : Json) : Option Header := do
  return {
    action := ← textAt? "action" j
    protocol := ← textAt? "protocol" j
    sourceAddress := ← textAt? "source_ip" j
    sourcePort := ← textAt? "source_port" j
    direction := ← textAt? "direction" j
    destinationAddress := ← textAt? "dest_ip" j
    destinationPort := ← textAt? "dest_port" j }

def portsOf? (j : Json) : Option (Option Ports) :=
  match j.member? "parsed_ports".toList with
  | none => some none
  | some p => do
    return some {
      source := ← textsAtOr? "source_ports" p
      destination := ← textsAtOr? "destination_ports" p }

def metadataOf? (j : Json) : Option (Option Metadata) :=
  match j.member? "metadata".toList with
  | none => some none
  | some m => do
    return some {
      cves := ← textsAtOr? "cves" m
      references := ← textsAtOr? "references" m
      sid := ← integerAtOr? "sid" m
      revision := ← integerAtOr? "revision" m
      severity := ← textAtOr? "severity" m }

def sourceOf? (j : Json) : Option (Option Text) :=
  match j.member? "raw_rule".toList with
  | none => some none
  | some (.string s) => some (some s)
  | some _ => none

/-- The rule that a document is of. -/
def ofJson? (j : Json) : Option Rule := do
  return {
    header := ← headerOf? j
    options := ← optionsOf? j
    ports := ← portsOf? j
    metadata := ← metadataOf? j
    source := ← sourceOf? j }

end Rule

end IdsRules
