import IdsRules.Rule.OptionBlock

/-!
# Rule metadata

Four options say what a rule is about, and their values are gathered here: the
identifier `sid`, the revision `rev`, the class `classtype` as the severity, and
the `reference`, which names a vulnerability when it starts with `cve,`. An
option that is absent or does not have the kind of value that is asked for
leaves its field at the default. A rule whose fields are all at the default has
no metadata.
-/

namespace IdsRules

/-- What the options of a rule say about the rule. -/
structure Metadata where
  cves : List Text := []
  references : List Text := []
  /-- The identifier; zero if there is none. -/
  sid : Int := 0
  /-- The revision; zero if there is none. -/
  revision : Int := 0
  severity : Text := []
deriving DecidableEq, Repr

namespace Metadata

def isEmpty (m : Metadata) : Bool :=
  m.sid == 0 && m.revision == 0 && m.cves.isEmpty && m.references.isEmpty && m.severity.isEmpty

theorem isEmpty_iff (m : Metadata) : m.isEmpty = true ↔ m = {} := by
  cases m
  simp only [isEmpty, Bool.and_eq_true, beq_iff_eq, List.isEmpty_iff, Metadata.mk.injEq]
  grind

/-- The integer of an option, zero if the option is absent. -/
def integerOf (options : Options) (key : Text) : Except Numeral.Fault Int :=
  match options.get? key with
  | none => .ok 0
  | some v => v.toInteger

/-- The text of an option, if it is there and holds a text. -/
def textOf? (options : Options) (key : Text) : Option Text :=
  (options.get? key).bind OptionValue.text?

/-- The vulnerability that a reference names. -/
def cveOf? (reference : Text) : Option Text :=
  Text.after? "cve,".toList reference

/-- The fields of the metadata, at their defaults or not. -/
def gather (options : Options) : Except Numeral.Fault Metadata :=
  match integerOf options "sid".toList with
  | .error fault => .error fault
  | .ok sid =>
    match integerOf options "rev".toList with
    | .error fault => .error fault
    | .ok revision =>
      let reference := textOf? options "reference".toList
      .ok {
        cves := (reference.bind cveOf?).toList
        references := reference.toList
        sid
        revision
        severity := (textOf? options "classtype".toList).getD [] }

/-- The metadata of a rule with these options, if any field is not at its
default. -/
def read? (options : Options) : Except Numeral.Fault (Option Metadata) :=
  (gather options).map fun m => if m.isEmpty then none else some m

end Metadata

end IdsRules
