import IdsRules.Rule.Header
import IdsRules.Rule.Metadata
import IdsRules.Rule.Ports

/-!
# Rules

A rule is its header, its options, and what is derived from them: the port
lists and the metadata. It can also keep the text that it was read from.
-/

namespace IdsRules

structure Rule where
  header : Header
  /-- The options, in the order in which their keys are first set. -/
  options : Options := .empty
  ports : Option Ports := none
  metadata : Option Metadata := none
  source : Option Text := none
deriving DecidableEq

namespace Rule

/-- Equality of options: they have the same keys, in whatever order, and the values of a
key agree. -/
def optionsAgree (options options' : Options) : Bool :=
  options.rows.length == options'.rows.length
    && options.rows.all fun row => (options'.get? row.1).any row.2.agrees

/-- Equality of rules, where the values of options are compared as numbers and the order of
the options does not matter: a rule with a `nan` among its options does not equal itself. -/
def agrees (r t : Rule) : Bool :=
  r.header == t.header && optionsAgree r.options t.options && r.ports == t.ports
    && r.metadata == t.metadata && r.source == t.source

end Rule

end IdsRules
