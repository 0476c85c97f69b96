import IdsRules.CommandLine.Request

/-!
# The grammar of the command line

The arguments of a command are flags, which are one argument or two, and the
rule file. The rule file may have a terminator in front of it or behind it, and
is the last argument but for that then. Which arguments these are is said here
without reading them word by word, and so is what the flags ask for: of several
flags that set the same thing, the last one counts.

A long spelling may be shortened as long as no other spelling begins in the same
way. An argument that begins with a dash is an operand only if it is a negative
number or has a space in it, and even then not if it begins like a switch.
-/

namespace IdsRules.CommandLine

/-- A spelling of a switch, and the shortest beginning of it that will do. -/
structure Switch.Way where
  switch : Switch
  shortest : Text
  full : Text

def Switch.ways : List Switch.Way :=
  [⟨.help, "-h".toList, "-h".toList⟩,
    ⟨.help, "--h".toList, "--help".toList⟩,
    ⟨.output, "-o".toList, "-o".toList⟩,
    ⟨.output, "--o".toList, "--output".toList⟩,
    ⟨.pretty, "--p".toList, "--pretty".toList⟩,
    ⟨.raw, "--r".toList, "--raw".toList⟩,
    ⟨.noRaw, "--no-r".toList, "--no-raw".toList⟩,
    ⟨.sid, "--s".toList, "--sid".toList⟩,
    ⟨.noProgress, "--no-p".toList, "--no-progress".toList⟩]

/-- The texts that write a switch, apart from the argument that it may carry. -/
def Switch.Writes (switch : Switch) (s : Text) : Prop :=
  ∃ way ∈ Switch.ways, way.switch = switch ∧ way.shortest <+: s ∧ s <+: way.full

instance (switch : Switch) : DecidablePred switch.Writes :=
  fun _ => inferInstanceAs (Decidable (∃ way ∈ Switch.ways, _))

/-! ## Operands -/

/-- Digits behind a minus sign, with one point at most, and digits behind that. A
line feed may follow. -/
def IsNegativeNumber (v : Text) : Prop :=
  ∃ whole fraction feed : Text, v = '-' :: (whole ++ fraction ++ feed) ∧
    (∀ c ∈ whole, Text.isDecimalDigit c = true) ∧
    (whole ≠ [] ∧ fraction = [] ∨
      ∃ c digits, fraction = '.' :: c :: digits ∧ ∀ d ∈ c :: digits, Text.isDecimalDigit d = true) ∧
    feed ∈ [[], ['\n']]

def longSpellings : List Text :=
  ["--help".toList, "--output".toList, "--pretty".toList, "--raw".toList, "--no-raw".toList,
    "--sid".toList, "--no-progress".toList]

/-- A text that begins with a switch of one letter, or that is the beginning of a long
spelling, whether or not an argument is attached to that. -/
def BeginsLikeSwitch (v : Text) : Prop :=
  "-h".toList <+: v ∨ "-o".toList <+: v ∨
    ∃ b spelling, "--".toList <+: b ∧ spelling ∈ longSpellings ∧ b <+: spelling ∧
      (v = b ∨ ∃ a, v = b ++ '=' :: a)

def IsOperand (v : Text) : Prop :=
  v.head? ≠ some '-' ∨ v = ['-'] ∨ (IsNegativeNumber v ∨ ' ' ∈ v) ∧ ¬BeginsLikeSwitch v

/-! ## Flags and commands -/

/-- The arguments that make up a flag, and its effect. A terminator that is attached
to a switch stands for the empty text. -/
inductive IsFlag : List Text → Effect → Prop
  | plain {switch : Switch} {s : Text}
      (hswitch : switch ∈ [Switch.pretty, .raw, .noRaw, .noProgress]) (hs : switch.Writes s) :
      IsFlag [s] ⟨switch, []⟩
  | valued {switch : Switch} {s v : Text} (hswitch : switch ∈ [Switch.output, .sid])
      (hs : switch.Writes s) (hv : IsOperand v) : IsFlag [s, v] ⟨switch, v⟩
  | attached {switch : Switch} {s : Text} (v : Text) (hswitch : switch ∈ [Switch.output, .sid])
      (hs : switch.Writes s) :
      IsFlag [s ++ '=' :: v] ⟨switch, if v = "--".toList then [] else v⟩
  | behind {v : Text} (hne : v ≠ []) (hequals : v.head? ≠ some '=') :
      IsFlag ["-o".toList ++ v] ⟨.output, if v = "--".toList then [] else v⟩

inductive AreFlags : List Text → List Effect → Prop
  | nil : AreFlags [] []
  | cons {group rest : List Text} {effect : Effect} {effects : List Effect}
      (hflag : IsFlag group effect) (hrest : AreFlags rest effects) :
      AreFlags (group ++ rest) (effect :: effects)

/-- Arguments that name a rule file, with the effects of the flags around it. -/
inductive IsCommand : List Text → Text → List Effect → Prop
  | flag {group rest : List Text} {rules : Text} {effect : Effect} {effects : List Effect}
      (hflag : IsFlag group effect) (hrest : IsCommand rest rules effects) :
      IsCommand (group ++ rest) rules (effect :: effects)
  | rules {rules : Text} {rest : List Text} {effects : List Effect} (hrules : IsOperand rules)
      (hrest : AreFlags rest effects) : IsCommand (rules :: rest) rules effects
  | terminated {rules : Text} (hrules : IsOperand rules) :
      IsCommand [rules, "--".toList] rules []
  | separated (rules : Text) : IsCommand ["--".toList, rules] rules []

/-! ## What flags ask for -/

/-- The argument of the last flag of a switch, or the empty text. -/
def lastArgument (switch : Switch) (effects : List Effect) : Text :=
  ((effects.filter fun effect => effect.switch = switch).getLast?.map Effect.argument).getD []

/-- The request for a rule file and flags. -/
def Request.ofFlags (rules : Text) (effects : List Effect) : Request where
  rules
  output := lastArgument .output effects
  settings :=
    { layout := if .pretty ∈ effects.map Effect.switch then .indented else .compact
      keepSource := ((effects.map Effect.switch).filter fun switch =>
        switch = .raw ∨ switch = .noRaw).getLast? ≠ some .noRaw
      sidFilter := lastArgument .sid effects }

end IdsRules.CommandLine
