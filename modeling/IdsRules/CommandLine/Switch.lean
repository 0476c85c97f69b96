import IdsRules.Text.Quoted

/-!
# Switches of the command line

A switch is an option of the program, with one or more spellings. Two switches
take an argument; the others take none. The raw switch has a spelling for each
of its two values, so a use of it is told apart by its spelling and it counts as
two switches that share a label.
-/

namespace IdsRules.CommandLine

inductive Switch where
  | help
  | output
  | pretty
  | raw
  | noRaw
  | sid
  | noProgress
deriving DecidableEq, Repr

namespace Switch

/-- The spellings of the switches, in the order in which candidates for an
abbreviation are listed. -/
def spellings : List (Text × Switch) :=
  [("-h".toList, .help),
    ("--help".toList, .help),
    ("-o".toList, .output),
    ("--output".toList, .output),
    ("--pretty".toList, .pretty),
    ("--raw".toList, .raw),
    ("--no-raw".toList, .noRaw),
    ("--sid".toList, .sid),
    ("--no-progress".toList, .noProgress)]

def ofSpelling? (s : Text) : Option Switch :=
  (spellings.find? fun entry => entry.1 == s).map Prod.snd

def takesArgument : Switch → Bool
  | .output => true
  | .sid => true
  | _ => false

/-- How a switch is called in error messages. -/
def label : Switch → Text
  | .help => "-h/--help".toList
  | .output => "-o/--output".toList
  | .pretty => "--pretty".toList
  | .raw => "--raw/--no-raw".toList
  | .noRaw => "--raw/--no-raw".toList
  | .sid => "--sid".toList
  | .noProgress => "--no-progress".toList

end Switch

inductive Misuse where
  | ambiguous (written : Text) (candidates : List Text)
  | argumentMissing (switch : Switch)
  | argumentIgnored (switch : Switch) (argument : Text)
  | rulesMissing
  | unrecognized (arguments : List Text)
deriving DecidableEq, Repr

def listed (separator : Text) (items : List Text) : Text :=
  separator.intercalate items

def Misuse.message : Misuse → Text
  | .ambiguous written candidates =>
    "ambiguous option: ".toList ++ written ++ " could match ".toList
      ++ listed ", ".toList candidates
  | .argumentMissing switch => "argument ".toList ++ switch.label ++ ": expected one argument".toList
  | .argumentIgnored switch argument =>
    "argument ".toList ++ switch.label ++ ": ignored explicit argument ".toList
      ++ Text.quoted argument
  | .rulesMissing => "the following arguments are required: rules".toList
  | .unrecognized arguments => "unrecognized arguments: ".toList ++ listed [' '] arguments

end IdsRules.CommandLine
