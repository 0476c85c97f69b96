import IdsRules.Conversion.Settings
import IdsRules.Rule.Document
import IdsRules.Rule.Parser

/-!
# What becomes of a line

Every line meets one of six ends, and the line and the settings alone decide
which. The order of the questions matters: blank lines and comments are left
out before anything is read, the filter is asked before the document is written,
and a value at fault ends the reading of the line before the filter is asked.
-/

namespace IdsRules

/-- What becomes of a line. -/
inductive Verdict where
  /-- The line is blank or a comment. -/
  | skipped
  | malformed
  | filtered
  | unencodable (error : Json.EncodeError)
  | converted (document : Text)
  /-- The value of an option cannot be read, which stops the conversion. -/
  | stopped (fault : Numeral.Fault)
deriving DecidableEq, Repr

/-- Whether a line without outer blanks is blank or a comment. -/
def isSkippable (s : Text) : Bool :=
  s.isEmpty || s.head? == some '#'

def Settings.encode (settings : Settings) (rule : Rule) : Except Json.EncodeError Text :=
  Json.encode settings.layout rule.toJson

namespace Verdict

def ofRule (settings : Settings) (rule : Rule) : Verdict :=
  if settings.keeps rule then
    match settings.encode rule with
    | .error error => .unencodable error
    | .ok document => .converted document
  else .filtered

/-- What becomes of a line. -/
def ofLine (settings : Settings) (line : Text) : Verdict :=
  if isSkippable (Text.trim line) then .skipped
  else
    match Rule.parse settings.keepSource line with
    | .error .malformed => .malformed
    | .error (.value fault) => .stopped fault
    | .ok rule => ofRule settings rule

/-- Outer blanks do not matter. -/
theorem ofLine_trim (settings : Settings) (line : Text) :
    ofLine settings (Text.trim line) = ofLine settings line := by
  simp [ofLine, Rule.parse_trim]

def isStopped : Verdict → Bool
  | .stopped _ => true
  | _ => false

def document? : Verdict → Option Text
  | .converted document => some document
  | _ => none

def fault? : Verdict → Option Numeral.Fault
  | .stopped fault => some fault
  | _ => none

end Verdict

end IdsRules
