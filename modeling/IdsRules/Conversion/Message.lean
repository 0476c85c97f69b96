import IdsRules.Conversion.Counters
import IdsRules.Files.Error

/-!
# Messages

A conversion tells what it does: which file it converts, which lines it leaves
out and why, and how many lines there were in the end. `Message.text` is the
wording of each message, with the line feed behind it.
-/

namespace IdsRules

/-- What is told on the console. -/
inductive Message where
  | started (input output : Text)
  | malformedLine (number : Nat)
  | unencodableLine (number : Nat) (layout : Json.Layout) (error : Json.EncodeError)
  | report (counters : Counters) (sidFilter output : Text)
  | inputMissing (path : Text)
  | fileFailed (path : Text) (error : FileError)
deriving DecidableEq, Repr

namespace Message

def rule (c : Char) (width : Nat) : Text :=
  List.replicate width c

/-- The lines of the report. The dropped rules are shown only if there is a
filter. -/
def reportLines (counters : Counters) (sidFilter output : Text) : List Text :=
  let number := Numeral.naturalText
  [[],
    rule '=' 60,
    "RAPPORT DE CONVERSION".toList,
    rule '=' 60,
    "Lignes lues       : ".toList ++ number counters.total,
    "Ignorées          : ".toList ++ number counters.skipped
      ++ " (vides / commentaires)".toList]
  ++ (if sidFilter.isEmpty then []
      else ["Filtrées (SID)    : ".toList ++ number counters.filtered ++ " (--sid ".toList
        ++ sidFilter ++ ")".toList])
  ++ ["Erreurs           : ".toList ++ number counters.errors,
    rule '-' 40,
    "✅ CONVERTIES     : ".toList ++ number counters.converted ++ " règles -> ".toList ++ output,
    rule '=' 60]

def lines : Message → List Text
  | .started input output => ["[*] Conversion ".toList ++ input ++ " -> ".toList ++ output]
  | .malformedLine number =>
    ["[!] Ligne ".toList ++ Numeral.naturalText number ++ " ignorée : ".toList
      ++ ParseError.malformed.message]
  | .unencodableLine number layout error =>
    ["[!] Ligne ".toList ++ Numeral.naturalText number
      ++ " : échec de l\x27encodage JSON (".toList ++ error.message layout ++ ")".toList]
  | .report counters sidFilter output => reportLines counters sidFilter output
  | .inputMissing path => ["[ERREUR] Fichier introuvable : ".toList ++ path]
  | .fileFailed path error => ["[ERREUR] ".toList ++ error.message path]

/-- The text of a message, with a line feed behind each of its lines. -/
def text (m : Message) : Text :=
  m.lines.flatMap fun line => line ++ ['\n']

def transcript (messages : List Message) : Text :=
  messages.flatMap text

def ofVerdict (settings : Settings) (number : Nat) : Verdict → List Message
  | .malformed => [.malformedLine number]
  | .unencodable error => [.unencodableLine number settings.layout error]
  | _ => []

end Message

end IdsRules
