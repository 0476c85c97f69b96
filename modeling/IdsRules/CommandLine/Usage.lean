import IdsRules.CommandLine.Switch

/-!
# Usage and help

The usage shows how the program is called; every error message stands behind
it, with the name of the program. The help shows the usage and explains each
argument.
-/

namespace IdsRules.CommandLine

def programName : String := "main.py"

def block (lines : List String) : Text :=
  lines.flatMap fun line => line.toList ++ ['\n']

def usageText : Text :=
  block [
    "usage: main.py [-h] [-o OUTPUT] [--pretty] [--raw | --no-raw] [--sid SID]",
    "               [--no-progress]",
    "               rules"]

def helpText : Text :=
  usageText ++ block [
    "",
    "Convertisseur de règles Snort/Suricata vers NDJSON",
    "",
    "positional arguments:",
    "  rules                 Fichier de règles à convertir",
    "",
    "options:",
    "  -h, --help            show this help message and exit",
    "  -o OUTPUT, --output OUTPUT",
    "                        Fichier de sortie (défaut : même nom, extension",
    "                        .ndjson)",
    "  --pretty              JSON indenté",
    "  --raw, --no-raw       Inclure la règle d\x27origine (raw_rule)",
    "  --sid SID             Ne garder que la règle portant ce SID",
    "  --no-progress         Désactiver la barre de progression"]

def Misuse.text (m : Misuse) : Text :=
  usageText ++ programName.toList ++ ": error: ".toList ++ m.message ++ ['\n']

end IdsRules.CommandLine
