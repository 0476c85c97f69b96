import IdsRules.CommandLine.Grammar
import IdsRules.Conversion.Framing
import IdsRules.Conversion.Session
import IdsRules.Json.Gap
import IdsRules.Json.Reader
import IdsRules.Main
import IdsRules.Rule.Printer
import IdsRules.Proofs.Rule.Decomposition
import IdsRules.Proofs.Table
import IdsRules.Proofs.Rule.Metadata
import IdsRules.Proofs.Rule.Fragments
import IdsRules.Proofs.Rule.WrittenItem
import IdsRules.Proofs.Rule.RoundTrip
import IdsRules.Proofs.Files.Tree
import IdsRules.Proofs.Conversion.FileRun
import IdsRules.Proofs.Conversion.Tally
import IdsRules.Proofs.Conversion.Ledger
import IdsRules.Proofs.Numeral.Decimal
import IdsRules.Proofs.Numeral.Shortest
import IdsRules.Proofs.Numeral.Digits
import IdsRules.Proofs.Numeral.Layout
import IdsRules.Proofs.Json.Number
import IdsRules.Proofs.Json.Token
import IdsRules.Proofs.Json.RoundTrip
import IdsRules.Proofs.Json.Gap
import IdsRules.Proofs.Rule.Document
import IdsRules.Proofs.Rule.Layouts
import IdsRules.Proofs.Numeral.Fault
import IdsRules.Proofs.Numeral.Grammar
import IdsRules.Proofs.Numeral.Integer
import IdsRules.Proofs.Numeral.Nearest
import IdsRules.Proofs.Rule.Fault
import IdsRules.Proofs.Rule.Parsed
import IdsRules.Proofs.Conversion.Stop
import IdsRules.Proofs.Conversion.Verdict
import IdsRules.Proofs.Conversion.LineClass
import IdsRules.Proofs.Json.Indent
import IdsRules.Proofs.Text.Utf8
import IdsRules.Proofs.Conversion.Framing
import IdsRules.Proofs.Conversion.Pulls
import IdsRules.Proofs.Conversion.Interleaving
import IdsRules.Proofs.Conversion.FreshStart
import IdsRules.Proofs.Conversion.Classification
import IdsRules.Proofs.Conversion.Reconversion
import IdsRules.Proofs.Conversion.SidFilter
import IdsRules.Proofs.Conversion.OutputSettings
import IdsRules.Proofs.CommandLine.Arguments
import IdsRules.Proofs.CommandLine.Words
import IdsRules.Proofs.CommandLine.Status
import IdsRules.Proofs.CommandLine.DefaultOutput
import IdsRules.Proofs.Files.Naming
import IdsRules.Proofs.Conversion.Damage
import IdsRules.Proofs.Text.Utf8Boundary
import IdsRules.Proofs.Text.Lines
import IdsRules.Proofs.Conversion.Rows
import IdsRules.Proofs.Rule.Cuts
import IdsRules.Proofs.Rule.Assignments
import IdsRules.Proofs.Text.LineEnds
import IdsRules.Proofs.Conversion.LineEnds
import IdsRules.Proofs.Rule.Composition
import IdsRules.Proofs.Rule.Reordering
import IdsRules.Proofs.Rule.Typing
import IdsRules.Proofs.Rule.Derivation
import IdsRules.Proofs.Text.Tight
import IdsRules.Proofs.Json.Occurrence
import IdsRules.Proofs.Rule.Presence
import IdsRules.Proofs.Rule.Ports
import IdsRules.Proofs.Rule.Reparsing
import IdsRules.Proofs.Conversion.Concatenation
