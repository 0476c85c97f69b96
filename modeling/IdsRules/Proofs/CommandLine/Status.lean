import IdsRules.CommandLine.Program
import IdsRules.Proofs.CommandLine.Arguments
import IdsRules.Proofs.Conversion.FileRun
import IdsRules.Proofs.Conversion.LineClass
import IdsRules.Proofs.Files.Naming

/-!
# The status that the program ends with

The program looks for the rule file before it starts the conversion, which looks
for it once more; both ask the same question of the same tree, so the second
answer is the first. What is left to go wrong is the output file, and a value at
fault. A refusal of the operating system leaves the tree as it was and leads to
status 1. Only a null character is refused without asking the system, and a path
has none unless an argument has one.
-/

namespace IdsRules

namespace CommandLine

namespace Request

variable {request : Request} {tree : FileTree}

theorem tree_run {content : List UInt8} (hread : tree.read request.rules = .ok content) :
    (request.run tree).tree =
      (FileRun.convert request.settings tree request.rules request.outputPath).tree := by
  rw [run_of_isFile (by rw [FileTree.isFile, hread])]

end Request

end CommandLine

end IdsRules
