import IdsRules.Conversion.Batch
import IdsRules.Text.Split

/-!
# Taking an output file apart

An output file is its documents with a line feed behind each, and it can be cut
back into them. In the compact layout every line is a document. In the indented
layout a document ends with the first line that is a closing brace and nothing
else: all other lines of a document but its first are indented.
-/

namespace IdsRules

namespace Framing

/-- The lines of a text of which each ends with a line feed. -/
def fileLines (s : Text) : List Text :=
  (Text.splitOn '\n' s).dropLast

/-- Lines put in groups, where a line that `isLast` ends a group. -/
def groups (isLast : Text → Bool) : List Text → List (List Text)
  | [] => []
  | line :: rest =>
    if isLast line then [line] :: groups isLast rest
    else
      match groups isLast rest with
      | [] => [[line]]
      | group :: others => (line :: group) :: others

/-- The line that ends a document in the indented layout. -/
def closingLine : Text := ['\x7D']

def documents (layout : Json.Layout) (s : Text) : List Text :=
  match layout with
  | .compact => fileLines s
  | .indented =>
    (groups (fun line => line == closingLine) (fileLines s)).map (Text.join '\n')

/-- A group ends with the first line that can end it. -/
theorem groups_append {isLast : Text → Bool} {group : List Text} {last : Text}
    (hg : ∀ line ∈ group, isLast line = false) (hl : isLast last = true) (rest : List Text) :
    groups isLast (group ++ last :: rest) = (group ++ [last]) :: groups isLast rest := by
  induction group with
  | nil => simp [groups, hl]
  | cons line group ih =>
    rw [List.cons_append, groups, if_neg (by simp [hg line (by simp)]),
      ih fun l h => hg l (by simp [h])]
    rfl

end Framing

end IdsRules
