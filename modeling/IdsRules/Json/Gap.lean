import IdsRules.Text.Basic

/-!
# Blanks between tokens

Spaces and line feeds mean something inside a string token and nothing between
tokens. Whether a character of a document is inside a string depends on what
stands in front of it: a double quote opens a string, the next one closes it
unless a backslash stands right before it, and a backslash takes the character
behind it along whatever that is. `withoutGaps` drops the spaces and line feeds
that are not inside a string and keeps everything else.
-/

namespace IdsRules.Json

/-- Where a character of a document stands. -/
inductive Zone where
  /-- Between tokens or in a token that is no string. -/
  | outside
  | inside
  /-- Behind a backslash inside a string. -/
  | escaped
deriving DecidableEq, Repr

def Zone.after : Zone → Char → Zone
  | .outside, c => if c = '"' then .inside else .outside
  | .inside, c => if c = '"' then .outside else if c = '\\' then .escaped else .inside
  | .escaped, _ => .inside

def Zone.isGap (zone : Zone) (c : Char) : Bool :=
  zone == .outside && (c == ' ' || c == '\n')

/-- The text without gaps, read from a zone. -/
def withoutGapsFrom : Zone → Text → Text
  | _, [] => []
  | zone, c :: s =>
    if zone.isGap c then withoutGapsFrom (zone.after c) s
    else c :: withoutGapsFrom (zone.after c) s

def withoutGaps (s : Text) : Text :=
  withoutGapsFrom .outside s

def Zone.afterAll (zone : Zone) (s : Text) : Zone :=
  s.foldl Zone.after zone

@[simp] theorem withoutGapsFrom_nil (zone : Zone) : withoutGapsFrom zone [] = [] := by
  cases zone <;> rfl

theorem withoutGapsFrom_append (zone : Zone) (s t : Text) :
    withoutGapsFrom zone (s ++ t) =
      withoutGapsFrom zone s ++ withoutGapsFrom (zone.afterAll s) t := by
  induction s generalizing zone with
  | nil => simp [Zone.afterAll]
  | cons c s ih =>
    have hz : zone.afterAll (c :: s) = (zone.after c).afterAll s := rfl
    rw [List.cons_append, withoutGapsFrom, withoutGapsFrom, hz]
    split
    · exact ih _
    · rw [ih, List.cons_append]

end IdsRules.Json
