import IdsRules.Text.Basic

/-!
# Lines

A line ends at a line feed, at a carriage return, or at a carriage return and
the line feed right after it; nothing else ends a line. `lines` gives the
lines without their ends. A text that does not end with a line end has a last
line of its own, and a text that does has none: the empty text has no line.
-/

namespace IdsRules.Text

/-- The two characters that end a line. -/
def isLineEnd (c : Char) : Bool :=
  c == '\n' || c == '\r'

/-- Put one character in front of the first line, starting a line if there is
none yet. -/
def consLine (c : Char) : List Text → List Text
  | [] => [[c]]
  | l :: ls => (c :: l) :: ls

/-- The lines after a carriage return: a line feed right behind it belongs to
the same line end, so the empty line that it would give is dropped. -/
def afterReturn (s : Text) (ls : List Text) : List Text :=
  if s.head? = some '\n' then ls else [] :: ls

def lines : Text → List Text
  | [] => []
  | c :: s =>
    if c = '\n' then [] :: lines s
    else if c = '\r' then afterReturn s (lines s)
    else consLine c (lines s)

@[simp] theorem lines_nil : lines [] = [] := rfl

theorem lines_lineFeed (s : Text) : lines ('\n' :: s) = [] :: lines s := rfl

theorem lines_return_lineFeed (s : Text) : lines ('\r' :: '\n' :: s) = [] :: lines s := rfl

theorem lines_return {s : Text} (h : s.head? ≠ some '\n') :
    lines ('\r' :: s) = [] :: lines s := by
  simp [lines, afterReturn, h]

theorem lines_cons {c : Char} (h : isLineEnd c = false) (s : Text) :
    lines (c :: s) = consLine c (lines s) := by
  have h' : c ≠ '\n' ∧ c ≠ '\r' := by simpa [isLineEnd] using h
  simp [lines, h'.1, h'.2]

/-- A text without line ends is one line, unless it is empty. -/
theorem lines_eq_singleton {l : Text} (hne : l ≠ []) (h : ∀ c ∈ l, isLineEnd c = false) :
    lines l = [l] := by
  induction l with
  | nil => exact absurd rfl hne
  | cons c l ih =>
    rw [lines_cons (h c (by simp))]
    by_cases hl : l = []
    · subst hl; rfl
    · rw [ih hl fun d hd => h d (by simp [hd])]
      rfl

end IdsRules.Text
