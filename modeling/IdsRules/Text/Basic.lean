/-!
# Text

All text of the library is a list of Unicode scalar values. Rules are read
character by character and every law about them is an induction over their
characters, so the list is the working form; strings appear only where a
program meets its terminal. Two small operations are kept here because
several formats need them: dropping one final line feed, and taking a text
out of a pair of enclosing characters.
-/

namespace IdsRules

/-- A text is the list of its characters. -/
abbrev Text := List Char

namespace Text

/-- The text without its last character when that is a line feed. Only one is
dropped: a numeral may be followed by one line feed and no more. -/
def chomp (s : Text) : Text :=
  if s.getLast? = some '\n' then s.dropLast else s

@[simp] theorem chomp_nil : chomp [] = [] := rfl

theorem chomp_append_lineFeed (s : Text) : chomp (s ++ ['\n']) = s := by
  simp [chomp]

theorem chomp_eq_self {s : Text} (h : '\n' ∉ s) : chomp s = s :=
  if_neg fun hl => h (List.mem_of_getLast? hl)

/-- A text is its part without the ending, and a line feed or nothing. -/
theorem exists_eq_chomp_append (s : Text) : ∃ ending ∈ [[], ['\n']], s = chomp s ++ ending := by
  rw [chomp]
  split
  next hlast =>
    obtain ⟨front, rfl⟩ := List.getLast?_eq_some_iff.1 hlast
    exact ⟨['\n'], by simp, by simp⟩
  next => exact ⟨[], by simp, by simp⟩

theorem chomp_append {s ending : Text} (hs : '\n' ∉ s) (hending : ending ∈ [[], ['\n']]) :
    chomp (s ++ ending) = s := by
  simp only [List.mem_cons, List.not_mem_nil, or_false] at hending
  rcases hending with rfl | rfl
  · rw [List.append_nil, chomp_eq_self hs]
  · exact chomp_append_lineFeed s

/-- The text between an opening and a closing character, when the text starts
with the one and ends with the other. The two are different places in the text,
so a single character never stands between itself. -/
def between? (opening closing : Char) : Text → Option Text
  | [] => none
  | c :: s => if c = opening ∧ s.getLast? = some closing then some s.dropLast else none

theorem between?_eq_some_iff {opening closing : Char} {s t : Text} :
    between? opening closing s = some t ↔ s = opening :: (t ++ [closing]) := by
  cases s with
  | nil => simp [between?]
  | cons c s =>
    simp only [between?, Option.ite_none_right_eq_some, Option.some.injEq, List.cons.injEq]
    constructor
    · rintro ⟨⟨rfl, h⟩, rfl⟩
      obtain ⟨t, rfl⟩ := List.getLast?_eq_some_iff.1 h
      simp
    · rintro ⟨rfl, rfl⟩
      simp

/-- The text after a given beginning, if it has that beginning. -/
def after? : (beginning : Text) → Text → Option Text
  | [], s => some s
  | _ :: _, [] => none
  | b :: bs, c :: s => if b = c then after? bs s else none

theorem after?_eq_some_iff {b s r : Text} : after? b s = some r ↔ s = b ++ r := by
  induction b generalizing s with
  | nil => simp [after?, eq_comm]
  | cons c b ih =>
    cases s with
    | nil => simp [after?]
    | cons d s =>
      by_cases h : c = d
      · simp [after?, h, ih]
      · simp [after?, h, Ne.symm h]

end Text

end IdsRules
