import IdsRules.Text.Basic

/-!
# Blank characters and trimming

`isBlank` is the set of white-space characters that are dropped at both ends
of lines, of option fragments, of keys, values and port tokens. It is wider
than the separators of a rule header: it has the information separators, the
vertical tab, the next-line character and the Unicode spaces, and it has
neither the zero-width space nor the byte order mark.

`trim` drops blanks at both ends. What the later modules use of it is that a
trimmed text is a fixed point (`trim_trim`), that trimming sees no blanks put
around a text (`trim_append_blanks`), and that a text whose two ends are not
blank is left alone (`trim_eq_self`).
-/

namespace IdsRules.Text

/-- White space in the sense of the Unicode space separators, the line and
paragraph separators, and the control characters that count as space. -/
def isBlank (c : Char) : Bool :=
  let n := c.toNat
  (0x09 ≤ n && n ≤ 0x0D) || (0x1C ≤ n && n ≤ 0x20) || n == 0x85 || n == 0xA0
    || n == 0x1680 || (0x2000 ≤ n && n ≤ 0x200A) || n == 0x2028 || n == 0x2029
    || n == 0x202F || n == 0x205F || n == 0x3000

/-- The text from its first character that is not blank. -/
def trimStart (s : Text) : Text :=
  s.dropWhile isBlank

/-- The text up to its last character that is not blank. -/
def trimEnd (s : Text) : Text :=
  (s.reverse.dropWhile isBlank).reverse

def trim (s : Text) : Text :=
  trimEnd (trimStart s)

@[simp] theorem trim_nil : trim [] = [] := rfl

theorem trimStart_append_of_blank {u : Text} (hu : ∀ c ∈ u, isBlank c = true) (s : Text) :
    trimStart (u ++ s) = trimStart s := by
  induction u with
  | nil => rfl
  | cons c u ih =>
    have hc : isBlank c = true := hu c (by simp)
    have ih := ih fun d hd => hu d (by simp [hd])
    simpa [trimStart, List.dropWhile_cons, hc] using ih

theorem trimEnd_append_of_blank {v : Text} (hv : ∀ c ∈ v, isBlank c = true) (s : Text) :
    trimEnd (s ++ v) = trimEnd s := by
  have h := trimStart_append_of_blank (u := v.reverse) (by simpa using hv) s.reverse
  simpa [trimEnd, trimStart] using h

/-- A text either is all blank or has a first character that is not, and
dropping the blanks in front of that is what `trimStart` does. -/
theorem exists_eq_append_trimStart (s : Text) :
    ∃ u : Text, (∀ c ∈ u, isBlank c = true) ∧ s = u ++ trimStart s :=
  ⟨s.takeWhile isBlank, fun c hc => by
    induction s with
    | nil => simp at hc
    | cons d s ih =>
      by_cases hd : isBlank d = true
      · simp only [List.takeWhile_cons, hd, if_true, List.mem_cons] at hc
        rcases hc with rfl | hc
        · exact hd
        · exact ih hc
      · simp [hd] at hc, by
    simp [trimStart, List.takeWhile_append_dropWhile]⟩

theorem exists_eq_trimEnd_append (s : Text) :
    ∃ v : Text, (∀ c ∈ v, isBlank c = true) ∧ s = trimEnd s ++ v := by
  obtain ⟨u, hu, h⟩ := exists_eq_append_trimStart s.reverse
  refine ⟨u.reverse, by simpa using hu, ?_⟩
  have := congrArg List.reverse h
  simpa [trimEnd, trimStart] using this

/-- A text is its trimmed core between two runs of blanks. -/
theorem exists_eq_append_trim_append (s : Text) :
    ∃ u v : Text, (∀ c ∈ u, isBlank c = true) ∧ (∀ c ∈ v, isBlank c = true) ∧
      s = u ++ trim s ++ v := by
  obtain ⟨u, hu, h⟩ := exists_eq_append_trimStart s
  obtain ⟨v, hv, h'⟩ := exists_eq_trimEnd_append (trimStart s)
  exact ⟨u, v, hu, hv, by rw [List.append_assoc, trim, ← h', ← h]⟩

theorem mem_of_mem_trim {s : Text} {c : Char} (h : c ∈ trim s) : c ∈ s := by
  obtain ⟨u, v, -, -, hs⟩ := exists_eq_append_trim_append s
  rw [hs]
  exact List.mem_append_left _ (List.mem_append_right _ h)

theorem trimStart_eq_self {s : Text} (h : ∀ c, s.head? = some c → isBlank c = false) :
    trimStart s = s := by
  cases s with
  | nil => rfl
  | cons c s => simp [trimStart, h c rfl]

theorem trimEnd_eq_self {s : Text} (h : ∀ c, s.getLast? = some c → isBlank c = false) :
    trimEnd s = s := by
  have := trimStart_eq_self (s := s.reverse) (by simpa using h)
  simpa [trimEnd, trimStart] using congrArg List.reverse this

/-- A text that neither starts nor ends with a blank is its own trimming. -/
theorem trim_eq_self {s : Text} (h₁ : ∀ c, s.head? = some c → isBlank c = false)
    (h₂ : ∀ c, s.getLast? = some c → isBlank c = false) : trim s = s := by
  rw [trim, trimStart_eq_self h₁, trimEnd_eq_self h₂]

theorem isBlank_head?_trimStart {s : Text} {c : Char} (h : (trimStart s).head? = some c) :
    isBlank c = false := by
  have hd := List.head?_dropWhile_not isBlank s
  rw [show List.dropWhile isBlank s = trimStart s from rfl, h] at hd
  exact hd

theorem isBlank_getLast?_trimEnd {s : Text} {c : Char} (h : (trimEnd s).getLast? = some c) :
    isBlank c = false := by
  refine isBlank_head?_trimStart (s := s.reverse) ?_
  simpa [trimEnd, trimStart] using h

theorem isBlank_head?_trim {s : Text} {c : Char} (h : (trim s).head? = some c) :
    isBlank c = false := by
  obtain ⟨v, -, hv⟩ := exists_eq_trimEnd_append (trimStart s)
  refine isBlank_head?_trimStart (s := s) (c := c) ?_
  rw [hv]
  have h' : (trimEnd (trimStart s)).head? = some c := h
  cases ht : trimEnd (trimStart s) with
  | nil => simp [ht] at h'
  | cons d t => simpa [ht] using h'

/-- Blanks around a text are invisible to trimming. -/
theorem trim_append_blanks {u v : Text} (hu : ∀ c ∈ u, isBlank c = true)
    (hv : ∀ c ∈ v, isBlank c = true) (s : Text) : trim (u ++ s ++ v) = trim s := by
  rw [trim, trim, List.append_assoc, trimStart_append_of_blank hu]
  by_cases hs : trimStart s = []
  · obtain ⟨w, hw, h⟩ := exists_eq_append_trimStart s
    rw [hs, List.append_nil] at h
    have hsv : ∀ c ∈ s ++ v, isBlank c = true := by
      intro c hc
      rcases List.mem_append.1 hc with hc | hc
      · exact hw c (h ▸ hc)
      · exact hv c hc
    have h0 := trimStart_append_of_blank hsv []
    rw [List.append_nil] at h0
    rw [h0, hs, trimStart, List.dropWhile_nil]
  · have hmove : trimStart (s ++ v) = trimStart s ++ v := by
      obtain ⟨w, hw, h⟩ := exists_eq_append_trimStart s
      have hhead : ∀ c, (trimStart s ++ v).head? = some c → isBlank c = false := by
        intro c hc
        cases ht : trimStart s with
        | nil => exact absurd ht hs
        | cons d t =>
          refine isBlank_head?_trimStart (s := s) ?_
          simpa [ht] using hc
      calc trimStart (s ++ v) = trimStart (w ++ (trimStart s ++ v)) := by
            rw [← List.append_assoc, ← h]
        _ = trimStart (trimStart s ++ v) := trimStart_append_of_blank hw _
        _ = trimStart s ++ v := trimStart_eq_self hhead
    rw [hmove, trimEnd_append_of_blank hv]

/-- Trimming twice is trimming once. -/
@[simp] theorem trim_trim (s : Text) : trim (trim s) = trim s :=
  trim_eq_self (fun _ h => isBlank_head?_trim h) (fun _ h => isBlank_getLast?_trimEnd h)

end IdsRules.Text
