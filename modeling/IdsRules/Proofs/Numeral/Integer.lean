import IdsRules.Proofs.Numeral.Grammar

/-!
# The 64-bit integer of a text

A text that is read as an integer is signed digits, with one line feed behind them or
none. The reader looks at the number of significant digits before it looks at the
value, and it counts the line feed with them. A 64-bit integer has few enough of them
to pass; it is lost only if it has nineteen and a line feed behind them. More digits
than a conversion accepts are at fault only where most of them are zeros in front, as
the others have been found to be no 64-bit integer by then.
-/

namespace IdsRules.Numeral

/-- The text is a sign or none, one or more digits, and a line feed or nothing. -/
structure IsIntegerLine (s sign digits ending : Text) : Prop where
  text_eq : s = sign ++ digits ++ ending
  sign_mem : sign ∈ signs
  digits_ne_nil : digits ≠ []
  isDigit : ∀ c ∈ digits, c.isDigit = true
  ending_mem : ending ∈ [[], ['\n']]

variable {s sign digits ending : Text}

namespace IsIntegerLine

theorem not_mem_lineFeed (h : IsIntegerLine s sign digits ending) : '\n' ∉ sign ++ digits := by
  have hsign : ∀ sign ∈ signs, '\n' ∉ sign := by decide
  rw [List.mem_append, not_or]
  exact ⟨hsign sign h.sign_mem, fun hc => absurd (h.isDigit _ hc) (by decide)⟩

theorem chomp_eq (h : IsIntegerLine s sign digits ending) : Text.chomp s = sign ++ digits := by
  rw [h.text_eq, Text.chomp_append h.not_mem_lineFeed h.ending_mem]

theorem parse?_chomp (h : IsIntegerLine s sign digits ending) :
    IntegerNumeral.parse? (Text.chomp s) = some ⟨sign = ['-'], digits⟩ := by
  rw [h.chomp_eq]
  exact IntegerNumeral.parse?_sign_append h.sign_mem h.digits_ne_nil h.isDigit

/-- What the reader does with signed digits. -/
theorem readInt64_eq (h : IsIntegerLine s sign digits ending) :
    readInt64 s = IntegerNumeral.int64 ⟨sign = ['-'], digits⟩ ending.length := by
  have hlength : s.length - (Text.chomp s).length = ending.length := by
    rw [h.chomp_eq, h.text_eq, List.length_append, Nat.add_sub_cancel_left]
  rw [readInt64, h.parse?_chomp, hlength]

end IsIntegerLine

/-- The steps in which signed digits are read, each of which looks at the digits that
the one before it let pass. -/
theorem IntegerNumeral.int64_eq (m : IntegerNumeral) (extra : Nat) :
    m.int64 extra =
      if int64Digits < m.significant.length + extra then .ok none
      else if digitLimit < m.digits.length then .error (.tooManyDigits m.digits.length)
      else if -2 ^ 63 ≤ m.value ∧ m.value ≤ 2 ^ 63 - 1 then .ok (some m.value)
      else .ok none := by
  simp only [int64, evaluate, ← isInt64_iff]
  by_cases hlong : int64Digits < m.significant.length + extra
  · rw [if_pos hlong, if_pos hlong]
  · rw [if_neg hlong, if_neg hlong]
    by_cases hlimit : digitLimit < m.digits.length
    · rw [if_pos hlimit, if_pos hlimit]
    · rw [if_neg hlimit, if_neg hlimit]
      by_cases hfits : isInt64 m.value = true
      · simp only [if_pos hfits]
      · simp only [if_neg hfits]

/-- What is no signed digits is no integer. -/
theorem readInt64_of_not_isIntegerLine
    (h : ∀ sign digits ending, ¬IsIntegerLine s sign digits ending) : readInt64 s = .ok none := by
  rw [readInt64]
  cases hparse : IntegerNumeral.parse? (Text.chomp s) with
  | none => rfl
  | some m =>
      obtain ⟨sign, hsign, digits, hchomp, hne, hall, -⟩ :=
        exists_parse?_iff_isIntegerText.1 ⟨m, hparse, rfl⟩
      obtain ⟨ending, hending, hs⟩ := Text.exists_eq_chomp_append s
      rw [hchomp] at hs
      exact absurd ⟨hs, hsign, hne, hall, hending⟩ (h sign digits ending)

/-- Digits of which no more than a conversion accepts are read without fault. -/
theorem exists_readInt64_of_countP_le (hs : '\n' ∉ s) (hcount : s.countP Char.isDigit ≤ 4300) :
    ∃ r, readInt64 s = .ok r := by
  cases hread : readInt64 s with
  | ok r => exact ⟨r, rfl⟩
  | error fault =>
      obtain ⟨sign, -, digits, rfl, hall, hlong, -⟩ := (readInt64_eq_error_iff hs).1 ⟨fault, hread⟩
      rw [List.countP_append, List.countP_eq_length.2 hall] at hcount
      omega

/-- A text that is not signed digits, with a line feed behind them or none, is no
integer. Signed digits are none either if they have more than nineteen significant
ones, where the line feed counts as one; otherwise they are at fault if they are too
many, and are the integer that they denote if that has 64 bits. Without a line feed
and with no more digits than a conversion accepts, the integers that are read are
those of 64 bits and no others; and more than nineteen significant digits are never
at fault. -/
theorem readInt64_signedDigits (s : Text) :
    ((∀ sign digits ending, ¬IsIntegerLine s sign digits ending) → readInt64 s = .ok none) ∧
    (∀ sign digits ending, IsIntegerLine s sign digits ending →
      let n : Int := signed (sign = ['-']) (naturalOf digits)
      let significant := (digits.dropWhile (· = '0')).length
      (readInt64 s =
        if 19 < significant + ending.length then .ok none
        else if 4300 < digits.length then .error (.tooManyDigits digits.length)
        else if -2 ^ 63 ≤ n ∧ n ≤ 2 ^ 63 - 1 then .ok (some n)
        else .ok none) ∧
      (19 < significant → readInt64 s = .ok none)) ∧
    ('\n' ∉ s → s.countP Char.isDigit ≤ 4300 → ∃ r, readInt64 s = .ok r ∧
      ∀ n, r = some n ↔ IsIntegerText s n ∧ -2 ^ 63 ≤ n ∧ n ≤ 2 ^ 63 - 1) := by
  refine ⟨readInt64_of_not_isIntegerLine, ?_, ?_⟩
  · intro sign digits ending h n significant
    have hread : readInt64 s =
        if 19 < significant + ending.length then .ok none
        else if 4300 < digits.length then .error (.tooManyDigits digits.length)
        else if -2 ^ 63 ≤ n ∧ n ≤ 2 ^ 63 - 1 then .ok (some n)
        else .ok none := by
      rw [h.readInt64_eq, IntegerNumeral.int64_eq]
      rfl
    refine ⟨hread, fun hlong => ?_⟩
    rw [hread, if_pos (Nat.lt_add_right _ hlong)]
  · intro hs hcount
    obtain ⟨r, hr⟩ := exists_readInt64_of_countP_le hs hcount
    refine ⟨r, hr, fun n => ?_⟩
    rw [readInt64_eq_some_iff hs hr, isInt64_iff]

/-- The least 64-bit integer, with zeros in front. -/
def leastInt64 : Text := "-009223372036854775808".toList

theorem isIntegerLine_replicate {c : Char} (hc : c.isDigit = true) {n : Nat} (hn : n ≠ 0) :
    IsIntegerLine (List.replicate n c) [] (List.replicate n c) [] where
  text_eq := by rw [List.nil_append, List.append_nil]
  sign_mem := List.mem_cons_self
  digits_ne_nil := mt (List.replicate_eq_nil_iff c).1 hn
  isDigit := by
    intro d hd
    rwa [List.eq_of_mem_replicate hd]
  ending_mem := List.mem_cons_self

/-- A line feed is one digit too many for the least integer, and zeros alone can be too
many for a conversion, while as many other digits are no integer. -/
theorem readInt64_signedDigits_leastInt64 :
    readInt64 leastInt64 = .ok (some (-2 ^ 63)) ∧
      readInt64 (leastInt64 ++ ['\n']) = .ok none ∧
      readInt64 "+0\n".toList = .ok (some 0) ∧
      readInt64 (List.replicate 4301 '0') = .error (.tooManyDigits 4301) ∧
      readInt64 (List.replicate 4301 '1') = .ok none ∧
      readInt64 "1 ".toList = .ok none := by
  have hdigits : isDigits "009223372036854775808".toList = true := by decide
  refine ⟨?_, ?_, ?_, ?_, ?_, ?_⟩
  · obtain ⟨r, hr, hsome⟩ := (readInt64_signedDigits leastInt64).2.2 (by decide) (by decide)
    obtain ⟨hne, hall⟩ := isDigits_iff.1 hdigits
    have hleast : IsIntegerText leastInt64 (-2 ^ 63) :=
      ⟨['-'], by decide, _, rfl, hne, hall, by decide⟩
    rw [hr, (hsome _).2 ⟨hleast, by decide, by decide⟩]
  · obtain ⟨hne, hall⟩ := isDigits_iff.1 hdigits
    have hline : IsIntegerLine (leastInt64 ++ ['\n']) ['-'] _ ['\n'] :=
      ⟨rfl, by decide, hne, hall, by decide⟩
    exact ((readInt64_signedDigits _).2.1 _ _ _ hline).1.trans (if_pos (by decide))
  · obtain ⟨hne, hall⟩ := isDigits_iff.1 (show isDigits ['0'] = true by decide)
    have hline : IsIntegerLine "+0\n".toList ['+'] ['0'] ['\n'] :=
      ⟨rfl, by decide, hne, hall, by decide⟩
    exact ((readInt64_signedDigits _).2.1 _ _ _ hline).1
  · have hline := isIntegerLine_replicate (c := '0') (by decide) (n := 4301) (by decide)
    rw [((readInt64_signedDigits _).2.1 _ _ _ hline).1, List.dropWhile_replicate,
      List.length_replicate, if_neg (by decide), if_pos (by decide)]
  · have hline := isIntegerLine_replicate (c := '1') (by decide) (n := 4301) (by decide)
    apply ((readInt64_signedDigits _).2.1 _ _ _ hline).2
    rw [List.dropWhile_replicate, if_neg (by decide), List.length_replicate]
    decide
  · refine (readInt64_signedDigits _).1 fun sign digits ending h => ?_
    have hsigns : ∀ sign ∈ signs, ' ' ∉ sign := by decide
    have hendings : ∀ ending ∈ [[], ['\n']], ' ' ∉ ending := by decide
    have hblank : ' ' ∈ sign ++ digits ++ ending := h.text_eq ▸ by decide
    rcases List.mem_append.1 hblank with hfront | hending
    · rcases List.mem_append.1 hfront with hsign | hdigit
      · exact hsigns sign h.sign_mem hsign
      · exact absurd (h.isDigit _ hdigit) (by decide)
    · exact hendings ending h.ending_mem hending

end IdsRules.Numeral
