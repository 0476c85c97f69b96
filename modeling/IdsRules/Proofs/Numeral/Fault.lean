import Mathlib.Data.List.Forall2
import IdsRules.Numeral.Integer
import IdsRules.Numeral.Special

/-!
# Which numerals are at fault

Two kinds of text have the form of a number and no value. A foreign infinity is
a signed name of an infinity in which a letter i is the dotted capital or the
dotless small one, so that it matches the name only while case is ignored. A
padded integer has no more significant digits than a 64-bit integer, but so many
zeros in front of them that no conversion accepts it. Both are described by
their characters, and the results say that the readers fail on them and on
nothing else.
-/

namespace IdsRules

namespace Numeral

def signs : List Text := [[], ['+'], ['-']]

/-- The letters that match an i while case is ignored, and that no number has. -/
def foreignLetters : List Char := ['\u0130', '\u0131']

/-- A character that is a lower-case letter, in either case. -/
def IsCaseOf (letter c : Char) : Prop :=
  c = letter ∨ c = letter.toUpper

/-- A character that is a lower-case letter, in either case or foreign. -/
def IsLetter (letter c : Char) : Prop :=
  c = letter ∨ c = letter.toUpper ∨ letter = 'i' ∧ c ∈ foreignLetters

/-- The name of an infinity with a foreign letter. -/
def SpellsForeign (letters : Text) : Prop :=
  (∃ name ∈ ["inf".toList, "infinity".toList], List.Forall₂ IsLetter name letters) ∧
    ∃ c ∈ letters, c ∈ foreignLetters

/-- The name of an infinity with a foreign letter, behind an optional sign. -/
def IsForeignInfinity (s : Text) : Prop :=
  ∃ sign ∈ signs, ∃ letters : Text, s = sign ++ letters ∧ SpellsForeign letters

/-- Signed digits, more than a conversion accepts, of which few are
significant. -/
def IsPaddedInteger (s : Text) : Prop :=
  ∃ sign ∈ signs, ∃ digits : Text, s = sign ++ digits ∧
    (∀ c ∈ digits, c.isDigit = true) ∧ 4300 < digits.length ∧
      (digits.dropWhile (· = '0')).length ≤ 19

/-! ## Signs -/

theorem ne_sign_of_isDigit {c : Char} (h : c.isDigit = true) : c ≠ '-' ∧ c ≠ '+' := by
  constructor
  · rintro rfl
    exact absurd h (by decide)
  · rintro rfl
    exact absurd h (by decide)

theorem ne_sign_of_le_toNat {c : Char} (h : 65 ≤ c.toNat) : c ≠ '-' ∧ c ≠ '+' := by
  constructor
  · rintro rfl
    exact absurd h (by decide)
  · rintro rfl
    exact absurd h (by decide)

theorem isDigit_eq_false_of_le_toNat {c : Char} (h : 65 ≤ c.toNat) : c.isDigit = false := by
  rw [Bool.eq_false_iff]
  intro hdigit
  simp only [Char.isDigit, Bool.and_eq_true, decide_eq_true_eq] at hdigit
  have hsmall : c.toNat ≤ 57 := hdigit.2
  omega

theorem head?_ne_sign_of_isDigit {t : Text} (h : ∀ c ∈ t, c.isDigit = true) :
    ∀ c ∈ t.head?, c ≠ '-' ∧ c ≠ '+' :=
  fun c hc => ne_sign_of_isDigit (h c (List.mem_of_mem_head? hc))

theorem exists_eq_sign_append (s : Text) :
    ∃ sign ∈ signs, s = sign ++ (splitSign s).2 ∧ (splitSign s).1 = decide (sign = ['-']) := by
  cases s with
  | nil => exact ⟨[], by simp [signs], rfl, rfl⟩
  | cons c s =>
      by_cases hminus : c = '-'
      · subst hminus
        exact ⟨['-'], by simp [signs], rfl, rfl⟩
      · by_cases hplus : c = '+'
        · subst hplus
          exact ⟨['+'], by simp [signs], rfl, rfl⟩
        · rw [splitSign, if_neg hminus, if_neg hplus]
          exact ⟨[], by simp [signs], rfl, rfl⟩

theorem splitSign_sign_append {sign : Text} (hsign : sign ∈ signs) {t : Text}
    (ht : ∀ c ∈ t.head?, c ≠ '-' ∧ c ≠ '+') :
    splitSign (sign ++ t) = (decide (sign = ['-']), t) := by
  simp only [signs, List.mem_cons, List.not_mem_nil, or_false] at hsign
  rcases hsign with rfl | rfl | rfl
  · cases t with
    | nil => rfl
    | cons c t =>
        obtain ⟨hminus, hplus⟩ := ht c rfl
        rw [List.nil_append, splitSign, if_neg hminus, if_neg hplus]
        rfl
  · rfl
  · rfl

/-- What is left of a text without its sign, for a property that no text with a
sign in front has. -/
theorem splitSign_iff {P : Text → Prop} (hP : ∀ t, P t → ∀ c ∈ t.head?, c ≠ '-' ∧ c ≠ '+')
    (s : Text) : P (splitSign s).2 ↔ ∃ sign ∈ signs, ∃ t, s = sign ++ t ∧ P t := by
  constructor
  · intro h
    obtain ⟨sign, hsign, hs, -⟩ := exists_eq_sign_append s
    exact ⟨sign, hsign, _, hs, h⟩
  · rintro ⟨sign, hsign, t, rfl, ht⟩
    rw [splitSign_sign_append hsign (hP t ht)]
    exact ht

/-! ## Integers -/

/-- Without a line feed behind them, digits are at fault only for their
number. -/
theorem readInt64_eq_error_iff {s : Text} (hs : '\n' ∉ s) :
    (∃ fault, readInt64 s = .error fault) ↔ IsPaddedInteger s := by
  have hsplit := splitSign_iff (P := fun digits => (∀ c ∈ digits, c.isDigit = true) ∧
    4300 < digits.length ∧ (digits.dropWhile (· = '0')).length ≤ 19)
    (fun _ h => head?_ne_sign_of_isDigit h.1) s
  rw [IsPaddedInteger, ← hsplit, readInt64, Text.chomp_eq_self hs, Nat.sub_self,
    IntegerNumeral.parse?]
  by_cases hdigits : isDigits (splitSign s).2 = true
  · have hall : ∀ c ∈ (splitSign s).2, c.isDigit = true := by
      simp only [isDigits, Bool.and_eq_true, List.all_eq_true] at hdigits
      exact hdigits.2
    rw [if_pos hdigits]
    simp only [IntegerNumeral.int64, IntegerNumeral.evaluate, IntegerNumeral.significant,
      int64Digits, digitLimit, Nat.add_zero]
    by_cases hsignificant : 19 < ((splitSign s).2.dropWhile (· = '0')).length
    · simp [hsignificant, Nat.not_le.2 hsignificant]
    · by_cases hlong : 4300 < (splitSign s).2.length
      · simpa [hsignificant, hlong, Nat.not_lt.1 hsignificant] using hall
      · simp [hsignificant, hlong]
  · rw [if_neg hdigits]
    refine iff_of_false (by simp) ?_
    rintro ⟨hall, hlong, -⟩
    apply hdigits
    have hne : (splitSign s).2 ≠ [] := List.ne_nil_of_length_pos (by omega)
    simpa [isDigits, hne] using hall

/-! ## Names -/

theorem val_of_isLower {letter : Char} (h : letter.isLower = true) :
    'a'.val ≤ letter.val ∧ letter.val ≤ 'z'.val := by
  delta Char.isLower at h
  simpa only [Bool.and_eq_true, decide_eq_true_eq] using h

theorem toLower_eq_iff {c letter : Char} (h : letter.isLower = true) :
    c.toLower = letter ↔ c = letter ∨ c = letter.toUpper := by
  -- both case maps add a constant to the code, so the claim is one about codes
  have hlower := val_of_isLower h
  have hcode : 97 ≤ letter.val.toNat ∧ letter.val.toNat ≤ 122 := hlower
  delta Char.toLower Char.toUpper
  rw [dif_pos hlower]
  split
  next hc =>
    have hc' : 65 ≤ c.val.toNat ∧ c.val.toNat ≤ 90 := hc
    simp only [Char.ext_iff, ← UInt32.toNat_inj, UInt32.toNat_add]
    change (c.val.toNat + 32) % 2 ^ 32 = _ ↔ _ ∨ _ = (letter.val.toNat + 4294967264) % 2 ^ 32
    omega
  next hc =>
    have hc' : ¬(65 ≤ c.val.toNat ∧ c.val.toNat ≤ 90) := hc
    simp only [Char.ext_iff, ← UInt32.toNat_inj, UInt32.toNat_add]
    change _ ↔ _ ∨ _ = (letter.val.toNat + 4294967264) % 2 ^ 32
    omega

theorem matchesLetter_iff {letter : Char} (h : letter.isLower = true) (c : Char) :
    matchesLetter letter c = true ↔ IsLetter letter c := by
  simp [matchesLetter, IsLetter, foreignLetters, toLower_eq_iff h, or_assoc]

theorem spells_iff {name : Text} (h : ∀ letter ∈ name, letter.isLower = true) (s : Text) :
    spells name s = true ↔ List.Forall₂ IsLetter name s := by
  induction name generalizing s with
  | nil => cases s <;> simp [spells]
  | cons letter name ih =>
      rw [List.forall_mem_cons] at h
      cases s with
      | nil => simp [spells]
      | cons c s =>
          rw [spells, Bool.and_eq_true, matchesLetter_iff h.1, ih h.2, List.forall₂_cons]

theorem exists_letter_of_mem {name s : Text} (h : List.Forall₂ IsLetter name s) {c : Char}
    (hc : c ∈ s) : ∃ letter ∈ name, IsLetter letter c := by
  induction h with
  | nil => cases hc
  | cons hletter _ ih =>
      rcases List.mem_cons.1 hc with rfl | hc
      · exact ⟨_, List.mem_cons_self, hletter⟩
      · obtain ⟨letter, hmem, hletter'⟩ := ih hc
        exact ⟨letter, List.mem_cons_of_mem _ hmem, hletter'⟩

theorem le_toNat_of_mem_foreignLetters {c : Char} (h : c ∈ foreignLetters) : 0x80 ≤ c.toNat := by
  simp only [foreignLetters, List.mem_cons, List.not_mem_nil, or_false] at h
  rcases h with rfl | rfl <;> decide

theorem isLetter_iff {letter c : Char} :
    IsLetter letter c ↔ IsCaseOf letter c ∨ letter = 'i' ∧ c ∈ foreignLetters :=
  or_assoc.symm

theorem toNat_of_isCaseOf {letter c : Char} (h : letter.isLower = true) (hc : IsCaseOf letter c) :
    65 ≤ c.toNat ∧ c.toNat < 0x80 := by
  have hlower := val_of_isLower h
  have hcode : 97 ≤ letter.val.toNat ∧ letter.val.toNat ≤ 122 := hlower
  rcases hc with rfl | rfl
  · change 65 ≤ c.val.toNat ∧ c.val.toNat < 0x80
    omega
  · delta Char.toUpper
    rw [dif_pos hlower]
    simp only [Char.toNat, UInt32.toNat_add]
    change 65 ≤ (letter.val.toNat + 4294967264) % 2 ^ 32 ∧
      (letter.val.toNat + 4294967264) % 2 ^ 32 < 0x80
    omega

/-- A letter of a name stands behind the signs and the digits, and it is an ASCII
letter or a foreign i. -/
theorem toNat_of_isLetter {letter c : Char} (h : letter.isLower = true) (hc : IsLetter letter c) :
    65 ≤ c.toNat ∧ (c.toNat < 0x80 ∨ letter = 'i' ∧ c ∈ foreignLetters) := by
  rcases isLetter_iff.1 hc with hcase | hforeign
  · obtain ⟨hlow, hhigh⟩ := toNat_of_isCaseOf h hcase
    exact ⟨hlow, Or.inl hhigh⟩
  · have hbig := le_toNat_of_mem_foreignLetters hforeign.2
    exact ⟨by omega, Or.inr hforeign⟩

/-- The letters of a name that are not ASCII letters are the foreign ones. -/
theorem all_ascii_eq_false_iff {name s : Text} (hname : ∀ letter ∈ name, letter.isLower = true)
    (h : List.Forall₂ IsLetter name s) :
    (s.all fun c => c.toNat < 0x80) = false ↔ ∃ c ∈ s, c ∈ foreignLetters := by
  simp only [List.all_eq_false, decide_eq_true_eq]
  constructor
  · rintro ⟨c, hc, hbig⟩
    obtain ⟨letter, hmem, hletter⟩ := exists_letter_of_mem h hc
    obtain ⟨-, hsmall | ⟨-, hforeign⟩⟩ := toNat_of_isLetter (hname letter hmem) hletter
    · exact absurd hsmall hbig
    · exact ⟨c, hc, hforeign⟩
  · rintro ⟨c, hc, hforeign⟩
    exact ⟨c, hc, Nat.not_lt.2 (le_toNat_of_mem_foreignLetters hforeign)⟩

theorem isLower_of_mem_specialNames {entry : Text × SpecialKind} (h : entry ∈ specialNames) :
    ∀ letter ∈ entry.1, letter.isLower = true := by
  have hall : specialNames.all (fun e => e.1.all Char.isLower) = true := by decide
  intro letter hletter
  exact List.all_eq_true.1 (List.all_eq_true.1 hall entry h) letter hletter

theorem mem_specialNames_of_mem {name : Text} (h : name ∈ ["inf".toList, "infinity".toList]) :
    (name, SpecialKind.infinity) ∈ specialNames := by
  simp only [List.mem_cons, List.not_mem_nil, or_false] at h
  rcases h with rfl | rfl <;> decide

theorem le_toNat_head?_of_spellsForeign {letters : Text} (h : SpellsForeign letters) :
    ∀ c ∈ letters.head?, 65 ≤ c.toNat := by
  obtain ⟨⟨name, hname, hletters⟩, -⟩ := h
  have hlower := isLower_of_mem_specialNames (mem_specialNames_of_mem hname)
  intro c hc
  obtain ⟨letter, hmem, hletter⟩ := exists_letter_of_mem hletters (List.mem_of_mem_head? hc)
  exact (toNat_of_isLetter (hlower letter hmem) hletter).1

/-- The name of a special value is spelled with a foreign letter only if it is
that of an infinity: the third name has no i in it. -/
theorem spellsForeign_iff (letters : Text) :
    SpellsForeign letters ↔ (∃ entry ∈ specialNames, spells entry.1 letters = true) ∧
      (letters.all fun c => c.toNat < 0x80) = false := by
  constructor
  · rintro ⟨⟨name, hname, hletters⟩, hforeign⟩
    have hentry := mem_specialNames_of_mem hname
    have hlower := isLower_of_mem_specialNames hentry
    exact ⟨⟨_, hentry, (spells_iff hlower letters).2 hletters⟩,
      (all_ascii_eq_false_iff hlower hletters).2 hforeign⟩
  · rintro ⟨⟨entry, hentry, hspells⟩, hascii⟩
    have hlower := isLower_of_mem_specialNames hentry
    have hletters := (spells_iff hlower letters).1 hspells
    have hforeign := (all_ascii_eq_false_iff hlower hletters).1 hascii
    refine ⟨⟨entry.1, ?_, hletters⟩, hforeign⟩
    simp only [specialNames, List.mem_cons, List.not_mem_nil, or_false] at hentry
    rcases hentry with rfl | rfl | rfl
    · simp
    · simp
    · obtain ⟨c, hc, hforeign⟩ := hforeign
      obtain ⟨letter, hmem, hletter⟩ := exists_letter_of_mem hletters hc
      obtain ⟨-, hsmall | ⟨rfl, -⟩⟩ := toNat_of_isLetter (hlower letter hmem) hletter
      · exact absurd hsmall (Nat.not_lt.2 (le_toNat_of_mem_foreignLetters hforeign))
      · exact absurd hmem (by decide)

theorem head?_ne_sign_of_spellsForeign {letters : Text} (h : SpellsForeign letters) :
    ∀ c ∈ letters.head?, c ≠ '-' ∧ c ≠ '+' :=
  fun c hc => ne_sign_of_le_toNat (le_toNat_head?_of_spellsForeign h c hc)

/-- A special numeral is at fault exactly when it is a foreign infinity. -/
theorem exists_not_plain_iff (s : Text) :
    (∃ m, SpecialNumeral.parse? s = some m ∧ m.plain = false) ↔ IsForeignInfinity s := by
  have hparse : SpecialNumeral.parse? s =
      (specialNames.find? fun entry => spells entry.1 (splitSign s).2).map fun entry =>
        ⟨(splitSign s).1, entry.2, (splitSign s).2.all fun c => c.toNat < 0x80⟩ := rfl
  rw [IsForeignInfinity, ← splitSign_iff fun _ => head?_ne_sign_of_spellsForeign,
    spellsForeign_iff, ← List.find?_isSome, hparse]
  generalize specialNames.find? (fun entry => spells entry.1 (splitSign s).2) = found
  cases found with
  | none => simp
  | some entry => simp

/-- A foreign infinity is no integer, so it is read as a special numeral. -/
theorem readInt64_of_isForeignInfinity {s : Text} (hs : '\n' ∉ s) (h : IsForeignInfinity s) :
    readInt64 s = .ok none := by
  rw [IsForeignInfinity, ← splitSign_iff fun _ => head?_ne_sign_of_spellsForeign] at h
  have hdigits : ¬isDigits (splitSign s).2 = true := by
    simp only [isDigits, Bool.and_eq_true, List.all_eq_true]
    rintro ⟨-, hall⟩
    obtain ⟨c, hc, -⟩ := h.2
    obtain ⟨d, letters, hletters⟩ := List.exists_cons_of_ne_nil (List.ne_nil_of_mem hc)
    have hbig := le_toNat_head?_of_spellsForeign h d (by rw [hletters]; rfl)
    have hdigit := hall d (by rw [hletters]; exact List.mem_cons_self)
    rw [isDigit_eq_false_of_le_toNat hbig] at hdigit
    cases hdigit
  rw [readInt64, Text.chomp_eq_self hs, IntegerNumeral.parse?, if_neg hdigits]

end Numeral

end IdsRules
