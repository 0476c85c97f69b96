import IdsRules.Text.Basic

/-!
# Decimal numerals of integers

The canonical numeral of an integer has no plus sign and no leading zero;
`integerText` writes it. Reading is in two steps, because the formats differ
in what may stand around the digits: a sign is split off first, and the digits
are then a number in base ten.
-/

namespace IdsRules.Numeral

/-- The most digits that a conversion between integers and their numerals
accepts, in either direction. -/
def digitLimit : Nat := 4300

def naturalText (n : Nat) : Text :=
  Nat.toDigits 10 n

def integerText : Int → Text
  | .ofNat n => naturalText n
  | .negSucc n => '-' :: naturalText (n + 1)

/-- The number that a text of digits denotes; leading zeros do not matter. -/
def naturalOf (digits : Text) : Nat :=
  Nat.ofDigitChars 10 digits 0

@[simp] theorem naturalOf_naturalText (n : Nat) : naturalOf (naturalText n) = n :=
  Nat.ofDigitChars_toDigits (by decide) (by decide)

theorem naturalText_ne_nil (n : Nat) : naturalText n ≠ [] :=
  Nat.toDigits_ne_nil

theorem isDigit_of_mem_naturalText {n : Nat} {c : Char} (h : c ∈ naturalText n) :
    c.isDigit = true :=
  Nat.isDigit_of_mem_toDigits (by decide) (by decide) h

/-- Whether a text is one or more digits and nothing else. -/
def isDigits (s : Text) : Bool :=
  !s.isEmpty && s.all Char.isDigit

theorem isDigits_naturalText (n : Nat) : isDigits (naturalText n) = true := by
  have h := naturalText_ne_nil n
  simp only [isDigits, Bool.and_eq_true, Bool.not_eq_true', List.all_eq_true]
  exact ⟨by simpa using h, fun c hc => isDigit_of_mem_naturalText hc⟩

/-- Whether a text has a minus sign, and the text after its sign if it has one. -/
def splitSign : Text → Bool × Text
  | [] => (false, [])
  | c :: s => if c = '-' then (true, s) else if c = '+' then (false, s) else (false, c :: s)

@[simp] theorem splitSign_minus (s : Text) : splitSign ('-' :: s) = (true, s) := rfl

@[simp] theorem splitSign_plus (s : Text) : splitSign ('+' :: s) = (false, s) := rfl

theorem splitSign_of_isDigits {s : Text} (h : isDigits s = true) : splitSign s = (false, s) := by
  cases s with
  | nil => rfl
  | cons c s =>
    have hc : c.isDigit = true := by
      simp only [isDigits, Bool.and_eq_true, List.all_eq_true] at h
      exact h.2 c (by simp)
    have h₁ : c ≠ '-' := by rintro rfl; exact absurd hc (by decide)
    have h₂ : c ≠ '+' := by rintro rfl; exact absurd hc (by decide)
    simp [splitSign, h₁, h₂]

def signed (negative : Bool) (n : Nat) : Int :=
  if negative then -(n : Int) else n

@[simp] theorem signed_false (n : Nat) : signed false n = n := rfl

@[simp] theorem signed_true (n : Nat) : signed true n = -(n : Int) := rfl

/-- An integer numeral: an optional sign and one or more digits. -/
structure IntegerNumeral where
  negative : Bool
  /-- The digits, leading zeros included. -/
  digits : Text
deriving DecidableEq, Repr

namespace IntegerNumeral

def value (m : IntegerNumeral) : Int :=
  signed m.negative (naturalOf m.digits)

/-- The digits from the first that is not zero. -/
def significant (m : IntegerNumeral) : Text :=
  m.digits.dropWhile (· = '0')

/-- Reads a text that is an integer numeral from end to end. -/
def parse? (s : Text) : Option IntegerNumeral :=
  if isDigits (splitSign s).2 then some ⟨(splitSign s).1, (splitSign s).2⟩ else none

/-- The canonical numeral of an integer is a numeral of that integer. -/
theorem parse?_integerText (n : Int) :
    ∃ m, parse? (integerText n) = some m ∧ m.value = n := by
  cases n with
  | ofNat n =>
    have h := isDigits_naturalText n
    refine ⟨⟨false, naturalText n⟩, ?_, by simp [value]⟩
    simp [integerText, parse?, splitSign_of_isDigits h, h]
  | negSucc n =>
    have h := isDigits_naturalText (n + 1)
    refine ⟨⟨true, naturalText (n + 1)⟩, by simp [integerText, parse?, h], ?_⟩
    simp [value, Int.negSucc_eq]

end IntegerNumeral

/-- Distinct integers have distinct canonical numerals. -/
theorem integerText_injective {m n : Int} (h : integerText m = integerText n) : m = n := by
  obtain ⟨k, hk, hm⟩ := IntegerNumeral.parse?_integerText m
  obtain ⟨l, hl, hn⟩ := IntegerNumeral.parse?_integerText n
  rw [h, hl] at hk
  cases hk
  rw [← hm, ← hn]

end IdsRules.Numeral
