import IdsRules.Proofs.Numeral.Canonical
import IdsRules.Proofs.Numeral.Decimal
import IdsRules.Proofs.Numeral.Fault

/-!
# The forms of numerals

A text is an integer, a special value or a decimal by its form alone. The forms
are described here by taking a text apart: a sign or none, and behind it digits,
the letters of a name, or digits with a point and an exponent. Each reader finds a
numeral exactly where the text can be taken apart in this way, and the number
that it finds is the one that the parts denote.

The character behind the sign already tells names from numbers, so a text that
is read as a special value is no other numeral.
-/

namespace IdsRules.Numeral

/-! ## Integers -/

/-- The text is a sign or none and one or more digits, and `n` is the number that
they denote. -/
def IsIntegerText (s : Text) (n : Int) : Prop :=
  ∃ sign ∈ signs, ∃ digits : Text, s = sign ++ digits ∧ digits ≠ [] ∧
    (∀ c ∈ digits, c.isDigit = true) ∧ n = signed (sign = ['-']) (naturalOf digits)

theorem isDigits_iff {s : Text} : isDigits s = true ↔ s ≠ [] ∧ ∀ c ∈ s, c.isDigit = true := by
  simp [isDigits]

theorem IntegerNumeral.parse?_eq_some_iff {s : Text} {m : IntegerNumeral} :
    parse? s = some m ↔
      ((splitSign s).2 ≠ [] ∧ ∀ c ∈ (splitSign s).2, c.isDigit = true) ∧
        ⟨(splitSign s).1, (splitSign s).2⟩ = m := by
  rw [parse?, Option.ite_none_right_eq_some, Option.some.injEq, isDigits_iff]

theorem IntegerNumeral.parse?_sign_append {sign digits : Text} (hsign : sign ∈ signs)
    (hne : digits ≠ []) (hall : ∀ c ∈ digits, c.isDigit = true) :
    parse? (sign ++ digits) = some ⟨sign = ['-'], digits⟩ := by
  rw [parse?_eq_some_iff, splitSign_sign_append hsign (head?_ne_sign_of_isDigit hall)]
  exact ⟨⟨hne, hall⟩, rfl⟩

theorem exists_parse?_iff_isIntegerText {s : Text} {n : Int} :
    (∃ m, IntegerNumeral.parse? s = some m ∧ m.value = n) ↔ IsIntegerText s n := by
  constructor
  · rintro ⟨m, hm, rfl⟩
    obtain ⟨⟨hne, hall⟩, rfl⟩ := IntegerNumeral.parse?_eq_some_iff.1 hm
    obtain ⟨sign, hsign, hs, hnegative⟩ := exists_eq_sign_append s
    exact ⟨sign, hsign, _, hs, hne, hall, by rw [IntegerNumeral.value, hnegative]⟩
  · rintro ⟨sign, hsign, digits, rfl, hne, hall, rfl⟩
    exact ⟨_, IntegerNumeral.parse?_sign_append hsign hne hall, rfl⟩

/-- Digits denote the same number without the zeros in front of them. -/
theorem naturalOf_dropWhile_zero (digits : Text) :
    naturalOf (digits.dropWhile (· = '0')) = naturalOf digits := by
  have hzeros : digits.takeWhile (· = '0')
      = List.replicate (digits.takeWhile (· = '0')).length '0' := by
    apply List.eq_replicate_of_mem
    intro c hc
    exact of_decide_eq_true (List.mem_takeWhile_imp (p := (· = '0')) hc)
  have hsplit := digits.takeWhile_append_dropWhile (p := (· = '0'))
  rw [hzeros] at hsplit
  conv_rhs => rw [← hsplit, naturalOf_zeros_append]

/-- More than `k` significant digits denote at least `10 ^ k`. -/
theorem ten_pow_le_naturalOf {digits : Text} (hall : ∀ c ∈ digits, c.isDigit = true) {k : Nat}
    (hk : 0 < k) (hlong : k < (digits.dropWhile (· = '0')).length) :
    10 ^ k ≤ naturalOf digits := by
  have hpositive : IsPositiveNumeral (digits.dropWhile (· = '0')) := by
    refine ⟨List.ne_nil_of_length_pos (by omega),
      fun c hc => hall c (List.dropWhile_sublist _ |>.subset hc), ?_⟩
    intro hhead
    have hnot := List.head?_dropWhile_not (· = '0') digits
    rw [hhead] at hnot
    exact absurd hnot (by decide)
  obtain ⟨-, htext⟩ := hpositive.naturalText_naturalOf
  rw [naturalOf_dropWhile_zero] at htext
  rw [← htext, naturalText] at hlong
  by_contra hsmall
  exact absurd ((Nat.length_toDigits_le_iff (by decide) hk).2 (Nat.not_le.1 hsmall))
    (Nat.not_le.2 hlong)

theorem isInt64_iff {n : Int} : isInt64 n = true ↔ -2 ^ 63 ≤ n ∧ n ≤ 2 ^ 63 - 1 := by
  simp only [isInt64, Bool.and_eq_true, decide_eq_true_eq, Nat.pow_eq, Nat.cast_pow,
    Nat.cast_ofNat]

/-- A 64-bit integer has at most nineteen significant digits, so none is lost where
more than that are not read. -/
theorem IntegerNumeral.int64_eq_ok {m : IntegerNumeral} (hall : ∀ c ∈ m.digits, c.isDigit = true)
    {r : Option Int} (h : m.int64 0 = .ok r) :
    r = if isInt64 m.value = true then some m.value else none := by
  rw [int64, Nat.add_zero] at h
  by_cases hlong : int64Digits < m.significant.length
  · have hlarge : 10 ^ 19 ≤ naturalOf m.digits := ten_pow_le_naturalOf hall (by decide) hlong
    have houtside : ¬isInt64 m.value = true := by
      rw [isInt64_iff, value, signed]
      split <;> omega
    rw [if_pos hlong, Except.ok.injEq] at h
    rw [if_neg houtside, h]
  · rw [if_neg hlong, evaluate] at h
    by_cases hlimit : digitLimit < m.digits.length
    · simp [hlimit] at h
    · rw [if_neg hlimit, Except.ok.injEq] at h
      exact h.symm

theorem readInt64_eq_some_iff {s : Text} (hs : '\n' ∉ s) {r : Option Int}
    (h : readInt64 s = .ok r) {n : Int} :
    r = some n ↔ IsIntegerText s n ∧ isInt64 n = true := by
  rw [← exists_parse?_iff_isIntegerText]
  rw [readInt64, Text.chomp_eq_self hs, Nat.sub_self] at h
  cases hm : IntegerNumeral.parse? s with
  | none =>
      rw [hm, Except.ok.injEq] at h
      simp [← h]
  | some m =>
      have hall : ∀ c ∈ m.digits, c.isDigit = true := by
        obtain ⟨⟨-, hall⟩, rfl⟩ := IntegerNumeral.parse?_eq_some_iff.1 hm
        exact hall
      rw [hm] at h
      rw [IntegerNumeral.int64_eq_ok hall h, Option.ite_none_right_eq_some, Option.some.injEq]
      constructor
      · rintro ⟨hfits, rfl⟩
        exact ⟨⟨m, rfl, rfl⟩, hfits⟩
      · rintro ⟨⟨_, hm', rfl⟩, hfits⟩
        cases hm'
        exact ⟨hfits, rfl⟩

/-! ## Names -/

/-- The text is a sign or none and a name of the value in any case. -/
def IsSpecialText (s : Text) (x : Binary64) : Prop :=
  ∃ sign ∈ signs, ∃ letters : Text, s = sign ++ letters ∧
    (List.Forall₂ IsCaseOf "nan".toList letters ∧ x = .nan ∨
      (List.Forall₂ IsCaseOf "inf".toList letters ∨
        List.Forall₂ IsCaseOf "infinity".toList letters) ∧ x = .infinite (sign = ['-']))

theorem isCaseOf_iff {letter : Char} (h : letter.isLower = true) (c : Char) :
    IsCaseOf letter c ↔ matchesLetter letter c = true ∧ c.toNat < 0x80 := by
  rw [matchesLetter_iff h, isLetter_iff]
  constructor
  · exact fun hcase => ⟨Or.inl hcase, (toNat_of_isCaseOf h hcase).2⟩
  · rintro ⟨hcase | ⟨-, hforeign⟩, hsmall⟩
    · exact hcase
    · exact absurd hsmall (Nat.not_lt.2 (le_toNat_of_mem_foreignLetters hforeign))

theorem forall₂_isCaseOf_iff {name : Text} (h : ∀ letter ∈ name, letter.isLower = true)
    (s : Text) : List.Forall₂ IsCaseOf name s ↔
      spells name s = true ∧ (s.all fun c => c.toNat < 0x80) = true := by
  induction name generalizing s with
  | nil => cases s <;> simp [spells]
  | cons letter name ih =>
      rw [List.forall_mem_cons] at h
      cases s with
      | nil => simp [spells]
      | cons c s =>
          rw [List.forall₂_cons, isCaseOf_iff h.1, ih h.2, spells, List.all_cons,
            Bool.and_eq_true, Bool.and_eq_true, decide_eq_true_eq]
          exact and_and_and_comm

/-- The first letter tells the two kinds of name apart. -/
theorem exists_name_eq_cons {entry : Text × SpecialKind} (h : entry ∈ specialNames) :
    ∃ name, entry.1 = (if entry.2 = .nan then 'n' else 'i') :: name := by
  simp only [specialNames, List.mem_cons, List.not_mem_nil, or_false] at h
  rcases h with rfl | rfl | rfl <;> exact ⟨_, rfl⟩

theorem kind_eq_of_spells {e e' : Text × SpecialKind} (he : e ∈ specialNames)
    (he' : e' ∈ specialNames) {s : Text} (h : spells e.1 s = true) (h' : spells e'.1 s = true) :
    e.2 = e'.2 := by
  obtain ⟨name, hname⟩ := exists_name_eq_cons he
  obtain ⟨name', hname'⟩ := exists_name_eq_cons he'
  have hapart (c : Char) (hi : matchesLetter 'i' c = true) : ¬matchesLetter 'n' c = true := by
    rw [matchesLetter_iff (by decide)] at hi
    rcases hi with rfl | rfl | ⟨-, hforeign⟩
    · decide
    · decide
    · simp only [foreignLetters, List.mem_cons, List.not_mem_nil, or_false] at hforeign
      rcases hforeign with rfl | rfl <;> decide
  cases s with
  | nil => simp [hname, spells] at h
  | cons c s =>
      rw [hname, spells, Bool.and_eq_true] at h
      rw [hname', spells, Bool.and_eq_true] at h'
      cases hkind : e.2 with
      | nan =>
          cases hkind' : e'.2 with
          | nan => rfl
          | infinity =>
              rw [hkind, if_pos rfl] at h
              rw [hkind', if_neg (by decide)] at h'
              exact absurd h.1 (hapart c h'.1)
      | infinity =>
          cases hkind' : e'.2 with
          | infinity => rfl
          | nan =>
              rw [hkind, if_neg (by decide)] at h
              rw [hkind', if_pos rfl] at h'
              exact absurd h'.1 (hapart c h.1)

theorem isSpecialText_iff {s : Text} {x : Binary64} :
    IsSpecialText s x ↔ ∃ sign ∈ signs, ∃ letters : Text, s = sign ++ letters ∧
      ∃ entry ∈ specialNames, List.Forall₂ IsCaseOf entry.1 letters ∧
        x = SpecialNumeral.value ⟨sign = ['-'], entry.2, true⟩ := by
  simp only [IsSpecialText, specialNames, List.mem_cons, List.not_mem_nil, or_false,
    exists_eq_or_imp, exists_eq_left, SpecialNumeral.value]
  refine exists_congr fun sign => and_congr_right fun _ => exists_congr fun letters =>
    and_congr_right fun _ => ?_
  tauto

/-- What stands behind the sign of a special value is no sign, no digit and no
point. -/
theorem le_toNat_head?_of_forall₂ {entry : Text × SpecialKind} (he : entry ∈ specialNames)
    {letters : Text} (h : List.Forall₂ IsCaseOf entry.1 letters) :
    ∃ c ∈ letters.head?, 65 ≤ c.toNat := by
  obtain ⟨name, hname⟩ := exists_name_eq_cons he
  have hlower := isLower_of_mem_specialNames he
  rw [hname] at h hlower
  cases h with
  | cons hc _ => exact ⟨_, rfl, (toNat_of_isCaseOf (hlower _ List.mem_cons_self) hc).1⟩

theorem splitSign_of_forall₂ {entry : Text × SpecialKind} (he : entry ∈ specialNames)
    {sign letters : Text} (hsign : sign ∈ signs)
    (h : List.Forall₂ IsCaseOf entry.1 letters) :
    splitSign (sign ++ letters) = (decide (sign = ['-']), letters) := by
  obtain ⟨c, hc, hbig⟩ := le_toNat_head?_of_forall₂ he h
  apply splitSign_sign_append hsign
  intro d hd
  rw [Option.mem_unique hd hc]
  exact ne_sign_of_le_toNat hbig

theorem exists_parse?_iff_isSpecialText {s : Text} {x : Binary64} :
    (∃ m, SpecialNumeral.parse? s = some m ∧ m.plain = true ∧ m.value = x) ↔
      IsSpecialText s x := by
  rw [isSpecialText_iff]
  constructor
  · rintro ⟨m, hm, hplain, rfl⟩
    obtain ⟨entry, hfound, rfl⟩ := Option.map_eq_some_iff.1 hm
    have he := List.mem_of_find?_eq_some hfound
    have hspells := List.find?_some hfound
    obtain ⟨sign, hsign, hs, hnegative⟩ := exists_eq_sign_append s
    refine ⟨sign, hsign, _, hs, entry, he, ?_, ?_⟩
    · exact (forall₂_isCaseOf_iff (isLower_of_mem_specialNames he) _).2 ⟨hspells, hplain⟩
    · rw [← hnegative]
      rfl
  · rintro ⟨sign, hsign, letters, rfl, entry, he, hletters, rfl⟩
    obtain ⟨hspells, hascii⟩ :=
      (forall₂_isCaseOf_iff (isLower_of_mem_specialNames he) _).1 hletters
    have hsplit := splitSign_of_forall₂ he hsign hletters
    -- the entry that is found need not be this one, but it is of the same kind
    obtain ⟨entry', hfound⟩ := Option.isSome_iff_exists.1
      (List.find?_isSome (p := fun e => spells e.1 letters).2 ⟨entry, he, hspells⟩)
    have hspells' := List.find?_some hfound
    have hkind := kind_eq_of_spells (List.mem_of_find?_eq_some hfound) he hspells' hspells
    refine ⟨⟨decide (sign = ['-']), entry'.2, _⟩, ?_, hascii, ?_⟩
    · simp only [SpecialNumeral.parse?, hsplit, hfound, Option.map_some]
    · rw [hkind]
      rfl

/-! ## Decimals -/

/-- The text is empty and stands for no exponent, or it is the letter of an exponent
and the integer `e`. -/
def IsExponentText (s : Text) (e : Int) : Prop :=
  s = [] ∧ e = 0 ∨ ∃ c ∈ ['e', 'E'], ∃ t, s = c :: t ∧ IsIntegerText t e

/-- A decimal numeral taken apart. -/
structure DecimalText where
  sign : Text
  whole : Text
  point : Text
  fraction : Text
  exponent : Text

namespace DecimalText

/-- The text behind the digits in front of the point. -/
def rest (p : DecimalText) : Text :=
  p.point ++ (p.fraction ++ p.exponent)

def body (p : DecimalText) : Text :=
  p.whole ++ p.rest

def text (p : DecimalText) : Text :=
  p.sign ++ p.body

/-- The parts have the forms of those of a decimal numeral, and `e` is the exponent.
There is a digit on one side of the point at least, and none behind a point that is
not there. -/
structure IsValid (p : DecimalText) (e : Int) : Prop where
  sign : p.sign ∈ signs
  whole : ∀ c ∈ p.whole, c.isDigit = true
  point : p.point = ['.'] ∨ p.point = [] ∧ p.fraction = []
  fraction : ∀ c ∈ p.fraction, c.isDigit = true
  digits : p.whole ≠ [] ∨ p.fraction ≠ []
  exponent : IsExponentText p.exponent e

/-- The number that the parts denote, without its sign. -/
def magnitude (p : DecimalText) (e : Int) : ℚ :=
  (naturalOf p.whole + naturalOf p.fraction / 10 ^ p.fraction.length) * 10 ^ e

end DecimalText

/-- The text is a decimal numeral of the magnitude `q` with a minus sign or without
one. -/
def IsDecimalText (s : Text) (negative : Bool) (q : ℚ) : Prop :=
  ∃ (p : DecimalText) (e : Int), p.IsValid e ∧ s = p.text ∧ negative = decide (p.sign = ['-']) ∧
    q = p.magnitude e

theorem readExponent?_eq_some_iff {s : Text} {e : Int} :
    Decimal.readExponent? s = some e ↔ IsExponentText s e := by
  cases s with
  | nil => simp [Decimal.readExponent?, IsExponentText, eq_comm]
  | cons c s =>
      have hletter : IsExponentText (c :: s) e ↔ (c = 'e' ∨ c = 'E') ∧ IsIntegerText s e := by
        constructor
        · rintro (⟨hnil, -⟩ | ⟨d, hd, t, ht, hint⟩)
          · cases hnil
          · cases ht
            exact ⟨by simpa using hd, hint⟩
        · rintro ⟨hc, hint⟩
          exact Or.inr ⟨c, by simpa using hc, s, rfl, hint⟩
      rw [hletter, Decimal.readExponent?, Option.ite_none_right_eq_some, Option.map_eq_some_iff,
        exists_parse?_iff_isIntegerText]

/-! ## Reading the parts of a decimal -/

theorem takeWhile_isDigit_append {s t : Text} (hs : ∀ c ∈ s, c.isDigit = true)
    (ht : ∀ c ∈ t.head?, c.isDigit = false) : (s ++ t).takeWhile Char.isDigit = s := by
  rw [List.takeWhile_append_of_pos hs]
  cases t with
  | nil => exact List.append_nil s
  | cons c t =>
      have hc := ht c rfl
      rw [List.takeWhile_cons_of_neg (by simp [hc]), List.append_nil]

theorem dropWhile_isDigit_append {s t : Text} (hs : ∀ c ∈ s, c.isDigit = true)
    (ht : ∀ c ∈ t.head?, c.isDigit = false) : (s ++ t).dropWhile Char.isDigit = t := by
  rw [List.dropWhile_append_of_pos hs]
  cases t with
  | nil => rfl
  | cons c t =>
      have hc := ht c rfl
      rw [List.dropWhile_cons_of_neg (by simp [hc])]

/-- What follows the digits is empty or starts with the letter of an
exponent. -/
theorem head_of_readExponent? {s : Text} {e : Int} (h : Decimal.readExponent? s = some e) :
    ∀ c ∈ s.head?, c.isDigit = false ∧ c ≠ '.' := by
  cases s with
  | nil =>
      intro c hc
      cases hc
  | cons d s =>
      intro c hc
      cases hc
      by_cases hd : d = 'e' ∨ d = 'E'
      · rcases hd with rfl | rfl
        · decide
        · decide
      · rw [Decimal.readExponent?, if_neg hd] at h
        cases h

theorem splitFraction_of_ne {s : Text} (h : ∀ c ∈ s.head?, c ≠ '.') :
    Decimal.splitFraction s = ([], s) := by
  cases s with
  | nil => rfl
  | cons c s => simp [Decimal.splitFraction, h c rfl]

namespace DecimalText

variable {p : DecimalText} {e : Int}

theorem IsValid.head?_exponent (h : p.IsValid e) :
    ∀ c ∈ p.exponent.head?, c.isDigit = false ∧ c ≠ '.' :=
  head_of_readExponent? (readExponent?_eq_some_iff.2 h.exponent)

/-- The decimal that is read: the digits on both sides of the point as one integer. -/
def decimal (p : DecimalText) (e : Int) : Decimal :=
  ⟨p.sign = ['-'], naturalOf (p.whole ++ p.fraction), e - p.fraction.length⟩

theorem value_decimal (p : DecimalText) (e : Int) : (p.decimal e).value = p.magnitude e := by
  have hpow : (10 : ℚ) ^ p.fraction.length ≠ 0 := by positivity
  rw [decimal, Decimal.value, magnitude, naturalOf_append, zpow_sub₀ (by norm_num), zpow_natCast]
  push_cast
  rw [← mul_div_assoc, ← div_mul_eq_mul_div, add_div, mul_div_cancel_right₀ _ hpow]

theorem IsValid.head?_body (h : p.IsValid e) :
    ∃ c ∈ p.body.head?, c.isDigit = true ∨ c = '.' := by
  cases hwhole : p.whole with
  | cons c whole =>
      refine ⟨c, by simp [body, hwhole], Or.inl (h.whole c (by simp [hwhole]))⟩
  | nil =>
      have hfraction := h.digits.resolve_left (not_not.2 hwhole)
      have hpoint := h.point.resolve_right fun hnone => hfraction hnone.2
      exact ⟨'.', by simp [body, rest, hwhole, hpoint], Or.inr rfl⟩

theorem IsValid.splitSign_text (h : p.IsValid e) :
    splitSign p.text = (decide (p.sign = ['-']), p.body) := by
  obtain ⟨c, hc, hbody⟩ := h.head?_body
  apply splitSign_sign_append h.sign
  intro d hd
  rw [Option.mem_unique hd hc]
  rcases hbody with hdigit | rfl
  · exact ne_sign_of_isDigit hdigit
  · decide

theorem IsValid.head?_rest (h : p.IsValid e) :
    ∀ c ∈ p.rest.head?, c.isDigit = false := by
  rw [rest]
  rcases h.point with hpoint | ⟨hpoint, hfraction⟩
  · intro c hc
    simp only [hpoint, List.singleton_append, List.head?_cons, Option.mem_some_iff] at hc
    subst hc
    decide
  · rw [hpoint, hfraction]
    exact fun c hc => (h.head?_exponent c hc).1

theorem IsValid.splitFraction_rest (h : p.IsValid e) :
    Decimal.splitFraction p.rest = (p.fraction, p.exponent) := by
  rw [rest]
  rcases h.point with hpoint | ⟨hpoint, hfraction⟩
  · have hdigit : ∀ c ∈ p.exponent.head?, c.isDigit = false :=
      fun c hc => (h.head?_exponent c hc).1
    rw [hpoint, List.singleton_append, Decimal.splitFraction, if_pos rfl,
      takeWhile_isDigit_append h.fraction hdigit, dropWhile_isDigit_append h.fraction hdigit]
  · rw [hpoint, hfraction]
    exact splitFraction_of_ne fun c hc => (h.head?_exponent c hc).2

theorem IsValid.takeWhile_body (h : p.IsValid e) : p.body.takeWhile Char.isDigit = p.whole :=
  takeWhile_isDigit_append h.whole h.head?_rest

theorem IsValid.dropWhile_body (h : p.IsValid e) : p.body.dropWhile Char.isDigit = p.rest :=
  dropWhile_isDigit_append h.whole h.head?_rest

/-- A text of parts is read as the decimal of the parts. -/
theorem IsValid.parse?_text (h : p.IsValid e) : Decimal.parse? p.text = some (p.decimal e) := by
  have hdigits : ¬(p.whole = [] ∧ p.fraction = []) := not_and_or.2 h.digits
  simp only [Decimal.parse?, h.splitSign_text, h.takeWhile_body, h.dropWhile_body,
    h.splitFraction_rest, if_neg hdigits, readExponent?_eq_some_iff.2 h.exponent,
    Option.map_some]
  rfl

end DecimalText

/-- The digits behind a point, if there is one, and what follows them. -/
theorem exists_eq_point_append (s : Text) :
    ∃ point : Text, s = point ++ ((Decimal.splitFraction s).1 ++ (Decimal.splitFraction s).2) ∧
      (point = ['.'] ∨ point = [] ∧ (Decimal.splitFraction s).1 = []) ∧
      ∀ c ∈ (Decimal.splitFraction s).1, c.isDigit = true := by
  cases s with
  | nil => exact ⟨[], rfl, Or.inr ⟨rfl, rfl⟩, by simp [Decimal.splitFraction]⟩
  | cons c s =>
      by_cases hc : c = '.'
      · subst hc
        rw [Decimal.splitFraction, if_pos rfl]
        refine ⟨['.'], by simp, Or.inl rfl, ?_⟩
        exact fun c hc => List.mem_takeWhile_imp hc
      · rw [Decimal.splitFraction, if_neg hc]
        exact ⟨[], rfl, Or.inr ⟨rfl, rfl⟩, by simp⟩

theorem exists_parse?_iff_isDecimalText {s : Text} {negative : Bool} {q : ℚ} :
    (∃ d, Decimal.parse? s = some d ∧ d.negative = negative ∧ d.value = q) ↔
      IsDecimalText s negative q := by
  constructor
  · rintro ⟨d, hd, rfl, rfl⟩
    obtain ⟨sign, hsign, hs, hnegative⟩ := exists_eq_sign_append s
    obtain ⟨point, hrest, hpoint, hfraction⟩ :=
      exists_eq_point_append ((splitSign s).2.dropWhile Char.isDigit)
    simp only [Decimal.parse?, Option.ite_none_left_eq_some, Option.map_eq_some_iff] at hd
    obtain ⟨hdigits, e, he, rfl⟩ := hd
    have hwhole : ∀ c ∈ (splitSign s).2.takeWhile Char.isDigit, c.isDigit = true :=
      fun c hc => List.mem_takeWhile_imp hc
    have hbody : (splitSign s).2 = (splitSign s).2.takeWhile Char.isDigit
        ++ (splitSign s).2.dropWhile Char.isDigit := (List.takeWhile_append_dropWhile).symm
    refine ⟨⟨sign, _, point, _, _⟩, e, ⟨hsign, hwhole, hpoint, hfraction, not_and_or.1 hdigits,
      readExponent?_eq_some_iff.1 he⟩, ?_, hnegative, ?_⟩
    · rw [DecimalText.text, DecimalText.body, DecimalText.rest, ← hrest, ← hbody]
      exact hs
    · rw [← DecimalText.value_decimal, DecimalText.decimal, ← hnegative]
  · rintro ⟨p, e, h, rfl, rfl, rfl⟩
    exact ⟨_, h.parse?_text, rfl, p.value_decimal e⟩

/-! ## Which forms exclude each other -/

/-- The digits of an integer are a decimal numeral too. -/
theorem IsIntegerText.isDecimalText {s : Text} {n : Int} (h : IsIntegerText s n) :
    ∃ negative, IsDecimalText s negative n.natAbs := by
  obtain ⟨sign, hsign, digits, rfl, hne, hall, rfl⟩ := h
  refine ⟨_, ⟨sign, digits, [], [], []⟩, 0, ?_, ?_, rfl, ?_⟩
  · exact ⟨hsign, hall, Or.inr ⟨rfl, rfl⟩, by simp, Or.inl hne, Or.inl ⟨rfl, rfl⟩⟩
  · simp [DecimalText.text, DecimalText.body, DecimalText.rest]
  · have hvalue : (signed (sign = ['-']) (naturalOf digits)).natAbs = naturalOf digits := by
      rw [signed]
      split <;> omega
    have hnone : naturalOf [] = 0 := rfl
    simp [hvalue, hnone, DecimalText.magnitude]

theorem IsSpecialText.not_isDecimalText {s : Text} {x : Binary64} (h : IsSpecialText s x)
    (negative : Bool) (q : ℚ) : ¬IsDecimalText s negative q := by
  obtain ⟨sign, hsign, letters, rfl, entry, he, hletters, -⟩ := isSpecialText_iff.1 h
  rintro ⟨p, e, hvalid, htext, -, -⟩
  obtain ⟨c, hc, hletter⟩ := le_toNat_head?_of_forall₂ he hletters
  obtain ⟨d, hd, hdigit⟩ := hvalid.head?_body
  have hbody : letters = p.body := by
    have hsplit := hvalid.splitSign_text
    rw [← htext, splitSign_of_forall₂ he hsign hletters, Prod.mk.injEq] at hsplit
    exact hsplit.2
  rw [hbody] at hc
  rw [Option.mem_unique hc hd] at hletter
  rcases hdigit with hdigit | rfl
  · rw [isDigit_eq_false_of_le_toNat hletter] at hdigit
    cases hdigit
  · exact absurd hletter (by decide)

theorem IsSpecialText.not_isIntegerText {s : Text} {x : Binary64} (h : IsSpecialText s x)
    (n : Int) : ¬IsIntegerText s n := by
  intro hint
  obtain ⟨negative, hdecimal⟩ := hint.isDecimalText
  exact h.not_isDecimalText negative _ hdecimal

end IdsRules.Numeral
