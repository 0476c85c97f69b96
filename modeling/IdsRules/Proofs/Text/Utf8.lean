import IdsRules.Text.Utf8

/-!
# What is written as UTF-8 is read back

A first byte tells how many bytes follow it and which values their first may
have, and each continuation byte adds six bits. A character is a value that the
decoder lets pass: overlong forms are not written, and surrogates and values
above `10FFFF` are no characters.
-/

namespace IdsRules

namespace Utf8

theorem toNat_toUInt8 {n : Nat} (h : n < 0x100) : n.toUInt8.toNat = n := by
  simp only [Nat.toUInt8, UInt8.toNat_ofNat']
  omega

/-- A character is below the surrogates or between them and `110000`. -/
theorem toNat_bounds (c : Char) :
    c.toNat < 0xD800 ∨ (0xDFFF < c.toNat ∧ c.toNat < 0x110000) :=
  c.valid

theorem decodeFrom_last {next : Next} {value k : Nat} (hk : k < 0x40)
    (hnext : next.allows (0x80 + k) = true) (bytes : List UInt8) :
    decodeFrom (.owing 0 next value) ((0x80 + k).toUInt8 :: bytes) =
      Char.ofNat (value * 0x40 + k) :: decode bytes := by
  have hbyte : (0x80 + k).toUInt8.toNat = 0x80 + k := toNat_toUInt8 (by omega)
  rw [decodeFrom_cons, step, hbyte, if_pos hnext, Nat.add_sub_cancel_left]
  rfl

theorem decodeFrom_more {more : Nat} {next : Next} {value k : Nat} (hk : k < 0x40)
    (hnext : next.allows (0x80 + k) = true) (bytes : List UInt8) :
    decodeFrom (.owing (more + 1) next value) ((0x80 + k).toUInt8 :: bytes) =
      decodeFrom (.owing more .any (value * 0x40 + k)) bytes := by
  have hbyte : (0x80 + k).toUInt8.toNat = 0x80 + k := toNat_toUInt8 (by omega)
  rw [decodeFrom_cons, step, hbyte, if_pos hnext, Nat.add_sub_cancel_left]
  rfl

theorem allows_any {k : Nat} (hk : k < 0x40) : Next.any.allows (0x80 + k) = true := by
  simp only [Next.allows, Bool.and_eq_true, decide_eq_true_eq]
  omega

theorem decodeFrom_first {b : Nat} {state : State} (hb : b < 0x100) (h : start b = (state, []))
    (bytes : List UInt8) : decodeFrom .ready (b.toUInt8 :: bytes) = decodeFrom state bytes := by
  rw [decodeFrom_cons, step, toNat_toUInt8 hb, h]
  rfl

theorem decode_two {n : Nat} (h : 0x80 ≤ n) (h' : n < 0x800) (bytes : List UInt8) :
    decode ((0xC0 + n / 0x40).toUInt8 :: (0x80 + n % 0x40).toUInt8 :: bytes) =
      Char.ofNat n :: decode bytes := by
  have hlast : n % 0x40 < 0x40 := Nat.mod_lt _ (by decide)
  have hstart : start (0xC0 + n / 0x40) = (.owing 0 .any (n / 0x40), []) := by
    rw [start, if_neg (by omega), if_pos (by omega), Nat.add_sub_cancel_left]
  rw [decode, decodeFrom_first (by omega) hstart, decodeFrom_last hlast (allows_any hlast),
    Nat.div_add_mod']

/-- The first of three bytes narrows the range of the second so that neither an
overlong form nor a surrogate gets through, and a character needs no others. -/
theorem exists_start_three {n : Nat} (h : 0x800 ≤ n)
    (h' : n < 0xD800 ∨ (0xDFFF < n ∧ n < 0x10000)) :
    ∃ next : Next, start (0xE0 + n / 0x1000) = (.owing 1 next (n / 0x1000), []) ∧
      next.allows (0x80 + n / 0x40 % 0x40) = true := by
  by_cases hlow : n / 0x1000 = 0
  · refine ⟨.fromA0, by rw [hlow]; rfl, ?_⟩
    simp only [Next.allows, Bool.and_eq_true, decide_eq_true_eq]
    omega
  · by_cases hsurrogate : n / 0x1000 = 0xD
    · refine ⟨.upTo9F, by rw [hsurrogate]; rfl, ?_⟩
      simp only [Next.allows, Bool.and_eq_true, decide_eq_true_eq]
      omega
    · refine ⟨.any, ?_, allows_any (Nat.mod_lt _ (by decide))⟩
      rw [start, if_neg (by omega), if_neg (by omega), if_neg (by omega), if_neg (by omega),
        if_pos (by omega), Nat.add_sub_cancel_left]

theorem decode_three {n : Nat} (h : 0x800 ≤ n) (h' : n < 0xD800 ∨ (0xDFFF < n ∧ n < 0x10000))
    (bytes : List UInt8) :
    decode ((0xE0 + n / 0x1000).toUInt8 :: (0x80 + n / 0x40 % 0x40).toUInt8 ::
      (0x80 + n % 0x40).toUInt8 :: bytes) = Char.ofNat n :: decode bytes := by
  have hlast : n % 0x40 < 0x40 := Nat.mod_lt _ (by decide)
  have hmiddle : n / 0x40 % 0x40 < 0x40 := Nat.mod_lt _ (by decide)
  have hvalue : (n / 0x1000 * 0x40 + n / 0x40 % 0x40) * 0x40 + n % 0x40 = n := by omega
  obtain ⟨next, hstart, hnext⟩ := exists_start_three h h'
  rw [decode, decodeFrom_first (by omega) hstart, decodeFrom_more hmiddle hnext,
    decodeFrom_last hlast (allows_any hlast), hvalue]

/-- The first of four bytes narrows the range of the second so that neither an
overlong form nor a value above `10FFFF` gets through. -/
theorem exists_start_four {n : Nat} (h : 0x10000 ≤ n) (h' : n < 0x110000) :
    ∃ next : Next, start (0xF0 + n / 0x40000) = (.owing 2 next (n / 0x40000), []) ∧
      next.allows (0x80 + n / 0x1000 % 0x40) = true := by
  by_cases hlow : n / 0x40000 = 0
  · refine ⟨.from90, by rw [hlow]; rfl, ?_⟩
    simp only [Next.allows, Bool.and_eq_true, decide_eq_true_eq]
    omega
  · by_cases hhigh : n / 0x40000 = 4
    · refine ⟨.upTo8F, by rw [hhigh]; rfl, ?_⟩
      simp only [Next.allows, Bool.and_eq_true, decide_eq_true_eq]
      omega
    · refine ⟨.any, ?_, allows_any (Nat.mod_lt _ (by decide))⟩
      rw [start, if_neg (by omega), if_neg (by omega), if_neg (by omega), if_neg (by omega),
        if_neg (by omega), if_neg (by omega), if_neg (by omega), if_pos (by omega),
        Nat.add_sub_cancel_left]

theorem decode_four {n : Nat} (h : 0x10000 ≤ n) (h' : n < 0x110000) (bytes : List UInt8) :
    decode ((0xF0 + n / 0x40000).toUInt8 :: (0x80 + n / 0x1000 % 0x40).toUInt8 ::
      (0x80 + n / 0x40 % 0x40).toUInt8 :: (0x80 + n % 0x40).toUInt8 :: bytes) =
      Char.ofNat n :: decode bytes := by
  have hlast : n % 0x40 < 0x40 := Nat.mod_lt _ (by decide)
  have hthird : n / 0x40 % 0x40 < 0x40 := Nat.mod_lt _ (by decide)
  have hsecond : n / 0x1000 % 0x40 < 0x40 := Nat.mod_lt _ (by decide)
  have hvalue : ((n / 0x40000 * 0x40 + n / 0x1000 % 0x40) * 0x40 + n / 0x40 % 0x40) * 0x40 +
      n % 0x40 = n := by omega
  obtain ⟨next, hstart, hnext⟩ := exists_start_four h h'
  rw [decode, decodeFrom_first (by omega) hstart, decodeFrom_more hsecond hnext,
    decodeFrom_more hthird (allows_any hthird), decodeFrom_last hlast (allows_any hlast), hvalue]

/-- The bytes of a character are read as the character. -/
theorem decode_encodeChar_append (c : Char) (bytes : List UInt8) :
    decode (encodeChar c ++ bytes) = c :: decode bytes := by
  have hbounds := toNat_bounds c
  have hc : Char.ofNat c.toNat :: decode bytes = c :: decode bytes := by rw [Char.ofNat_toNat]
  rw [encodeChar]
  split
  next hone =>
    have hbyte : c.toNat.toUInt8.toNat = c.toNat := toNat_toUInt8 (by omega)
    rw [List.singleton_append, decode, decodeFrom_cons_ascii .ready (by omega), hbyte]
    exact hc
  next hone =>
    split
    next htwo => exact (decode_two (by omega) htwo bytes).trans hc
    next htwo =>
      split
      next hthree => exact (decode_three (by omega) (by omega) bytes).trans hc
      next hthree => exact (decode_four (by omega) (by omega) bytes).trans hc

/-- A text that is written as UTF-8 is read back. -/
theorem decode_encode (s : Text) : decode (encode s) = s := by
  induction s with
  | nil => rfl
  | cons c s ih => rw [encode_cons, decode_encodeChar_append, ih]

end Utf8

end IdsRules
