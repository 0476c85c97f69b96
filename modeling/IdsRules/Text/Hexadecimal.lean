import IdsRules.Text.Basic

/-!
# Hexadecimal numerals of a fixed width

Escapes write a code point with a fixed number of lower-case hexadecimal
digits. A number that needs more digits keeps its low ones.
-/

namespace IdsRules.Text

/-- The last `width` hexadecimal digits of a number. -/
def hexadecimal : (width : Nat) → Nat → Text
  | 0, _ => []
  | width + 1, n => hexadecimal width (n / 16) ++ [Nat.digitChar (n % 16)]

/-- The value of a hexadecimal digit, in either case. -/
def hexadecimalDigit? (c : Char) : Option Nat :=
  if '0' ≤ c ∧ c ≤ '9' then some (c.toNat - '0'.toNat)
  else if 'a' ≤ c ∧ c ≤ 'f' then some (c.toNat - 'a'.toNat + 10)
  else if 'A' ≤ c ∧ c ≤ 'F' then some (c.toNat - 'A'.toNat + 10)
  else none

theorem hexadecimalDigit?_digitChar {n : Nat} (h : n < 16) :
    hexadecimalDigit? (Nat.digitChar n) = some n := by
  have : ∀ m : Fin 16, hexadecimalDigit? (Nat.digitChar m.val) = some m.val := by decide
  exact this ⟨n, h⟩

end IdsRules.Text
