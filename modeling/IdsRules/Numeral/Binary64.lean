import IdsRules.Text.Basic

/-!
# Binary floating-point numbers of 64 bits

A finite number is a sign and the rank of its magnitude: the magnitudes of the
format in increasing order are numbered from 0, which is zero, to
`finiteCount - 1`. The rank is what the format stores below its sign bit. With
ranks the neighbours of a number are its predecessor and successor, a carry out
of the significand needs no case of its own, and a magnitude that rounds to
`finiteCount` or beyond is an overflow.

There is one `nan`: neither its sign nor its payload can be observed.
-/

namespace IdsRules.Numeral

/-- The number of finite magnitudes: 2047 exponents with 52 bits each. -/
def finiteCount : Nat := 2047 * Nat.pow 2 52

/-- A binary floating-point number of 64 bits. -/
inductive Binary64 where
  | nan
  | infinite (negative : Bool)
  /-- The finite number with the magnitude of this rank. -/
  | finite (negative : Bool) (rank : Fin finiteCount)
deriving DecidableEq, Repr

namespace Binary64

/-- The integer significand of the magnitude of a rank: below `2 ^ 52` the
magnitudes are subnormal, above it they have an implicit leading bit. -/
def significand (rank : Nat) : Nat :=
  if rank < Nat.pow 2 52 then rank else Nat.pow 2 52 + rank % Nat.pow 2 52

/-- The power of two that the significand counts in. -/
def exponent (rank : Nat) : Int :=
  if rank < Nat.pow 2 52 then -1074 else (rank / Nat.pow 2 52 : Nat) - 1075

/-- The magnitude of a rank as a quotient of natural numbers. -/
def quotient (rank : Nat) : Nat × Nat :=
  let e := exponent rank
  if 0 ≤ e then (significand rank * Nat.pow 2 e.toNat, 1)
  else (significand rank, Nat.pow 2 (-e).toNat)

def isFinite : Binary64 → Bool
  | .finite .. => true
  | _ => false

@[simp] theorem isFinite_nan : isFinite .nan = false := rfl

@[simp] theorem isFinite_infinite (negative : Bool) : isFinite (.infinite negative) = false := rfl

@[simp] theorem isFinite_finite (negative : Bool) (rank : Fin finiteCount) :
    isFinite (.finite negative rank) = true := rfl

def zero (negative : Bool) : Binary64 :=
  .finite negative ⟨0, by decide⟩

/-- Numerical equality: `nan` equals nothing, and the two zeros are equal. -/
def agrees : Binary64 → Binary64 → Bool
  | .nan, _ => false
  | _, .nan => false
  | .infinite a, .infinite b => a == b
  | .finite a m, .finite b n => m == n && (a == b || m.val == 0)
  | _, _ => false

/-- Whether a number is the integer `n`. -/
def isInteger (x : Binary64) (n : Int) : Bool :=
  match x with
  | .finite negative rank =>
    let (num, den) := quotient rank
    (if negative then -(num : Int) else num) == n * den
  | _ => false

/-- Every number but `nan` equals itself. -/
theorem agrees_self_iff (x : Binary64) : agrees x x = true ↔ x ≠ .nan := by
  cases x <;> simp [agrees]

end Binary64

end IdsRules.Numeral
