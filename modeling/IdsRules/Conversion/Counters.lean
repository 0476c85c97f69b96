import IdsRules.Conversion.Verdict

/-!
# Counters

A conversion counts its lines: all of them, and those that were converted, that
were in error, that the filter dropped, and that were skipped. The counters of a
sequence of lines are the sum of what each line adds, and a line adds one to the
total and one to its class. A line that stops the conversion has no class and
adds to the total only.
-/

namespace IdsRules

/-- How many lines there were, in all and of each class. -/
structure Counters where
  total : Nat := 0
  converted : Nat := 0
  /-- Lines that are no rule, and rules that cannot be written. -/
  errors : Nat := 0
  filtered : Nat := 0
  /-- Blank lines and comments. -/
  skipped : Nat := 0
deriving DecidableEq, Repr

namespace Counters

instance : Add Counters where
  add a b :=
    { total := a.total + b.total
      converted := a.converted + b.converted
      errors := a.errors + b.errors
      filtered := a.filtered + b.filtered
      skipped := a.skipped + b.skipped }

def zero : Counters := {}

@[simp] theorem total_add (a b : Counters) : (a + b).total = a.total + b.total := rfl

@[simp] theorem converted_add (a b : Counters) :
    (a + b).converted = a.converted + b.converted := rfl

@[simp] theorem errors_add (a b : Counters) : (a + b).errors = a.errors + b.errors := rfl

@[simp] theorem filtered_add (a b : Counters) : (a + b).filtered = a.filtered + b.filtered := rfl

@[simp] theorem skipped_add (a b : Counters) : (a + b).skipped = a.skipped + b.skipped := rfl

theorem ext_fields {a b : Counters} (h₁ : a.total = b.total) (h₂ : a.converted = b.converted)
    (h₃ : a.errors = b.errors) (h₄ : a.filtered = b.filtered) (h₅ : a.skipped = b.skipped) :
    a = b := by
  cases a; cases b; simp_all

@[simp] theorem add_zero (a : Counters) : a + zero = a := rfl

@[simp] theorem zero_add (a : Counters) : zero + a = a := by
  apply ext_fields <;> exact Nat.zero_add _

theorem add_assoc (a b c : Counters) : a + b + c = a + (b + c) := by
  apply ext_fields <;> exact Nat.add_assoc _ _ _

def ofVerdict : Verdict → Counters
  | .skipped => { total := 1, skipped := 1 }
  | .malformed => { total := 1, errors := 1 }
  | .filtered => { total := 1, filtered := 1 }
  | .unencodable _ => { total := 1, errors := 1 }
  | .converted _ => { total := 1, converted := 1 }
  | .stopped _ => { total := 1 }

/-- Every line counts once, whatever becomes of it. -/
@[simp] theorem total_ofVerdict (v : Verdict) : (ofVerdict v).total = 1 := by
  cases v <;> rfl

def classified (c : Counters) : Nat :=
  c.converted + c.errors + c.filtered + c.skipped

theorem classified_add (a b : Counters) : (a + b).classified = a.classified + b.classified := by
  simp only [classified, converted_add, errors_add, filtered_add, skipped_add]
  omega

end Counters

end IdsRules
