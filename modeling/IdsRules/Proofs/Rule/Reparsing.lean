import IdsRules.Conversion.Settings
import IdsRules.Proofs.Rule.Parsed

/-!
# Reading the source of a rule again

The source that a rule keeps is its line without the outer blanks, and blanks are more
than the separators of a header: a no-break space around a line is dropped and one behind
the action is not. So all that is left to a second reading is a text that is its own
trimming, and it gives the rule back, source and all.

The rule that comes back is the same, but it need not agree with itself: agreement
compares numbers as numbers, and `nan` is equal to nothing.
-/

namespace IdsRules

namespace Rule

/-- Options agree with themselves if each of their values does. -/
theorem optionsAgree_self_iff (options : Options) :
    optionsAgree options options = true ↔ ∀ row ∈ options.rows, row.2 ≠ .float .nan := by
  have hvalue : ∀ row ∈ options.rows,
      ((options.get? row.1).any row.2.agrees = true ↔ row.2 ≠ .float .nan) := by
    intro row hrow
    rw [Table.get?_of_mem_rows hrow, Option.any_some, OptionValue.agrees_self_iff]
  rw [optionsAgree, Bool.and_eq_true, List.all_eq_true]
  constructor
  · rintro ⟨-, hagree⟩ row hrow
    exact (hvalue row hrow).1 (hagree row hrow)
  · intro hnan
    exact ⟨beq_self_eq_true _, fun row hrow => (hvalue row hrow).2 (hnan row hrow)⟩

/-- Rules agree with themselves unless an option is `nan`. -/
theorem agrees_self_iff (r : Rule) :
    r.agrees r = true ↔ ∀ row ∈ r.options.rows, row.2 ≠ .float .nan := by
  simp only [agrees, beq_self_eq_true, Bool.true_and, Bool.and_true, optionsAgree_self_iff]

/-- Blanks around a line do not change what is read from it. -/
theorem parse_append_blanks (keepSource : Bool) {u v : Text} (hu : ∀ c ∈ u, Text.isBlank c = true)
    (hv : ∀ c ∈ v, Text.isBlank c = true) (line : Text) :
    parse keepSource (u ++ line ++ v) = parse keepSource line := by
  rw [← parse_trim keepSource (u ++ line ++ v), Text.trim_append_blanks hu hv, parse_trim]

/-- The source that a rule keeps is the trimmed line. -/
theorem source_eq_some_iff {keepSource : Bool} {line source : Text} {rule : Rule}
    (h : parse keepSource line = .ok rule) :
    rule.source = some source ↔ keepSource = true ∧ source = Text.trim line := by
  rw [source_of_parse h]
  cases keepSource with
  | true => simp [eq_comm]
  | false => simp

/-- Blanks around a line do not change what is read from it, be it a rule or an error, and
the source of a rule is read as that rule again. The two rules agree exactly when none of
the options is `nan`. -/
theorem parse_blanks_and_source (settings : Settings) (line : Text) :
    (∀ u v : Text, (∀ c ∈ u, Text.isBlank c = true) → (∀ c ∈ v, Text.isBlank c = true) →
        parse settings.keepSource (u ++ line ++ v) = parse settings.keepSource line) ∧
      ∀ rule source, parse settings.keepSource line = .ok rule → rule.source = some source →
        ∃ again, parse settings.keepSource source = .ok again ∧ again = rule ∧
          (rule.agrees again = true ↔ ∀ row ∈ rule.options.rows, row.2 ≠ .float .nan) := by
  refine ⟨fun u v hu hv => parse_append_blanks settings.keepSource hu hv line, ?_⟩
  intro rule source hparse hsource
  obtain ⟨-, rfl⟩ := (source_eq_some_iff hparse).1 hsource
  exact ⟨rule, (parse_trim settings.keepSource line).trans hparse, rfl, agrees_self_iff rule⟩

def unequalOptions : Options :=
  .ofList [("k".toList, .float .nan), ("sid".toList, .integer 7)]

/-- A rule with a `nan` among its options. -/
def unequalRule : Rule where
  header := ⟨"a".toList, "b".toList, "c".toList, anyPort, ">".toList, "e".toList, anyPort⟩
  options := unequalOptions
  metadata := some { sid := 7 }
  source := some "a b c any > e any (k:NaN;sid:7)".toList

/-- A vertical tab and a no-break space separate no fields, but they may stand around a
line. -/
theorem parse_blanks_and_source_unequalRule :
    let line := "a b c any > e any (k:NaN;sid:7)".toList
    parse true ("\u000B\u00A0".toList ++ line ++ "\u2028\u001C".toList) = .ok unequalRule ∧
      parse true "a\u00A0b c any > e any (k:NaN;sid:7)".toList = .error .malformed ∧
      parse true line = .ok unequalRule ∧ unequalRule.agrees unequalRule = false := by
  intro line
  obtain ⟨hblanks, hagain⟩ := parse_blanks_and_source {} line
  have hparse : parse true line = .ok unequalRule := by decide +kernel
  obtain ⟨again, hsource, rfl, hagrees⟩ := hagain unequalRule line hparse rfl
  have hbefore : ∀ c ∈ "\u000B\u00A0".toList, Text.isBlank c = true :=
    List.all_eq_true.1 (by decide)
  have hbehind : ∀ c ∈ "\u2028\u001C".toList, Text.isBlank c = true :=
    List.all_eq_true.1 (by decide)
  refine ⟨(hblanks _ _ hbefore hbehind).trans hparse, by decide +kernel, hsource, ?_⟩
  rw [← Bool.not_eq_true, hagrees]
  exact fun h => h ("k".toList, .float .nan) (by decide) rfl

end Rule

end IdsRules
