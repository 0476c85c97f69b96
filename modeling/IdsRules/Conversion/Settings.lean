import IdsRules.Json.Printer
import IdsRules.Rule.Basic

/-!
# Settings of a conversion

A conversion is told how documents are laid out, whether a rule keeps its
source text, and which identifier to keep. The filter compares texts: a rule is
kept when the canonical numeral of its identifier is the filter, so a filter
that is no canonical numeral keeps no identifier at all. A rule without metadata
has no identifier to compare and is kept.
-/

namespace IdsRules

structure Settings where
  layout : Json.Layout := .compact
  keepSource : Bool := true
  /-- The numeral of the only identifier to keep; every one if it is empty. -/
  sidFilter : Text := []
deriving DecidableEq, Repr

namespace Settings

def keepsSid (settings : Settings) (sid : Int) : Bool :=
  settings.sidFilter.isEmpty || Numeral.integerText sid == settings.sidFilter

def keeps (settings : Settings) (rule : Rule) : Bool :=
  match rule.metadata with
  | none => true
  | some m => settings.keepsSid m.sid

theorem keepsSid_of_isEmpty {settings : Settings} (h : settings.sidFilter = []) (sid : Int) :
    settings.keepsSid sid = true := by
  simp [keepsSid, h]

/-- A filter keeps at most one identifier. -/
theorem eq_of_keepsSid {settings : Settings} (h : settings.sidFilter ≠ []) {m n : Int}
    (hm : settings.keepsSid m = true) (hn : settings.keepsSid n = true) : m = n := by
  simp only [keepsSid, Bool.or_eq_true, List.isEmpty_iff, h, false_or, beq_iff_eq] at hm hn
  exact Numeral.integerText_injective (hm.trans hn.symm)

end Settings

end IdsRules
