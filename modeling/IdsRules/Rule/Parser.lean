import IdsRules.Rule.Basic

/-!
# Reading rules

A rule is read from a line, whose outer blanks do not matter. Either the line
has the form of a rule from end to end, or it is malformed: nothing is read from
a part of it. A line of the right form can still fail, when the value of one of
its options is a numeral at fault.
-/

namespace IdsRules

inductive ParseError where
  | malformed
  | value (fault : Numeral.Fault)
deriving DecidableEq, Repr

def ParseError.message : ParseError → Text
  | .malformed => "invalid rule format".toList
  | .value fault => fault.message

namespace Rule

def ofParts (header : Header) (block : Text) (source : Option Text) :
    Except Numeral.Fault Rule :=
  match OptionBlock.parse block with
  | .error fault => .error fault
  | .ok options =>
    match Metadata.read? options with
    | .error fault => .error fault
    | .ok metadata =>
      .ok {
        header
        options
        ports := Ports.read? header.sourcePort header.destinationPort
        metadata
        source }

theorem ofParts_eq_ok_iff {header : Header} {block : Text} {source : Option Text} {rule : Rule} :
    ofParts header block source = .ok rule ↔
      ∃ options metadata, OptionBlock.parse block = .ok options ∧
        Metadata.read? options = .ok metadata ∧
        rule = ⟨header, options, Ports.read? header.sourcePort header.destinationPort, metadata,
          source⟩ := by
  rw [ofParts]
  cases ho : OptionBlock.parse block with
  | error fault => simp
  | ok options =>
    cases hm : Metadata.read? options with
    | error fault => simp [hm]
    | ok metadata => simp [hm, eq_comm]

/-- The rule that a line holds. The rule keeps the line without its outer blanks
if `keepSource` says so. -/
def parse (keepSource : Bool) (line : Text) : Except ParseError Rule :=
  let s := Text.trim line
  match Header.read? s with
  | none => .error .malformed
  | some (header, block) =>
    match ofParts header block (if keepSource then some s else none) with
    | .error fault => .error (.value fault)
    | .ok rule => .ok rule

/-- Outer blanks do not matter. -/
theorem parse_trim (keepSource : Bool) (line : Text) :
    parse keepSource (Text.trim line) = parse keepSource line := by
  simp [parse]

/-- A line is malformed exactly when its trimmed text has no header and block. -/
theorem parse_eq_malformed_iff {keepSource : Bool} {line : Text} :
    parse keepSource line = .error .malformed ↔ Header.read? (Text.trim line) = none := by
  simp only [parse]
  split
  · simp_all
  · split <;> simp_all

theorem parse_eq_ok_iff {keepSource : Bool} {line : Text} {rule : Rule} :
    parse keepSource line = .ok rule ↔
      ∃ header block, Header.read? (Text.trim line) = some (header, block) ∧
        ofParts header block (if keepSource then some (Text.trim line) else none) = .ok rule := by
  rw [parse]
  cases hr : Header.read? (Text.trim line) with
  | none => simp
  | some parts =>
    obtain ⟨header, block⟩ := parts
    have hparts : ∀ h b, some (header, block) = some (h, b) ↔ h = header ∧ b = block := by
      intro h b
      simp [eq_comm]
    simp only [hparts]
    constructor
    · intro h
      split at h
      · simp at h
      · rename_i r hr'
        simp only [Except.ok.injEq] at h
        exact ⟨header, block, ⟨rfl, rfl⟩, h ▸ hr'⟩
    · rintro ⟨_, _, ⟨rfl, rfl⟩, h⟩
      rw [h]

end Rule

end IdsRules
