import IdsRules.Proofs.Json.Gap
import IdsRules.Proofs.Rule.Writable

/-!
# The two documents of a rule

A rule has a document in the one layout exactly when it has one in the other:
its integers apart, only a number that is not finite can stand in the way, and
whether it does is asked before anything is laid out. The two documents are the
same but for the gaps of the indented one.
-/

namespace IdsRules

open Numeral

namespace Json

theorem exists_encode_eq_error_iff {layout : Layout} {value : Json} :
    (∃ error, encode layout value = .error error) ↔ faults value ≠ [] := by
  simp only [encode_eq_error_iff]
  cases faults value <;> simp

/-- What stands in the way of a document is the same in both layouts. -/
theorem encode_eq_error_congr (layout layout' : Layout) {value : Json} {error : EncodeError} :
    encode layout value = .error error ↔ encode layout' value = .error error := by
  rw [encode_eq_error_iff, encode_eq_error_iff]

end Json

/-- An integer that has a numeral can be written, so what cannot is a number
that is not finite. -/
theorem OptionValue.not_isWritable_iff {v : OptionValue}
    (h : ∀ n, v = .integer n → HasNumeral n) :
    ¬v.IsWritable ↔ v = .float .nan ∨ ∃ negative, v = .float (.infinite negative) := by
  cases v with
  | flag b => simp [IsWritable]
  | integer n => simp [IsWritable, h n rfl]
  | text s => simp [IsWritable]
  | float x =>
      cases x with
      | nan => simp [IsWritable]
      | infinite negative => simp [IsWritable]
      | finite negative rank => simp [IsWritable]

namespace Rule

/-- Every integer of the rule has a numeral. -/
structure HasNumerals (r : Rule) : Prop where
  options : ∀ row ∈ r.options.rows, ∀ n, row.2 = .integer n → HasNumeral n
  sid : ∀ m ∈ r.metadata, HasNumeral m.sid
  revision : ∀ m ∈ r.metadata, HasNumeral m.revision

theorem HasNumerals.not_isWritable_iff {r : Rule} (h : r.HasNumerals) :
    ¬r.IsWritable ↔ ∃ row ∈ r.options.rows,
      row.2 = .float .nan ∨ ∃ negative, row.2 = .float (.infinite negative) := by
  constructor
  · intro hnot
    by_contra hfinite
    refine hnot ⟨fun row hrow => ?_, h.sid, h.revision⟩
    by_contra hvalue
    exact hfinite ⟨row, hrow, (OptionValue.not_isWritable_iff (h.options row hrow)).1 hvalue⟩
  · rintro ⟨row, hrow, hvalue⟩ hwritable
    exact (OptionValue.not_isWritable_iff (h.options row hrow)).2 hvalue
      (hwritable.options row hrow)

/-- A rule of which every integer has a numeral has no document exactly when an
option of it is `nan` or an infinity, whatever the layout, and the same fault is
found in both. Otherwise it has a document in both layouts, and the indented one
without its gaps is the compact one. -/
theorem encode_layouts {r : Rule} (h : r.HasNumerals) :
    let NotFinite := ∃ row ∈ r.options.rows,
      row.2 = .float .nan ∨ ∃ negative, row.2 = .float (.infinite negative)
    ((∃ error, Json.encode .compact r.toJson = .error error) ↔ NotFinite) ∧
      ((∃ error, Json.encode .indented r.toJson = .error error) ↔ NotFinite) ∧
      (∀ error, Json.encode .compact r.toJson = .error error ↔
        Json.encode .indented r.toJson = .error error) ∧
      (¬NotFinite → ∃ compact indented, Json.encode .compact r.toJson = .ok compact ∧
        Json.encode .indented r.toJson = .ok indented ∧ Json.withoutGaps indented = compact) := by
  intro NotFinite
  have hfails : ∀ layout, (∃ error, Json.encode layout r.toJson = .error error) ↔ NotFinite := by
    intro layout
    rw [Json.exists_encode_eq_error_iff, Ne, faults_toJson_eq_nil_iff, h.not_isWritable_iff]
  refine ⟨hfails .compact, hfails .indented,
    fun error => Json.encode_eq_error_congr .compact .indented, fun hfinite => ?_⟩
  have hfaults : Json.faults r.toJson = [] := by
    by_contra hfaults
    exact hfinite ((hfails .compact).1 (Json.exists_encode_eq_error_iff.2 hfaults))
  exact ⟨_, _, Json.encode_eq_ok_iff.2 ⟨hfaults, rfl⟩, Json.encode_eq_ok_iff.2 ⟨hfaults, rfl⟩,
    Json.withoutGaps_text .indented r.toJson⟩

/-- A rule with gaps, quotes and backslashes in its texts, of which one ends
with a backslash, and with an option that is a list of ports or a number. -/
def spacedRule (weight : OptionValue) : Rule where
  header := ⟨"a b".toList, "\\".toList, "\" \"".toList, "\\\" :".toList, "->".toList, [' '],
    "\n ".toList⟩
  options := Table.ofList [(" k\\".toList, .text "\\\\ \" , \n".toList), ("w".toList, weight)]
  ports := some ⟨[" ".toList, "\\".toList], []⟩
  metadata := some { references := [" \" ".toList], sid := -7 }
  source := some "\x7B \"a\": 1 \x7D".toList

theorem hasNumerals_spacedRule {weight : OptionValue} (h : ∀ n, weight ≠ .integer n) :
    (spacedRule weight).HasNumerals := by
  have hrows : (spacedRule weight).options.rows =
      [(" k\\".toList, .text "\\\\ \" , \n".toList), ("w".toList, weight)] := rfl
  refine ⟨?_, ?_, ?_⟩
  · rw [hrows, List.forall_mem_cons, List.forall_mem_singleton]
    exact ⟨fun n hn => OptionValue.noConfusion hn, fun n hn => absurd hn (h n)⟩
  · rintro m ⟨⟩
    decide
  · rintro m ⟨⟩
    decide

theorem encode_layouts_spacedRule :
    (∃ compact indented, Json.encode .compact (spacedRule (.flag true)).toJson = .ok compact ∧
      Json.encode .indented (spacedRule (.flag true)).toJson = .ok indented ∧
      Json.withoutGaps indented = compact ∧ indented.length = compact.length + 115) ∧
    (∃ error, Json.encode .compact (spacedRule (.float .nan)).toJson = .error error) ∧
    ∃ error, Json.encode .indented (spacedRule (.float .nan)).toJson = .error error := by
  have hflag : (spacedRule (.flag true)).HasNumerals := hasNumerals_spacedRule (by simp)
  have hnan : (spacedRule (.float .nan)).HasNumerals := hasNumerals_spacedRule (by simp)
  have hfinite : ¬∃ row ∈ (spacedRule (.flag true)).options.rows,
      row.2 = .float .nan ∨ ∃ negative, row.2 = .float (.infinite negative) := by
    rw [← hflag.not_isWritable_iff, not_not]
    exact ⟨by decide, hflag.sid, hflag.revision⟩
  have hrow : ∃ row ∈ (spacedRule (.float .nan)).options.rows,
      row.2 = .float .nan ∨ ∃ negative, row.2 = .float (.infinite negative) :=
    ⟨("w".toList, .float .nan), by decide, Or.inl rfl⟩
  have hlengths : (Json.text .indented (spacedRule (.flag true)).toJson).length =
      (Json.text .compact (spacedRule (.flag true)).toJson).length + 115 := by decide +kernel
  obtain ⟨hcompact, hindented, -, -⟩ := encode_layouts hnan
  obtain ⟨-, -, -, hsame⟩ := encode_layouts hflag
  obtain ⟨compact, indented, hc, hi, hgaps⟩ := hsame hfinite
  refine ⟨⟨compact, indented, hc, hi, hgaps, ?_⟩, hcompact.2 hrow, hindented.2 hrow⟩
  rw [(Json.encode_eq_ok_iff.1 hc).2, (Json.encode_eq_ok_iff.1 hi).2]
  exact hlengths

end Rule

end IdsRules
