import IdsRules.Proofs.Conversion.LineClass

/-!
# Converting two lists of lines one after the other

No line has a part in what becomes of another. A conversion carries two things from one
line to the next, the number of lines so far and whether it was stopped, and nothing else
of what is told depends on the first than the numbers themselves: with more lines in front
of them the same lines give the same batch with its messages shifted
(`Batch.convertFrom_add`). So the batch of two lists put together is that of the first
with the shifted batch of the second behind it, unless the first has a line that stops the
conversion; then the second is not reached at all.
-/

namespace IdsRules

namespace Message

/-- What is told about a line when `k` more lines stand before it. -/
def shift (k : Nat) : Message → Message
  | .malformedLine number => .malformedLine (number + k)
  | .unencodableLine number layout error => .unencodableLine (number + k) layout error
  | m => m

theorem ofVerdict_add (settings : Settings) (number k : Nat) (v : Verdict) :
    ofVerdict settings (number + k) v = (ofVerdict settings number v).map (shift k) := by
  cases v <;> rfl

end Message

namespace Batch

/-- A batch when `k` more lines stand before its own. -/
def shift (k : Nat) (b : Batch) : Batch :=
  { b with messages := b.messages.map (Message.shift k) }

theorem shift_append (k : Nat) (a b : Batch) :
    (a.append b).shift k = (a.shift k).append (b.shift k) := by
  simp only [shift, append, List.map_append]

theorem ofVerdict_add (settings : Settings) (number k : Nat) (v : Verdict) :
    ofVerdict settings (number + k) v = (ofVerdict settings number v).shift k := by
  simp only [ofVerdict, shift, Message.ofVerdict_add]

/-- The lines in front of others add to the numbers of these and change nothing else. -/
theorem convertFrom_add (settings : Settings) (read k : Nat) (lines : List Text) :
    convertFrom settings (read + k) lines = (convertFrom settings read lines).shift k := by
  induction lines generalizing read with
  | nil => rfl
  | cons line lines ih =>
      have hfirst : ofVerdict settings (read + k + 1) (Verdict.ofLine settings line) =
          (ofVerdict settings (read + 1) (Verdict.ofLine settings line)).shift k := by
        rw [Nat.add_right_comm, ofVerdict_add]
      cases hv : (Verdict.ofLine settings line).isStopped with
      | true => rw [convertFrom_cons_of_stopped hv, convertFrom_cons_of_stopped hv, hfirst]
      | false =>
          rw [convertFrom_cons hv, convertFrom_cons hv, hfirst, Nat.add_right_comm, ih,
            shift_append]

variable {settings : Settings} {lines : List Text}

theorem convert_append
    (h : ∀ line ∈ lines, (Verdict.ofLine settings line).isStopped = false) (rest : List Text) :
    convert settings (lines ++ rest) =
      (convert settings lines).append ((convert settings rest).shift lines.length) := by
  rw [convert, convertFrom_append h, convertFrom_add, convert, convert]

/-- Behind a line that stops a conversion no line is converted. -/
theorem convertFrom_append_of_stopped {line : Text} (hline : line ∈ lines)
    (h : (Verdict.ofLine settings line).isStopped = true) (rest : List Text) (read : Nat) :
    convertFrom settings read (lines ++ rest) = convertFrom settings read lines := by
  induction lines generalizing read with
  | nil => cases hline
  | cons first lines ih =>
      rw [List.cons_append]
      cases hv : (Verdict.ofLine settings first).isStopped with
      | true => rw [convertFrom_cons_of_stopped hv, convertFrom_cons_of_stopped hv]
      | false =>
          rcases List.mem_cons.1 hline with rfl | hlater
          · rw [h] at hv
            cases hv
          · rw [convertFrom_cons hv, convertFrom_cons hv, ih hlater]

end Batch

namespace Converter

/-- If no line of the first list stops a conversion, two lists of lines put together give
the documents of both, end as the second does, and count and tell what both count and
tell, with the numbers of the second list shifted. If one does, the second list makes no
difference. -/
theorem convert_concatenation (settings : Settings) (lines rest : List Text) :
    let c : Converter := { settings }
    ((∀ line ∈ lines, ∀ fault,
          Rule.parse settings.keepSource line ≠ .error (.value fault)) →
        (c.convert (lines ++ rest)).2.documents =
            (c.convert lines).2.documents ++ (c.convert rest).2.documents ∧
          (c.convert (lines ++ rest)).2.fault = (c.convert rest).2.fault ∧
          (c.convert (lines ++ rest)).1.counters =
            (c.convert lines).1.counters + (c.convert rest).1.counters ∧
          (c.convert (lines ++ rest)).2.messages =
            (c.convert lines).2.messages ++
              (c.convert rest).2.messages.map (Message.shift lines.length)) ∧
      ((∃ line ∈ lines, ∃ fault,
          Rule.parse settings.keepSource line = .error (.value fault)) →
        c.convert (lines ++ rest) = c.convert lines) := by
  intro c
  constructor
  · intro h
    have hbatch : (c.convert (lines ++ rest)).2 =
        (c.convert lines).2.append ((c.convert rest).2.shift lines.length) :=
      Batch.convert_append (fun line hline =>
        Verdict.isStopped_ofLine_eq_false_iff_parse.2 (h line hline)) rest
    refine ⟨?_, ?_, ?_, ?_⟩
    · rw [hbatch, Batch.append, Batch.shift]
    · rw [hbatch, Batch.append, Batch.shift]
    · rw [counters_convert, counters_convert, counters_convert]
      exact congrArg Batch.counters hbatch
    · rw [hbatch, Batch.append, Batch.shift]
  · rintro ⟨line, hline, fault, hfault⟩
    have hstopped : (Verdict.ofLine settings line).isStopped = true := by
      rw [Verdict.ofLine_eq_stopped_iff.2 hfault]
      rfl
    have hbatch : Batch.convert settings (lines ++ rest) = Batch.convert settings lines :=
      Batch.convertFrom_append_of_stopped hline hstopped rest 0
    simp only [convert, c, hbatch]

/-- A rule, a line that is none, and a rule that cannot be written. -/
def soundLines : List Text :=
  [lineOf "1".toList, "a b".toList, lineOf "nan".toList]

/-- A comment, a line that is no rule, and a foreign infinity between rules. -/
def damagedLines : List Text :=
  ["# x".toList, "a b".toList, lineOf "\u0131nf".toList, lineOf "2".toList]

/-- The fifth line of both lists is the second of the second one, and the lines behind the
foreign infinity are not converted. -/
theorem convert_concatenation_soundLines :
    let c : Converter := { settings := {} }
    (c.convert (soundLines ++ damagedLines)).2.messages =
        [.malformedLine 2, .unencodableLine 3 .compact (.notFinite .nan), .malformedLine 5] ∧
      (c.convert (soundLines ++ damagedLines)).2.fault = some (.notANumber "\u0131nf".toList) ∧
      (c.convert (soundLines ++ damagedLines)).1.counters =
        { total := 6, converted := 1, errors := 3, skipped := 1 } ∧
      c.convert (damagedLines ++ soundLines) = c.convert damagedLines := by
  intro c
  have hsound : ∀ line ∈ soundLines, ∀ fault,
      Rule.parse true line ≠ .error (.value fault) := by
    have hstopped : ∀ line ∈ soundLines, (Verdict.ofLine {} line).isStopped = false := by
      decide +kernel
    exact fun line hline => Verdict.isStopped_ofLine_eq_false_iff_parse.1 (hstopped line hline)
  obtain ⟨-, hfault, hcounters, hmessages⟩ :=
    (convert_concatenation {} soundLines damagedLines).1 hsound
  refine ⟨?_, ?_, ?_, (convert_concatenation {} damagedLines soundLines).2 ?_⟩
  · rw [hmessages]
    decide +kernel
  · rw [hfault]
    decide +kernel
  · rw [hcounters]
    decide +kernel
  · exact ⟨lineOf "\u0131nf".toList, by simp [damagedLines], .notANumber "\u0131nf".toList,
      by decide +kernel⟩

end Converter

end IdsRules
