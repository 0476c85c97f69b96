import Mathlib.Data.List.Forall2
import IdsRules.Proofs.Conversion.LineClass

/-!
# A conversion row by row

A row says what became of the line of a number. The rows of the lines that are
read are all that a conversion goes by: its batch is put together from them
(`Batch.convertFrom_eq_ofRows`). If one line is exchanged for another and
neither stops the conversion, its row is the only one that changes
(`Batch.rowsFrom_forall₂`).
-/

namespace IdsRules

structure Row where
  number : Nat
  verdict : Verdict
deriving DecidableEq, Repr

/-- Rows of the same line, which has the same verdict in both unless it is the
line of the number `number`. -/
structure Row.SameBut (number : Nat) (v v' : Verdict) (r r' : Row) : Prop where
  number_eq : r.number = r'.number
  verdict_eq : r.number ≠ number → r.verdict = r'.verdict
  own : r.number = number → r.verdict = v ∧ r'.verdict = v'

theorem Row.SameBut.of_ne {number : Nat} {v v' : Verdict} {r : Row} (h : r.number ≠ number) :
    SameBut number v v' r r :=
  ⟨rfl, fun _ => rfl, fun heq => absurd heq h⟩

section

variable {number : Nat} {v v' : Verdict} {r r' : Row} (h : Row.SameBut number v v' r r')
include h

theorem Row.SameBut.fault?_eq (hv : v.isStopped = false) (hv' : v'.isStopped = false) :
    r.verdict.fault? = r'.verdict.fault? := by
  by_cases hnumber : r.number = number
  · obtain ⟨hr, hr'⟩ := h.own hnumber
    rw [hr, hr', Verdict.fault?_of_not_isStopped hv, Verdict.fault?_of_not_isStopped hv']
  · rw [h.verdict_eq hnumber]

theorem Row.SameBut.eq_of_stopped (hv : v.isStopped = false) {fault : Numeral.Fault}
    (hr : r.verdict = .stopped fault) : r = r' := by
  have hne : r.number ≠ number := by
    intro hnumber
    rw [← (h.own hnumber).1, hr] at hv
    cases hv
  obtain ⟨n, w⟩ := r
  obtain ⟨n', w'⟩ := r'
  exact congr (congrArg Row.mk h.number_eq) (h.verdict_eq hne)

end

namespace Batch

/-- The rows of the lines that are read when `read` lines stand before them. -/
def rowsFrom (settings : Settings) (read : Nat) : List Text → List Row
  | [] => []
  | line :: rest =>
    let v := Verdict.ofLine settings line
    if v.isStopped then [⟨read + 1, v⟩] else ⟨read + 1, v⟩ :: rowsFrom settings (read + 1) rest

def rows (settings : Settings) (lines : List Text) : List Row :=
  rowsFrom settings 0 lines

/-- The batch that rows come to. -/
def ofRows (settings : Settings) (rows : List Row) : Batch where
  documents := rows.filterMap fun r => r.verdict.document?
  counters := .ofClasses rows.length (rows.filterMap fun r => r.verdict.class?)
  messages := rows.flatMap fun r => Message.ofVerdict settings r.number r.verdict
  fault := rows.findSome? fun r => r.verdict.fault?

variable {settings : Settings} {line line' : Text}

theorem rowsFrom_cons_of_stopped (h : (Verdict.ofLine settings line).isStopped = true) (read : Nat)
    (rest : List Text) :
    rowsFrom settings read (line :: rest) = [⟨read + 1, Verdict.ofLine settings line⟩] := by
  simp [rowsFrom, h]

theorem rowsFrom_cons (h : (Verdict.ofLine settings line).isStopped = false) (read : Nat)
    (rest : List Text) :
    rowsFrom settings read (line :: rest) =
      ⟨read + 1, Verdict.ofLine settings line⟩ :: rowsFrom settings (read + 1) rest := by
  simp [rowsFrom, h]

theorem ofRows_singleton (settings : Settings) (r : Row) :
    ofRows settings [r] = ofVerdict settings r.number r.verdict := by
  obtain ⟨number, verdict⟩ := r
  cases verdict <;> rfl

theorem ofRows_cons {r : Row} (h : r.verdict.isStopped = false) (rows : List Row) :
    ofRows settings (r :: rows) =
      (ofVerdict settings r.number r.verdict).append (ofRows settings rows) := by
  have hcounters := Counters.ofClasses_append 1 rows.length r.verdict.class?.toList
    (rows.filterMap fun r => r.verdict.class?)
  rw [Verdict.ofClasses_class?, Nat.add_comm] at hcounters
  obtain ⟨number, verdict⟩ := r
  cases verdict with
  | stopped fault => cases h
  | _ =>
      simp only [ofRows, append, ofVerdict, ← hcounters]
      rfl

theorem convertFrom_eq_ofRows (settings : Settings) (read : Nat) (lines : List Text) :
    convertFrom settings read lines = ofRows settings (rowsFrom settings read lines) := by
  induction lines generalizing read with
  | nil => rfl
  | cons line lines ih =>
      cases hv : (Verdict.ofLine settings line).isStopped with
      | true => rw [convertFrom_cons_of_stopped hv, rowsFrom_cons_of_stopped hv, ofRows_singleton]
      | false => rw [convertFrom_cons hv, rowsFrom_cons hv, ofRows_cons hv, ih]

theorem lt_number_of_mem_rowsFrom {read : Nat} {lines : List Text} :
    ∀ r ∈ rowsFrom settings read lines, read < r.number := by
  induction lines generalizing read with
  | nil => exact nofun
  | cons line lines ih =>
      cases hv : (Verdict.ofLine settings line).isStopped with
      | true =>
          rw [rowsFrom_cons_of_stopped hv, List.forall_mem_singleton]
          exact Nat.lt_succ_self read
      | false =>
          rw [rowsFrom_cons hv, List.forall_mem_cons]
          exact ⟨Nat.lt_succ_self read, fun r hr => Nat.lt_of_succ_lt (ih r hr)⟩

/-- The rows of lines of which one is exchanged. A line before it may stop the
conversion, in front of either. -/
theorem rowsFrom_forall₂ (h : (Verdict.ofLine settings line).isStopped = false)
    (h' : (Verdict.ofLine settings line').isStopped = false) (read : Nat)
    (before after : List Text) :
    List.Forall₂ (Row.SameBut (read + before.length + 1) (Verdict.ofLine settings line)
        (Verdict.ofLine settings line'))
      (rowsFrom settings read (before ++ line :: after))
      (rowsFrom settings read (before ++ line' :: after)) := by
  induction before generalizing read with
  | nil =>
      rw [List.nil_append, List.nil_append, rowsFrom_cons h, rowsFrom_cons h']
      refine .cons ⟨rfl, fun hne => absurd rfl hne, fun _ => ⟨rfl, rfl⟩⟩ ?_
      refine List.forall₂_same.2 fun r hr => .of_ne ?_
      exact (lt_number_of_mem_rowsFrom r hr).ne'
  | cons l before ih =>
      have hnumber : read + (l :: before).length + 1 = read + 1 + before.length + 1 := by
        rw [List.length_cons]
        omega
      have hne : read + 1 ≠ read + 1 + before.length + 1 := by omega
      rw [List.cons_append, List.cons_append, hnumber]
      cases hv : (Verdict.ofLine settings l).isStopped with
      | true =>
          rw [rowsFrom_cons_of_stopped hv, rowsFrom_cons_of_stopped hv]
          exact .cons (.of_ne hne) .nil
      | false =>
          rw [rowsFrom_cons hv, rowsFrom_cons hv]
          exact .cons (.of_ne hne) (ih (read + 1))

/-- The first line that stops a conversion has the last row. -/
theorem rowsFrom_append_cons {fault : Numeral.Fault} {before : List Text}
    (hbefore : ∀ l ∈ before, (Verdict.ofLine settings l).isStopped = false)
    (hline : Verdict.ofLine settings line = .stopped fault) (read : Nat) (rest : List Text) :
    (rowsFrom settings read (before ++ line :: rest)).getLast? =
      some ⟨read + before.length + 1, .stopped fault⟩ := by
  induction before generalizing read with
  | nil =>
      have hstopped : (Verdict.ofLine settings line).isStopped = true := by rw [hline]; rfl
      rw [List.nil_append, rowsFrom_cons_of_stopped hstopped, hline]
      rfl
  | cons l before ih =>
      rw [List.forall_mem_cons] at hbefore
      have hnumber : read + (l :: before).length + 1 = read + 1 + before.length + 1 := by
        rw [List.length_cons]
        omega
      rw [List.cons_append, rowsFrom_cons hbefore.1, List.getLast?_cons, ih hbefore.2, hnumber]
      rfl

section SameBut

variable {number : Nat} {v v' : Verdict} {rows rows' : List Row}
  (h : List.Forall₂ (Row.SameBut number v v') rows rows') (hv : v.isStopped = false)
include h hv

theorem fault_ofRows_congr (hv' : v'.isStopped = false) :
    (ofRows settings rows).fault = (ofRows settings rows').fault := by
  induction h with
  | nil => rfl
  | cons hrow _ ih =>
      simp only [ofRows, List.findSome?_cons] at ih ⊢
      rw [hrow.fault?_eq hv hv', ih]

theorem getLast?_eq_of_stopped {n : Nat} {fault : Numeral.Fault}
    (hlast : rows.getLast? = some ⟨n, .stopped fault⟩) :
    rows'.getLast? = some ⟨n, .stopped fault⟩ := by
  induction h with
  | nil => cases hlast
  | cons hrow htail ih =>
      cases htail with
      | nil =>
          cases hlast
          exact congrArg some (hrow.eq_of_stopped hv rfl).symm
      | cons _ _ => exact ih hlast

end SameBut

end Batch

end IdsRules
