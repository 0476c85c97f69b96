import IdsRules.Text.Utf8

/-!
# What damaged bytes cannot reach

A byte below `80` is a character of its own wherever it stands, so bytes can be
cut in front of it and decoded on either side, whatever damage there is. The
other way round, a character below `40` is never the rest of a longer sequence:
the first byte of a sequence has value bits, or else the byte behind it has some
that the first `80` values lack. So a text has no line ends but those that its
bytes have.
-/

namespace IdsRules

namespace Utf8

/-! ## Cutting in front of a byte below `80` -/

theorem decodeFrom_append {rest : List UInt8} (h : ∀ b ∈ rest.head?, b.toNat < 0x80)
    (state : State) (bytes : List UInt8) :
    decodeFrom state (bytes ++ rest) = decodeFrom state bytes ++ decode rest := by
  induction bytes generalizing state with
  | cons b bytes ih =>
      rw [List.cons_append, decodeFrom_cons, decodeFrom_cons, ih, List.append_assoc]
  | nil =>
      cases rest with
      | nil => exact (List.append_nil _).symm
      | cons b rest =>
          have hb : b.toNat < 0x80 := h b rfl
          rw [List.nil_append, decode, decodeFrom_cons_ascii state hb,
            decodeFrom_cons_ascii .ready hb]
          rfl

theorem decode_append {rest : List UInt8} (h : ∀ b ∈ rest.head?, b.toNat < 0x80)
    (bytes : List UInt8) : decode (bytes ++ rest) = decode bytes ++ decode rest :=
  decodeFrom_append h .ready bytes

theorem decode_cons_ascii {b : UInt8} (h : b.toNat < 0x80) (bytes : List UInt8) :
    decode (b :: bytes) = Char.ofNat b.toNat :: decode bytes :=
  decodeFrom_cons_ascii .ready h bytes

/-! ## What one byte leads to -/

/-- The character of an open sequence is `40` or above, however it goes on. -/
def State.IsWide : State → Prop
  | .ready => True
  | .owing 0 _ value => 0 < value
  | .owing (_ + 1) next value => 0 < value ∨ next.allows 0x80 = false

/-- The state and the text that a byte can lead to: open sequences are wide, no
byte vanishes, and a character below `40` is the byte itself. -/
structure LeadsTo (b : Nat) (result : State × Text) : Prop where
  isWide : result.1.IsWide
  ne_ready : result.2 = [] → result.1 ≠ .ready
  eq_toNat : ∀ c ∈ result.2, c.toNat < 0x40 → c ≠ '\x00' → b = c.toNat

/-- Only a value that is no character gives the null character instead. -/
theorem eq_toNat_of_ofNat {n : Nat} (h : Char.ofNat n ≠ '\x00') : n = (Char.ofNat n).toNat := by
  by_cases hvalid : n.isValidChar
  · rw [Char.ofNat, dif_pos hvalid]
    rfl
  · have hnull : Char.ofNat n = '\x00' := by
      rw [Char.ofNat, dif_neg hvalid]
      rfl
    exact absurd hnull h

theorem LeadsTo.open {b more value : Nat} {next : Next}
    (h : (State.owing more next value).IsWide) : LeadsTo b (.owing more next value, []) :=
  ⟨h, fun _ => nofun, nofun⟩

theorem leadsTo_start (b : Nat) : LeadsTo b (start b) := by
  unfold start
  -- one case for each kind of first byte, in the order of the definition
  repeat' split
  · refine ⟨trivial, nofun, fun c hc _ hnull => ?_⟩
    rw [List.mem_singleton] at hc
    subst hc
    exact eq_toNat_of_ofNat hnull
  · exact .open (Nat.sub_pos_of_lt (by omega))
  · exact .open (.inr rfl)
  · exact .open (.inl (by decide))
  · exact .open (.inl (by omega))
  · exact .open (.inr rfl)
  · exact .open (.inl (by decide))
  · exact .open (.inl (by omega))
  · refine ⟨trivial, nofun, fun c hc hlow _ => ?_⟩
    rw [List.mem_singleton.1 hc] at hlow
    exact absurd hlow (by decide)

/-- The value of an open sequence is positive after any byte that belongs to
it. -/
theorem pos_of_isWide {more value : Nat} {next : Next} (h : (State.owing more next value).IsWide)
    {b : Nat} (hnext : next.allows b = true) : 0 < value * 0x40 + (b - 0x80) := by
  have hvalue : 0 < value ∨ next.allows 0x80 = false := by
    cases more with
    | zero => exact .inl h
    | succ more => exact h
  have hlow : 0x80 ≤ b := by
    refine Nat.le_of_not_lt fun hlt => ?_
    rw [Next.allows_eq_false hlt] at hnext
    cases hnext
  rcases hvalue with hvalue | hvalue
  · omega
  · have hne : b ≠ 0x80 := by
      rintro rfl
      rw [hvalue] at hnext
      cases hnext
    omega

theorem leadsTo_step {state : State} (h : state.IsWide) (b : UInt8) :
    LeadsTo b.toNat (step state b) := by
  cases state with
  | ready => exact leadsTo_start b.toNat
  | owing more next value =>
      rw [step.eq_def]
      dsimp only
      split
      next hnext =>
        have hpos := pos_of_isWide h hnext
        cases more with
        | zero =>
            refine ⟨trivial, nofun, fun c hc hlow hnull => ?_⟩
            rw [List.mem_singleton.1 hc] at hlow hnull
            have hvalue : 0 < value := h
            have hcharacter := eq_toNat_of_ofNat hnull
            omega
        | succ more =>
            refine .open ?_
            cases more with
            | zero => exact hpos
            | succ more => exact .inl hpos
      next =>
        obtain ⟨hwide, -, hlow⟩ := leadsTo_start b.toNat
        refine ⟨hwide, nofun, List.forall_mem_cons.2 ⟨fun hreplacement => ?_, hlow⟩⟩
        exact absurd hreplacement (by decide)

/-! ## What bytes lead to -/

variable {state : State} {bytes : List UInt8}

theorem decodeFrom_eq_nil (hwide : state.IsWide) (h : decodeFrom state bytes = []) :
    state = .ready ∧ bytes = [] := by
  induction bytes generalizing state with
  | nil =>
      cases state with
      | ready => exact ⟨rfl, rfl⟩
      | owing more next value => cases h
  | cons b bytes ih =>
      have hstep := leadsTo_step hwide b
      rw [decodeFrom_cons, List.append_eq_nil_iff] at h
      exact absurd (ih hstep.isWide h.2).1 (hstep.ne_ready h.1)

theorem exists_mem_of_mem_decodeFrom (hwide : state.IsWide) {c : Char}
    (hc : c ∈ decodeFrom state bytes) (hlow : c.toNat < 0x40) (hnull : c ≠ '\x00') :
    ∃ b ∈ bytes, b.toNat = c.toNat := by
  induction bytes generalizing state with
  | nil =>
      cases state with
      | ready => cases hc
      | owing more next value =>
          rw [List.mem_singleton.1 hc] at hlow
          exact absurd hlow (by decide)
  | cons b bytes ih =>
      have hstep := leadsTo_step hwide b
      rw [decodeFrom_cons, List.mem_append] at hc
      rcases hc with hc | hc
      · exact ⟨b, List.mem_cons_self, hstep.eq_toNat c hc hlow hnull⟩
      · obtain ⟨b', hb', hvalue⟩ := ih hstep.isWide hc
        exact ⟨b', List.mem_cons_of_mem _ hb', hvalue⟩

theorem isWide_ready : State.ready.IsWide := trivial

theorem decode_ne_nil (h : bytes ≠ []) : decode bytes ≠ [] :=
  fun hnil => h (decodeFrom_eq_nil isWide_ready hnil).2

/-- A character below `40` stands among the bytes. -/
theorem exists_mem_of_mem_decode {c : Char} (hc : c ∈ decode bytes) (hlow : c.toNat < 0x40)
    (hnull : c ≠ '\x00') : ∃ b ∈ bytes, b.toNat = c.toNat :=
  exists_mem_of_mem_decodeFrom isWide_ready hc hlow hnull

end Utf8

end IdsRules
