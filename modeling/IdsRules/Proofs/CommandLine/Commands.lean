import IdsRules.Proofs.CommandLine.Words

/-!
# What the command line is read as

The arguments are read as a request exactly if they are a command, and the request
is the one that the flags of the command ask for. A use of a switch has one effect,
unless it is a use of help, which ends the reading. A word that is left over stays
left over to the end, where it makes the command line wrong; so in a command each
operand is the rule file or has been taken by a flag.
-/

namespace IdsRules.CommandLine

open Switch (spellings)

/-! ## The effect of a use -/

/-- Help comes first among the effects of a use of it, whatever letters follow. -/
theorem Uses.effects_help {next : Option Text} {spelling : Text} {attached : Option Text}
    {uses : Uses} (h : ofUse next ⟨.help, spelling, attached⟩ = .ok uses) :
    ∃ effects, uses.effects = ⟨.help, []⟩ :: effects := by
  cases attached with
  | none =>
      cases h
      exact ⟨[], rfl⟩
  | some a =>
      cases a with
      | nil => cases h
      | cons c rest =>
          simp only [ofUse, attach, Switch.takesArgument, Bool.false_eq_true, if_false] at h
          split at h
          next => cases h
          next inner hinner =>
            generalize (if rest.isEmpty then plain next inner
              else attach next inner true rest) = later at h
            cases later with
            | error misuse => cases h
            | ok later =>
                cases h
                exact ⟨later.effects, rfl⟩

namespace Reading

/-- The reading after the effect of a switch that does not end it. -/
def set (r : Reading) (effect : Effect) : Reading :=
  (r.apply effect).toOption.getD r

variable {r r' : Reading} {next : Option Text} {switch : Switch} {spelling : Text} {taken : Bool}

@[simp] theorem rules_set (r : Reading) (effect : Effect) : (r.set effect).rules = r.rules := by
  obtain ⟨switch, argument⟩ := effect
  cases switch <;> rfl

theorem set_named (r : Reading) (rules : Option Text) (effect : Effect) :
    ({ r with rules } : Reading).set effect = { r.set effect with rules } := by
  obtain ⟨switch, argument⟩ := effect
  cases switch <;> rfl

theorem foldl_set_named (r : Reading) (rules : Option Text) (effects : List Effect) :
    effects.foldl set { r with rules } = { effects.foldl set r with rules } := by
  induction effects generalizing r with
  | nil => rfl
  | cons effect effects ih => rw [List.foldl_cons, set_named, ih, List.foldl_cons]

theorem takeUse_help (attached : Option Text) :
    r.takeUse next ⟨.help, spelling, attached⟩ ≠ .ok (r', taken) := by
  rw [takeUse]
  split
  next => exact nofun
  next uses huses =>
    obtain ⟨effects, heffects⟩ := Uses.effects_help huses
    rw [heffects]
    exact nofun

theorem takeUse_plain (hswitch : switch ∈ [Switch.pretty, .raw, .noRaw, .noProgress]) :
    r.takeUse next ⟨switch, spelling, none⟩ = .ok (r.set ⟨switch, []⟩, false) := by
  simp only [List.mem_cons, List.not_mem_nil, or_false] at hswitch
  rcases hswitch with rfl | rfl | rfl | rfl <;> rfl

theorem takeUse_plain_attached (hswitch : switch ∈ [Switch.pretty, .raw, .noRaw, .noProgress])
    (hspelling : (spelling, switch) ∈ spellings) (a : Text) :
    r.takeUse next ⟨switch, spelling, some a⟩ ≠ .ok (r', taken) := by
  have hlong : ∀ entry ∈ spellings, entry.2 ∈ [Switch.pretty, .raw, .noRaw, .noProgress] →
      (entry.1.length == 2) = false ∧ entry.2.takesArgument = false := by decide
  obtain ⟨hlength, htakes⟩ := hlong _ hspelling hswitch
  rw [takeUse, Uses.ofUse]
  cases a <;> simp [Uses.attach, hlength, htakes]

theorem takeUse_valued (hswitch : switch ∈ [Switch.output, .sid]) (v : Text) :
    r.takeUse (some v) ⟨switch, spelling, none⟩ = .ok (r.set ⟨switch, v⟩, true) := by
  simp only [List.mem_cons, List.not_mem_nil, or_false] at hswitch
  rcases hswitch with rfl | rfl <;> rfl

theorem takeUse_valued_none (hswitch : switch ∈ [Switch.output, .sid]) :
    r.takeUse none ⟨switch, spelling, none⟩ ≠ .ok (r', taken) := by
  simp only [List.mem_cons, List.not_mem_nil, or_false] at hswitch
  rcases hswitch with rfl | rfl <;> exact nofun

theorem takeUse_attached (hswitch : switch ∈ [Switch.output, .sid]) (a : Text) :
    r.takeUse next ⟨switch, spelling, some a⟩ =
      .ok (r.set ⟨switch, if a = "--".toList then [] else a⟩, false) := by
  simp only [List.mem_cons, List.not_mem_nil, or_false] at hswitch
  cases a with
  | nil => rcases hswitch with rfl | rfl <;> rfl
  | cons c rest => rcases hswitch with rfl | rfl <;> rfl

end Reading

/-! ## Flags -/

theorem switch_cases (switch : Switch) :
    switch = .help ∨ switch ∈ [Switch.pretty, .raw, .noRaw, .noProgress] ∨
      switch ∈ [Switch.output, .sid] := by
  cases switch <;> decide

/-- A use of a switch that does not end the reading is a flag, with the operand behind it
if that is taken. -/
theorem exists_isFlag_of_takeUse {s : Text} {u : SwitchUse} {r r' : Reading} {next : Option Text}
    {taken : Bool} (hs : Word.classify s = .ok (.use u))
    (hr : r.takeUse next u = .ok (r', taken)) :
    ∃ effect, r' = r.set effect ∧ (taken = false ∧ IsFlag [s] effect ∨
      taken = true ∧ ∃ v, next = some v ∧ (IsOperand v → IsFlag [s, v] effect)) := by
  obtain ⟨switch, spelling, attached⟩ := u
  obtain ⟨hspelling, huse⟩ := Word.of_classify_eq_use hs
  rcases switch_cases switch with rfl | hswitch | hswitch
  · exact absurd hr (Reading.takeUse_help attached)
  · cases attached with
    | some a => exact absurd hr (Reading.takeUse_plain_attached hswitch hspelling a)
    | none =>
        rw [Reading.takeUse_plain hswitch] at hr
        cases hr
        exact ⟨_, rfl, .inl ⟨rfl, .plain hswitch (Word.writes_iff.2 ⟨spelling, hs⟩)⟩⟩
  · cases attached with
    | none =>
        cases next with
        | none => exact absurd hr (Reading.takeUse_valued_none hswitch)
        | some v =>
            rw [Reading.takeUse_valued hswitch] at hr
            cases hr
            exact ⟨_, rfl, .inr ⟨rfl, v, rfl,
              .valued hswitch (Word.writes_iff.2 ⟨spelling, hs⟩)⟩⟩
    | some a =>
        rw [Reading.takeUse_attached hswitch] at hr
        cases hr
        refine ⟨_, rfl, .inl ⟨rfl, ?_⟩⟩
        obtain ⟨b, rfl, hb⟩ | ⟨rfl, hne, hequals, hlength⟩ := huse
        · exact .attached a hswitch (Word.writes_iff.2 ⟨spelling, hb⟩)
        · have hletter : ∀ entry ∈ spellings, entry.1.length = 2 →
              entry.2 ∈ [Switch.output, .sid] → entry = ("-o".toList, .output) := by decide
          obtain ⟨rfl, rfl⟩ := Prod.mk.injEq .. ▸ hletter _ hspelling hlength hswitch
          exact .behind hne hequals

/-- A flag is a use of its switch with its effect, and takes the operand behind it if there
is one. -/
theorem IsFlag.takeUse {group : List Text} {effect : Effect} (h : IsFlag group effect) :
    ∃ s u, Word.classify s = .ok (.use u) ∧
      (group = [s] ∧ (∀ (r : Reading) next, r.takeUse next u = .ok (r.set effect, false)) ∨
        ∃ v, group = [s, v] ∧ IsOperand v ∧
          ∀ r : Reading, r.takeUse (some v) u = .ok (r.set effect, true)) := by
  cases h with
  | plain hswitch hs =>
      obtain ⟨spelling, hs⟩ := Word.writes_iff.1 hs
      exact ⟨_, _, hs, .inl ⟨rfl, fun r next => Reading.takeUse_plain hswitch⟩⟩
  | valued hswitch hs hv =>
      obtain ⟨spelling, hs⟩ := Word.writes_iff.1 hs
      exact ⟨_, _, hs, .inr ⟨_, rfl, hv, fun r => Reading.takeUse_valued hswitch _⟩⟩
  | attached v hswitch hs =>
      obtain ⟨spelling, hs⟩ := Word.writes_iff.1 hs
      exact ⟨_, _, Word.classify_append hs rfl v,
        .inl ⟨rfl, fun r next => Reading.takeUse_attached hswitch v⟩⟩
  | behind hne hequals =>
      exact ⟨_, _, Word.classify_letter hne hequals,
        .inl ⟨rfl, fun r next => Reading.takeUse_attached (by decide) _⟩⟩

/-! ## Words that are left over -/

namespace Reading

variable {r r' : Reading} {taken : Bool}

theorem leftOver_applyAll {effects : List Effect} (h : r.applyAll effects = .ok r') :
    r'.leftOver = r.leftOver := by
  induction effects generalizing r with
  | nil =>
      cases h
      rfl
  | cons effect effects ih =>
      rw [applyAll] at h
      split at h
      next => cases h
      next applied happlied =>
        rw [ih h]
        obtain ⟨switch, argument⟩ := effect
        cases switch <;> cases happlied <;> rfl

theorem leftOver_takeUse {next : Option Text} {use : SwitchUse}
    (h : r.takeUse next use = .ok (r', taken)) : r'.leftOver = r.leftOver := by
  rw [takeUse] at h
  split at h
  next => cases h
  next =>
    split at h
    next => cases h
    next happlied =>
      cases h
      exact leftOver_applyAll happlied

/-- What is left over stays left over. -/
theorem leftOver_scan {words : List Word} (h : r.scan taken words = .ok r') :
    r.leftOver <+: r'.leftOver := by
  fun_induction scan r taken words with
  | case1 =>
      cases h
      exact List.prefix_rfl
  | case2 _ _ _ ih => exact ih h
  | case3 => cases h
  | case4 _ _ _ _ _ _ _ happlied ih =>
      rw [← leftOver_takeUse happlied]
      exact ih h
  | case6 _ _ _ _ _ _ ih | case7 _ _ _ _ _ _ _ ih => exact ih h
  | case9 _ _ _ _ s hs _ ih => exact ih h
  | case5 _ _ _ _ _ ih | case8 _ _ _ _ _ _ ih | case10 _ _ _ _ _ ih =>
      exact (List.prefix_append _ _).trans (ih h)

theorem leftOver_ne_nil {words : List Word} {s : Text}
    (h : (r.leave [s]).scan taken words = .ok r') : r'.leftOver ≠ [] := by
  intro hempty
  have hprefix := leftOver_scan h
  rw [hempty, List.prefix_nil] at hprefix
  simp [leave] at hprefix

/-- Once the rule file is known, every word but the use of a switch is left over. -/
theorem leftOver_ne_nil_of_rules {word : Word} {words : List Word} (hrules : r.rules.isSome)
    (hword : ∀ u, word ≠ .use u) (h : r.scan false (word :: words) = .ok r') :
    r'.leftOver ≠ [] := by
  obtain ⟨rules, hrules⟩ := Option.isSome_iff_exists.1 hrules
  cases word with
  | use u => exact absurd rfl (hword u)
  | unknown written => exact leftOver_ne_nil h
  | operand s =>
      unfold scan at h
      rw [hrules] at h
      exact leftOver_ne_nil h
  | terminator =>
      unfold scan at h
      rw [hrules] at h
      exact leftOver_ne_nil h

end Reading

/-! ## The arguments of a command -/

open Word (classifyAll)

namespace Reading

variable {r : Reading} {words : List Word}

theorem scan_use_of_takeUse {u : SwitchUse} {r' : Reading} {taken : Bool}
    (h : r.takeUse (nextOperand? words) u = .ok (r', taken)) :
    r.scan false (.use u :: words) = r'.scan taken words := by
  rw [scan, h]
  rfl

theorem scan_taken (r : Reading) (word : Word) (words : List Word) :
    r.scan true (word :: words) = r.scan false words := by
  rw [scan.eq_def]
  rfl

theorem scan_operand (hr : r.rules = none) (hhead : words.head? ≠ some .terminator) (s : Text) :
    r.scan false (.operand s :: words) = { r with rules := some s }.scan false words := by
  rw [scan.eq_def]
  simp only [Bool.false_eq_true, if_false, hr, Option.isNone_none, if_true]
  split
  next => exact absurd rfl hhead
  next => rfl

theorem scan_operand_terminator (hr : r.rules = none) (s : Text) (words : List Word) :
    r.scan false (.operand s :: .terminator :: words) =
      { r with rules := some s }.scan false words := by
  rw [scan.eq_def, ← scan_taken _ .terminator]
  simp only [Bool.false_eq_true, if_false, hr, Option.isNone_none, if_true]

theorem scan_terminator_operand (hr : r.rules = none) (s : Text) (words : List Word) :
    r.scan false (.terminator :: .operand s :: words) =
      { r with rules := some s }.scan false words := by
  rw [scan.eq_def, ← scan_taken _ (.operand s)]
  simp only [Bool.false_eq_true, if_false, hr, nextOperand?]

end Reading

/-- The words of a flag are read as its effect. -/
theorem IsFlag.scan {group : List Text} {effect : Effect} (h : IsFlag group effect)
    {rest : List Text} {words : List Word} (hrest : classifyAll rest = .ok words) :
    ∃ words', classifyAll (group ++ rest) = .ok words' ∧ words'.head? ≠ some .terminator ∧
      ∀ r : Reading, r.scan false words' = (r.set effect).scan false words := by
  obtain ⟨s, u, hs, ⟨rfl, htake⟩ | ⟨v, rfl, hv, htake⟩⟩ := h.takeUse
  · exact ⟨_, Word.classifyAll_cons hs hrest, by simp,
      fun r => Reading.scan_use_of_takeUse (htake r _)⟩
  · have hv := Word.classifyAll_cons (Word.classify_eq_operand_iff.2 ⟨rfl, hv⟩) hrest
    refine ⟨_, Word.classifyAll_cons hs hv, by simp, fun r => ?_⟩
    rw [Reading.scan_use_of_takeUse (htake r), Reading.scan_taken]

theorem AreFlags.scan {arguments : List Text} {effects : List Effect}
    (h : AreFlags arguments effects) :
    ∃ words, classifyAll arguments = .ok words ∧ words.head? ≠ some .terminator ∧
      ∀ r : Reading, r.scan false words = .ok (effects.foldl Reading.set r) := by
  induction h with
  | nil => exact ⟨[], rfl, by simp, fun r => rfl⟩
  | cons hflag _ ih =>
      obtain ⟨words, hwords, -, hscan⟩ := ih
      obtain ⟨words', hwords', hhead, hscan'⟩ := hflag.scan hwords
      exact ⟨words', hwords', hhead, fun r => (hscan' r).trans (hscan _)⟩

theorem IsCommand.scan {arguments : List Text} {rules : Text} {effects : List Effect}
    (h : IsCommand arguments rules effects) :
    ∃ words, classifyAll arguments = .ok words ∧ ∀ r : Reading, r.rules = none →
      r.scan false words = .ok { effects.foldl Reading.set r with rules := some rules } := by
  induction h with
  | flag hflag _ ih =>
      obtain ⟨words, hwords, hscan⟩ := ih
      obtain ⟨words', hwords', -, hscan'⟩ := hflag.scan hwords
      refine ⟨words', hwords', fun r hr => ?_⟩
      rw [hscan', hscan _ (by rw [Reading.rules_set, hr]), List.foldl_cons]
  | @rules rules rest effects hrules hrest =>
      obtain ⟨words, hwords, hhead, hscan⟩ := hrest.scan
      have hs := Word.classify_eq_operand_iff.2 ⟨rfl, hrules⟩
      refine ⟨_, Word.classifyAll_cons hs hwords, fun r hr => ?_⟩
      rw [← Reading.foldl_set_named, ← hscan]
      exact Reading.scan_operand hr hhead rules
  | terminated hrules =>
      have hs := Word.classify_eq_operand_iff.2 ⟨rfl, hrules⟩
      exact ⟨_, Word.classifyAll_cons hs rfl, fun r hr => Reading.scan_operand_terminator hr _ []⟩
  | separated rules => exact ⟨_, rfl, fun r hr => Reading.scan_terminator_operand hr rules []⟩

/-- A use of a switch and what it takes are a flag, and the reading goes on behind it. -/
theorem exists_isFlag_of_scan {s : Text} {u : SwitchUse} {rest : List Text} {words : List Word}
    {r r' : Reading} (hs : Word.classify s = .ok (.use u)) (hrest : classifyAll rest = .ok words)
    (h : r.scan false (.use u :: words) = .ok r') :
    ∃ group effect rest' words', s :: rest = group ++ rest' ∧ IsFlag group effect ∧
      rest'.length ≤ rest.length ∧ classifyAll rest' = .ok words' ∧
      (r.set effect).scan false words' = .ok r' := by
  cases htake : r.takeUse (Reading.nextOperand? words) u with
  | error ending =>
      rw [Reading.scan, htake] at h
      cases h
  | ok result =>
      obtain ⟨r₁, taken⟩ := result
      rw [Reading.scan_use_of_takeUse htake] at h
      obtain ⟨effect, rfl, ⟨rfl, hflag⟩ | ⟨rfl, v, hnext, hflag⟩⟩ :=
        exists_isFlag_of_takeUse hs htake
      · exact ⟨_, effect, rest, words, rfl, hflag, le_rfl, hrest, h⟩
      · obtain ⟨rest', words', rfl, hv, hrest', rfl⟩ := Word.of_nextOperand? hrest hnext
        rw [Reading.scan_taken] at h
        exact ⟨_, effect, rest', words', rfl, hflag hv, by simp, hrest', h⟩

/-- Once the rule file is known, all arguments are flags. The induction is on their number,
since a flag may be two of them. -/
theorem areFlags_of_scan {arguments : List Text} {words : List Word} {r r' : Reading}
    (hwords : classifyAll arguments = .ok words) (hrules : r.rules.isSome)
    (h : r.scan false words = .ok r') (hleft : r'.leftOver = []) :
    ∃ effects, AreFlags arguments effects ∧ r' = effects.foldl Reading.set r := by
  induction hn : arguments.length using Nat.strong_induction_on
    generalizing arguments words r with
  | _ n ih =>
      cases arguments with
      | nil =>
          cases hwords
          cases h
          exact ⟨[], .nil, rfl⟩
      | cons s rest =>
          rcases Word.classifyAll_cons_eq_ok hwords with
            ⟨-, rfl⟩ | ⟨word, words', hword, hrest, rfl⟩
          · exact absurd hleft (Reading.leftOver_ne_nil_of_rules hrules (by simp) h)
          · cases word with
            | use u =>
                obtain ⟨group, effect, rest', words'', hgroup, hflag, hlength, hrest', h⟩ :=
                  exists_isFlag_of_scan hword hrest h
                obtain ⟨effects, hflags, rfl⟩ := ih rest'.length (by simp [← hn]; omega) hrest'
                  (by rwa [Reading.rules_set]) h rfl
                exact ⟨effect :: effects, hgroup ▸ .cons hflag hflags, rfl⟩
            | operand _ | terminator | unknown _ =>
                exact absurd hleft (Reading.leftOver_ne_nil_of_rules hrules (by simp) h)

/-- Behind a terminator that belongs to the rule file, nothing may follow. -/
theorem eq_nil_of_scan_operands {rest : List Text} {r r' : Reading} (hrules : r.rules.isSome)
    (h : r.scan false (rest.map .operand) = .ok r') (hleft : r'.leftOver = []) :
    rest = [] ∧ r' = r := by
  cases rest with
  | nil =>
      cases h
      exact ⟨rfl, rfl⟩
  | cons s rest => exact absurd hleft (Reading.leftOver_ne_nil_of_rules hrules (by simp) h)

/-- The first operand is the rule file. What follows are flags, or a terminator alone. -/
theorem isCommand_of_scan_operand {s : Text} {rest : List Text} {words : List Word}
    {r r' : Reading} {rules : Text} (hs : IsOperand s) (hwords : classifyAll rest = .ok words)
    (hnone : r.rules = none) (h : r.scan false (.operand s :: words) = .ok r')
    (hleft : r'.leftOver = []) (hrules : r'.rules = some rules) :
    ∃ effects, IsCommand (s :: rest) rules effects ∧
      r' = { effects.foldl Reading.set r with rules := some rules } := by
  by_cases hhead : words.head? = some .terminator
  · obtain ⟨rest', rfl, rfl⟩ := Word.of_head?_terminator hwords hhead
    rw [Reading.scan_operand_terminator hnone] at h
    obtain ⟨rfl, rfl⟩ := eq_nil_of_scan_operands rfl h hleft
    cases hrules
    exact ⟨[], .terminated hs, rfl⟩
  · rw [Reading.scan_operand hnone hhead] at h
    obtain ⟨effects, hflags, rfl⟩ := areFlags_of_scan hwords rfl h hleft
    rw [Reading.foldl_set_named] at hrules ⊢
    cases hrules
    exact ⟨effects, .rules hs hflags, rfl⟩

/-- A reading that is finished without fault has read a command. Flags come first, and are
taken off one by one. -/
theorem isCommand_of_scan {arguments : List Text} {words : List Word} {r r' : Reading}
    {rules : Text} (hwords : classifyAll arguments = .ok words) (hnone : r.rules = none)
    (h : r.scan false words = .ok r') (hleft : r'.leftOver = []) (hrules : r'.rules = some rules) :
    ∃ effects, IsCommand arguments rules effects ∧
      r' = { effects.foldl Reading.set r with rules := some rules } := by
  induction hn : arguments.length using Nat.strong_induction_on
    generalizing arguments words r with
  | _ n ih =>
      cases arguments with
      | nil =>
          cases hwords
          cases h
          rw [hnone] at hrules
          cases hrules
      | cons s rest =>
          rcases Word.classifyAll_cons_eq_ok hwords with
            ⟨rfl, rfl⟩ | ⟨word, words', hword, hrest, rfl⟩
          · cases rest with
            | nil =>
                rw [Reading.scan, hnone] at h
                exact absurd hleft (Reading.leftOver_ne_nil h)
            | cons t rest =>
                rw [List.map_cons, Reading.scan_terminator_operand hnone] at h
                obtain ⟨rfl, rfl⟩ := eq_nil_of_scan_operands rfl h hleft
                cases hrules
                exact ⟨[], .separated _, rfl⟩
          · cases word with
            | use u =>
                obtain ⟨group, effect, rest', words'', hgroup, hflag, hlength, hrest', h⟩ :=
                  exists_isFlag_of_scan hword hrest h
                obtain ⟨effects, hcommand, rfl⟩ := ih rest'.length (by simp [← hn]; omega) hrest'
                  (by rwa [Reading.rules_set]) h rfl
                exact ⟨effect :: effects, hgroup ▸ .flag hflag hcommand, rfl⟩
            | operand t =>
                obtain ⟨rfl, hoperand⟩ := Word.classify_eq_operand_iff.1 hword
                exact isCommand_of_scan_operand hoperand hrest hnone h hleft hrules
            | terminator => exact absurd rfl (Word.ne_terminator_of_classify hword).2
            | unknown written => exact absurd hleft (Reading.leftOver_ne_nil h)

/-! ## What is asked for -/

theorem lastArgument_concat (switch : Switch) (effects : List Effect) (effect : Effect) :
    lastArgument switch (effects ++ [effect]) =
      if effect.switch = switch then effect.argument else lastArgument switch effects := by
  by_cases h : effect.switch = switch <;> simp [lastArgument, h]

/-- Effects that follow each other come to what their flags ask for. The induction is from
the end, since the last flag counts. -/
theorem foldl_set (rules : Text) (effects : List Effect) :
    effects.foldl Reading.set {} =
      { output := (Request.ofFlags rules effects).output
        settings := (Request.ofFlags rules effects).settings } := by
  induction effects using List.reverseRecOn with
  | nil => rfl
  | append_singleton effects effect ih =>
      rw [List.foldl_concat, ih]
      obtain ⟨switch, argument⟩ := effect
      cases switch <;>
        simp [Request.ofFlags, lastArgument_concat, Reading.set, Reading.apply, Except.toOption]

/-- Arguments are read as a request exactly if they are a command, and its flags ask for the
request. -/
theorem Request.read_eq_ok_iff {arguments : List Text} {request : Request} :
    Request.read arguments = .ok request ↔
      ∃ rules effects, IsCommand arguments rules effects ∧
        request = Request.ofFlags rules effects := by
  constructor
  · intro h
    rw [Request.read] at h
    split at h
    next => cases h
    next words hwords =>
      split at h
      next => cases h
      next r hr =>
        rw [Reading.finish] at h
        split at h
        next => cases h
        next rules hrules =>
          split at h
          next hleft =>
            obtain ⟨effects, hcommand, rfl⟩ :=
              isCommand_of_scan hwords rfl hr (List.isEmpty_iff.1 hleft) hrules
            cases h
            refine ⟨rules, effects, hcommand, ?_⟩
            rw [foldl_set rules]
            rfl
          next => cases h
  · rintro ⟨rules, effects, hcommand, rfl⟩
    obtain ⟨words, hwords, hscan⟩ := hcommand.scan
    rw [Request.read, hwords]
    simp only [hscan {} rfl, foldl_set rules]
    rfl

end IdsRules.CommandLine
