import IdsRules.Proofs.CommandLine.Commands

/-!
# Where the paths of a request come from

A request holds no text that the arguments do not hold. The rule file is one of
the arguments. What a flag sets is a whole argument or the end of one: the part
behind an equals sign, or behind the letter of the output.
-/

namespace IdsRules.CommandLine

/-- The ends of the arguments, and the empty text. -/
def IsEnd (arguments : List Text) (t : Text) : Prop :=
  ∃ s ∈ [] :: arguments, t <:+ s

variable {arguments : List Text}

theorem isEnd_nil : IsEnd arguments [] :=
  ⟨[], List.mem_cons_self, List.nil_suffix⟩

theorem isEnd_of_suffix {s t : Text} (hs : s ∈ arguments) (h : t <:+ s) : IsEnd arguments t :=
  ⟨s, List.mem_cons_of_mem _ hs, h⟩

theorem IsEnd.mono {arguments' : List Text} {t : Text} (h : IsEnd arguments t)
    (hsubset : arguments ⊆ arguments') : IsEnd arguments' t := by
  obtain ⟨s, hs, hsuffix⟩ := h
  exact ⟨s, List.cons_subset_cons _ hsubset hs, hsuffix⟩

variable {rules : Text} {effect : Effect} {effects : List Effect}

theorem IsFlag.isEnd {group : List Text} (h : IsFlag group effect) :
    IsEnd group effect.argument := by
  have hattached (s v : Text) : IsEnd [s ++ v] (if v = "--".toList then [] else v) := by
    split
    · exact isEnd_nil
    · exact isEnd_of_suffix List.mem_cons_self (List.suffix_append s v)
  cases h with
  | plain => exact isEnd_nil
  | valued => exact isEnd_of_suffix (List.mem_cons_of_mem _ List.mem_cons_self) List.suffix_rfl
  | @attached _ s v => simpa using hattached (s ++ ['=']) v
  | @behind v => exact hattached "-o".toList v

theorem AreFlags.isEnd (h : AreFlags arguments effects) :
    ∀ effect ∈ effects, IsEnd arguments effect.argument := by
  induction h with
  | nil => exact nofun
  | cons hflag _ ih =>
      refine List.forall_mem_cons.2 ⟨hflag.isEnd.mono (List.subset_append_left _ _), ?_⟩
      exact fun effect heffect => (ih effect heffect).mono (List.subset_append_right _ _)

theorem IsCommand.isEnd (h : IsCommand arguments rules effects) :
    rules ∈ arguments ∧ ∀ effect ∈ effects, IsEnd arguments effect.argument := by
  induction h with
  | flag hflag _ ih =>
      refine ⟨List.mem_append_right _ ih.1,
        List.forall_mem_cons.2 ⟨hflag.isEnd.mono (List.subset_append_left _ _), ?_⟩⟩
      exact fun effect heffect => (ih.2 effect heffect).mono (List.subset_append_right _ _)
  | rules _ hrest =>
      refine ⟨List.mem_cons_self, fun effect heffect => ?_⟩
      exact (hrest.isEnd effect heffect).mono (List.subset_cons_self _ _)
  | terminated => exact ⟨List.mem_cons_self, nofun⟩
  | separated => exact ⟨List.mem_cons_of_mem _ List.mem_cons_self, nofun⟩

end IdsRules.CommandLine
