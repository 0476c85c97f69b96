import IdsRules.Conversion.Verdict
import IdsRules.Proofs.Json.RoundTrip
import IdsRules.Proofs.Rule.Presence
import IdsRules.Proofs.Text.Tight

/-!
# Port lists say what their fields say

A port field that is not `any` gives one expression for each piece between its commas,
so its list is never empty, and the expressions joined by commas are the field without
its brackets and without the blanks around its commas and at its ends. These conditions
determine the list. In the other direction, expressions without commas and outer blanks
are read back from a field in brackets, and from a bare field unless it happens to start
and end with brackets itself.

Since only `any` gives an empty list, a rule that was read goes without port lists
exactly when both of its fields are `any`.
-/

namespace IdsRules

namespace Ports

/-- The field starts with an opening bracket and ends with a closing one. -/
def IsBracketed (field : Text) : Prop :=
  field.head? = some '[' ∧ field.getLast? = some ']'

theorem isBracketed_iff {field : Text} :
    IsBracketed field ↔ ∃ inner, field = '[' :: (inner ++ [']']) := by
  constructor
  · rintro ⟨hhead, hlast⟩
    obtain ⟨rest, rfl⟩ := List.head?_eq_some_iff.1 hhead
    obtain ⟨front, hfront⟩ := List.getLast?_eq_some_iff.1 hlast
    cases front with
    | nil => cases hfront
    | cons c inner =>
        obtain ⟨rfl, rfl⟩ := List.cons.inj hfront
        exact ⟨inner, rfl⟩
  · rintro ⟨inner, rfl⟩
    exact ⟨rfl, List.getLast?_eq_some_iff.2 ⟨'[' :: inner, rfl⟩⟩

/-- The expressions of a port field other than `any`. -/
structure IsExpressionList (field : Text) (expressions : List Text) : Prop where
  ne_nil : expressions ≠ []
  comma_not_mem : ∀ e ∈ expressions, ',' ∉ e
  trim_eq : ∀ e ∈ expressions, Text.trim e = e
  length_eq : expressions.length = field.count ',' + 1
  join_bracketed : ∀ inner, field = '[' :: (inner ++ [']']) →
    Text.join ',' expressions = Text.tighten ',' inner
  join_bare : ¬IsBracketed field → Text.join ',' expressions = Text.tighten ',' field

def IsSide (field : Text) (list : List Text) : Prop :=
  (field = anyPort → list = []) ∧ (field ≠ anyPort → IsExpressionList field list)

theorem IsExpressionList.unique {field : Text} {es es' : List Text} (h : IsExpressionList field es)
    (h' : IsExpressionList field es') : es = es' := by
  have hjoin : Text.join ',' es = Text.join ',' es' := by
    by_cases hfield : IsBracketed field
    · obtain ⟨inner, hinner⟩ := isBracketed_iff.1 hfield
      rw [h.join_bracketed inner hinner, h'.join_bracketed inner hinner]
    · rw [h.join_bare hfield, h'.join_bare hfield]
  rw [← Text.splitOn_join h.ne_nil h.comma_not_mem, hjoin,
    Text.splitOn_join h'.ne_nil h'.comma_not_mem]

theorem IsSide.unique {field : Text} {list list' : List Text} (h : IsSide field list)
    (h' : IsSide field list') : list = list' := by
  by_cases hany : field = anyPort
  · rw [h.1 hany, h'.1 hany]
  · exact (h.2 hany).unique (h'.2 hany)

/-! ## The expressions of a field -/

/-- The text of a field inside its brackets, if it has them. -/
def inside (field : Text) : Text :=
  (Text.between? '[' ']' field).getD field

theorem expressions_eq (field : Text) :
    expressions field = (Text.splitOn ',' (inside field)).map Text.trim := rfl

theorem inside_bracketed (inner : Text) : inside ('[' :: (inner ++ [']'])) = inner := by
  rw [inside, Text.between?_eq_some_iff.2 rfl, Option.getD_some]

theorem inside_of_not_isBracketed {field : Text} (h : ¬IsBracketed field) :
    inside field = field := by
  cases hbetween : Text.between? '[' ']' field with
  | none => rw [inside, hbetween, Option.getD_none]
  | some inner =>
      exact absurd (isBracketed_iff.2 ⟨inner, Text.between?_eq_some_iff.1 hbetween⟩) h

theorem count_inside (field : Text) : (inside field).count ',' = field.count ',' := by
  by_cases h : IsBracketed field
  · obtain ⟨inner, rfl⟩ := isBracketed_iff.1 h
    rw [inside_bracketed]
    simp
  · rw [inside_of_not_isBracketed h]

theorem join_expressions (field : Text) :
    Text.join ',' (expressions field) = Text.tighten ',' (inside field) :=
  Text.join_map_trim_splitOn (by decide) (inside field)

theorem isExpressionList_expressions (field : Text) :
    IsExpressionList field (expressions field) where
  ne_nil := by
    rw [expressions_eq, ne_eq, List.map_eq_nil_iff]
    exact Text.splitOn_ne_nil ',' _
  comma_not_mem := by
    intro e he hcomma
    obtain ⟨piece, hpiece, rfl⟩ := List.mem_map.1 he
    exact Text.not_mem_of_mem_splitOn hpiece (Text.mem_of_mem_trim hcomma)
  trim_eq := by
    intro e he
    obtain ⟨piece, -, rfl⟩ := List.mem_map.1 he
    exact Text.trim_trim piece
  length_eq := by rw [expressions_eq, List.length_map, Text.length_splitOn, count_inside]
  join_bracketed := by
    rintro inner rfl
    rw [join_expressions, inside_bracketed]
  join_bare := by
    intro h
    rw [join_expressions, inside_of_not_isBracketed h]

theorem isSide_iff {field : Text} {list : List Text} : IsSide field list ↔ side field = list := by
  have hside : IsSide field (side field) := by
    by_cases hany : field = anyPort
    · rw [side, if_pos hany]
      exact ⟨fun _ => rfl, fun hne => absurd hany hne⟩
    · rw [side, if_neg hany]
      exact ⟨fun heq => absurd heq hany, fun _ => isExpressionList_expressions field⟩
  exact ⟨fun h => hside.unique h, fun h => h ▸ hside⟩

theorem side_eq_nil_iff {field : Text} : side field = [] ↔ field = anyPort := by
  constructor
  · intro h
    by_contra hne
    exact ((isSide_iff.2 h).2 hne).ne_nil rfl
  · rintro rfl
    rfl

theorem read?_eq_none_iff {source destination : Text} :
    read? source destination = none ↔ source = anyPort ∧ destination = anyPort := by
  rw [read?, ite_eq_left_iff]
  simp only [reduceCtorEq, imp_false, not_not]
  rw [isEmpty, Bool.and_eq_true, List.isEmpty_iff, List.isEmpty_iff, side_eq_nil_iff,
    side_eq_nil_iff]

theorem ne_default_of_read? {source destination : Text} {p : Ports}
    (h : read? source destination = some p) : p ≠ ⟨[], []⟩ := by
  obtain ⟨hempty, hp⟩ := Option.ite_none_left_eq_some.1 h
  cases hp
  exact fun hdefault => hempty ((isEmpty_iff _).2 hdefault)

theorem read?_eq_some_iff {source destination : Text} {p : Ports} :
    read? source destination = some p ↔
      ¬(source = anyPort ∧ destination = anyPort) ∧ IsSide source p.source ∧
        IsSide destination p.destination := by
  rw [isSide_iff, isSide_iff, ← read?_eq_none_iff]
  constructor
  · intro h
    rw [h]
    obtain ⟨-, hp⟩ := Option.ite_none_left_eq_some.1 h
    cases hp
    exact ⟨Option.some_ne_none _, rfl, rfl⟩
  · rintro ⟨hne, hsource, hdestination⟩
    obtain ⟨q, hq⟩ := Option.ne_none_iff_exists'.1 hne
    obtain ⟨-, hsides⟩ := Option.ite_none_left_eq_some.1 hq
    rw [hq, ← hsides, hsource, hdestination]

/-! ## Expressions that are written in a field -/

section Written

variable {es : List Text}

theorem map_trim_splitOn_join (hne : es ≠ []) (hes : ∀ e ∈ es, ',' ∉ e ∧ Text.trim e = e) :
    (Text.splitOn ',' (Text.join ',' es)).map Text.trim = es := by
  rw [Text.splitOn_join hne fun e he => (hes e he).1]
  exact (List.map_congr_left fun e he => (hes e he).2).trans (List.map_id es)

theorem expressions_join_iff (hne : es ≠ []) (hes : ∀ e ∈ es, ',' ∉ e ∧ Text.trim e = e) :
    expressions (Text.join ',' es) = es ↔ ¬IsBracketed (Text.join ',' es) := by
  constructor
  · -- what is read from inside the brackets is at least two characters shorter
    intro h hbracketed
    obtain ⟨inner, hinner⟩ := isBracketed_iff.1 hbracketed
    have hjoin : Text.join ',' es = Text.tighten ',' inner := by
      rw [← inside_bracketed inner, ← hinner, ← join_expressions, h]
    have hlength := Text.length_tighten_le ',' inner
    rw [← hjoin, hinner, List.length_cons, List.length_append] at hlength
    omega
  · intro h
    rw [expressions_eq, inside_of_not_isBracketed h, map_trim_splitOn_join hne hes]

theorem expressions_bracketed_join (hne : es ≠ [])
    (hes : ∀ e ∈ es, ',' ∉ e ∧ Text.trim e = e) :
    expressions ('[' :: (Text.join ',' es ++ [']'])) = es := by
  rw [expressions_eq, inside_bracketed, map_trim_splitOn_join hne hes]

end Written

end Ports

namespace Rule

/-- A rule that was read is written without port lists exactly when both of its port
fields are `any`. -/
theorem ports_not_mem_memberNames_iff {keepSource : Bool} {line : Text} {rule : Rule}
    (h : parse keepSource line = .ok rule) :
    "parsed_ports".toList ∉ rule.toJson.memberNames ↔
      rule.header.sourcePort = anyPort ∧ rule.header.destinationPort = anyPort := by
  obtain ⟨header, block, -, hparts⟩ := parse_eq_ok_iff.1 h
  obtain ⟨options, metadata, -, -, rfl⟩ := ofParts_eq_ok_iff.1 hparts
  have hheader : "parsed_ports".toList ∉ headerNames := by decide
  rw [memberNames_toJson, List.mem_append, not_or, and_iff_right hheader,
    (mem_optionalNames_iff _).1, not_not, portsMember_eq_nil_iff, ← Ports.read?_eq_none_iff,
    Option.eq_none_iff_forall_ne_some]
  exact forall_congr' fun p => ⟨fun hdefault hp => Ports.ne_default_of_read? hp (hdefault hp),
    fun hno hp => absurd hp hno⟩

end Rule

namespace Ports

/-- Two port fields give no lists exactly when both are `any`, and otherwise the lists of
their sides, which the fields determine. Expressions are read back from the field that
they are written in, in brackets always, and without brackets exactly when they do not
make up a pair of their own. A rule that was read has no member for its port lists,
and so no document of it has one, exactly when both of its port fields are `any`. -/
theorem read?_lists_expressions (source destination : Text) :
    (read? source destination = none ↔ source = anyPort ∧ destination = anyPort) ∧
      (∀ p, read? source destination = some p ↔
        ¬(source = anyPort ∧ destination = anyPort) ∧ IsSide source p.source ∧
          IsSide destination p.destination) ∧
      (∀ es : List Text, es ≠ [] → (∀ e ∈ es, ',' ∉ e ∧ Text.trim e = e) →
        expressions ('[' :: (Text.join ',' es ++ [']'])) = es ∧
          (expressions (Text.join ',' es) = es ↔ ¬IsBracketed (Text.join ',' es))) ∧
      ∀ (settings : Settings) (line : Text) (rule : Rule),
        Rule.parse settings.keepSource line = .ok rule →
          ("parsed_ports".toList ∉ rule.toJson.memberNames ↔
            rule.header.sourcePort = anyPort ∧ rule.header.destinationPort = anyPort) ∧
          ∀ document, settings.encode rule = .ok document →
            Json.parse? document = some rule.toJson := by
  refine ⟨read?_eq_none_iff, fun p => read?_eq_some_iff, ?_, ?_⟩
  · intro es hne hes
    exact ⟨expressions_bracketed_join hne hes, expressions_join_iff hne hes⟩
  · intro settings line rule hparse
    refine ⟨Rule.ports_not_mem_memberNames_iff hparse, fun document hencode => ?_⟩
    obtain ⟨hfaults, rfl⟩ := Json.encode_eq_ok_iff.1 hencode
    exact Json.parse?_text settings.layout hfaults

/-- An empty expression between blanks is one of the list, a pair of brackets that two
expressions make up is taken for that of the field, and port lists are left out when
both fields are `any`. -/
theorem read?_lists_expressions_brackets :
    let list := ["80".toList, [], "1024:".toList]
    let es := ["[a".toList, "b]".toList]
    read? "[ 80 ,\u00A0,1024:]".toList anyPort = some ⟨list, []⟩ ∧
      Text.join ',' list = Text.tighten ',' " 80 ,\u00A0,1024:".toList ∧
      expressions ('[' :: (Text.join ',' es ++ [']'])) = es ∧
      IsBracketed (Text.join ',' es) ∧ expressions (Text.join ',' es) ≠ es ∧
      ∃ rule, Rule.parse true "a b c any -> e any (k)".toList = .ok rule ∧
        "parsed_ports".toList ∉ rule.toJson.memberNames := by
  intro list es
  obtain ⟨-, hlists, hwritten, hrules⟩ :=
    read?_lists_expressions "[ 80 ,\u00A0,1024:]".toList anyPort
  have hread : read? "[ 80 ,\u00A0,1024:]".toList anyPort = some ⟨list, []⟩ := by decide +kernel
  obtain ⟨-, hsource, -⟩ := (hlists _).1 hread
  obtain ⟨hback, hbare⟩ := hwritten es (by decide) (by decide)
  have hbracketed : IsBracketed (Text.join ',' es) := ⟨by decide, by decide⟩
  obtain ⟨rule, hrule⟩ : ∃ rule, Rule.parse true "a b c any -> e any (k)".toList = .ok rule :=
    ⟨_, rfl⟩
  have hheader : rule.header.sourcePort = anyPort ∧ rule.header.destinationPort = anyPort := by
    cases hrule
    exact ⟨rfl, rfl⟩
  exact ⟨hread, (hsource.2 (by decide)).join_bracketed _ (by decide), hback, hbracketed,
    fun h => hbare.1 h hbracketed, rule, hrule, (hrules {} _ rule hrule).1.2 hheader⟩

end Ports

end IdsRules
