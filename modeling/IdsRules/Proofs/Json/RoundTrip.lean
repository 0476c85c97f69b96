import IdsRules.Json.Reader
import IdsRules.Proofs.Json.Token

/-!
# Reading a document gives its value back

The tokens of a value take the machine from where a value is expected to where
that value is complete, whatever containers are open around it, and what follows
is read from there. Together with the tokens of a written document this gives
`parse?_text`: in either layout a value that can be written is read back, so the
two layouts are texts of the same value and a text has one value.
-/

namespace IdsRules.Json

namespace Machine

/-- A machine that expects a value: in front of a value, or behind the bracket
that opens an array. -/
def ExpectsValue (mode : Mode) : Prop :=
  mode = .value ∨ mode = .firstItem

theorem run?_of_step {m m' : Machine} {token : Token} (h : m.step? token = some m')
    (tokens : List Token) : run? m (token :: tokens) = run? m' tokens := by
  rw [run?_cons, h, Option.bind_some]

/-- Where a value is expected, a token that does not close an array starts
one. -/
theorem step?_of_expectsValue {mode : Mode} (hmode : ExpectsValue mode) (stack : List Frame)
    {token : Token} (htoken : token ≠ .closeArray) :
    step? ⟨stack, mode⟩ token = beginValue? stack token := by
  rcases hmode with rfl | rfl
  · rfl
  · cases token with
    | closeArray => exact absurd rfl htoken
    | _ => rfl

/-- A value of one token. -/
theorem run?_single {mode : Mode} (hmode : ExpectsValue mode) (stack : List Frame)
    {token : Token} {v : Json} (htoken : token ≠ .closeArray)
    (hbegin : beginValue? stack token = complete? stack v) (more : List Token) :
    run? ⟨stack, mode⟩ (token :: more) = (complete? stack v).bind (run? · more) := by
  rw [run?_cons, step?_of_expectsValue hmode stack htoken, hbegin]

mutual

/-- The tokens of a value complete it, and what follows is read from there. -/
theorem run?_tokens {mode : Mode} (hmode : ExpectsValue mode) (stack : List Frame) (v : Json)
    (more : List Token) :
    run? ⟨stack, mode⟩ (tokens v ++ more) = (complete? stack v).bind (run? · more) := by
  match v with
  | .null => exact run?_single hmode stack (by simp) rfl more
  | .bool b => exact run?_single hmode stack (by simp) rfl more
  | .integer n => exact run?_single hmode stack (by simp) rfl more
  | .float x => exact run?_single hmode stack (by simp) rfl more
  | .string s => exact run?_single hmode stack (by simp) rfl more
  | .array [] =>
      have hopen : step? ⟨stack, mode⟩ .openArray = some ⟨.array [] :: stack, .firstItem⟩ :=
        step?_of_expectsValue hmode stack (by simp)
      exact run?_of_step hopen _
  | .array (item :: items) =>
      have hopen : step? ⟨stack, mode⟩ .openArray = some ⟨.array [] :: stack, .firstItem⟩ :=
        step?_of_expectsValue hmode stack (by simp)
      rw [tokens, List.cons_append, run?_of_step hopen, List.append_assoc,
        run?_tokens (Or.inr rfl) (.array [] :: stack) item, complete?, Option.bind_some,
        run?_tokensOfItems stack [item] items]
      rfl
  | .object [] =>
      have hopen : step? ⟨stack, mode⟩ .openObject = some ⟨.object [] :: stack, .firstName⟩ :=
        step?_of_expectsValue hmode stack (by simp)
      exact run?_of_step hopen _
  | .object ((name, value) :: members) =>
      have hopen : step? ⟨stack, mode⟩ .openObject = some ⟨.object [] :: stack, .firstName⟩ :=
        step?_of_expectsValue hmode stack (by simp)
      have hname : step? ⟨.object [] :: stack, .firstName⟩ (.string name)
          = some ⟨.member [] name :: stack, .colon⟩ := rfl
      have hcolon : step? ⟨.member [] name :: stack, .colon⟩ .colon
          = some ⟨.member [] name :: stack, .value⟩ := rfl
      rw [tokens, List.cons_append, List.cons_append, List.cons_append, run?_of_step hopen,
        run?_of_step hname, run?_of_step hcolon, List.append_assoc,
        run?_tokens (Or.inl rfl) (.member [] name :: stack) value, complete?, Option.bind_some,
        run?_tokensOfMembers stack [(name, value)] members]
      rfl

/-- Behind an item, the tokens of the other items complete the array. -/
theorem run?_tokensOfItems (stack : List Frame) (read items : List Json) (more : List Token) :
    run? ⟨.array read :: stack, .next⟩ (tokensOfItems items ++ more) =
      (complete? stack (.array (read.reverse ++ items))).bind (run? · more) := by
  match items with
  | [] =>
      rw [List.append_nil]
      rfl
  | item :: items =>
      have hcomma : step? ⟨.array read :: stack, .next⟩ .comma
          = some ⟨.array read :: stack, .value⟩ := rfl
      rw [tokensOfItems, List.cons_append, run?_of_step hcomma, List.append_assoc,
        run?_tokens (Or.inl rfl) (.array read :: stack) item, complete?, Option.bind_some,
        run?_tokensOfItems stack (item :: read) items, List.reverse_cons, List.append_assoc,
        List.singleton_append]

/-- Behind a member, the tokens of the other members complete the object. -/
theorem run?_tokensOfMembers (stack : List Frame) (read members : List (Text × Json))
    (more : List Token) :
    run? ⟨.object read :: stack, .next⟩ (tokensOfMembers members ++ more) =
      (complete? stack (.object (read.reverse ++ members))).bind (run? · more) := by
  match members with
  | [] =>
      rw [List.append_nil]
      rfl
  | (name, value) :: members =>
      have hcomma : step? ⟨.object read :: stack, .next⟩ .comma
          = some ⟨.object read :: stack, .name⟩ := rfl
      have hname : step? ⟨.object read :: stack, .name⟩ (.string name)
          = some ⟨.member read name :: stack, .colon⟩ := rfl
      have hcolon : step? ⟨.member read name :: stack, .colon⟩ .colon
          = some ⟨.member read name :: stack, .value⟩ := rfl
      rw [tokensOfMembers, List.cons_append, List.cons_append, List.cons_append,
        run?_of_step hcomma, run?_of_step hname, run?_of_step hcolon, List.append_assoc,
        run?_tokens (Or.inl rfl) (.member read name :: stack) value, complete?, Option.bind_some,
        run?_tokensOfMembers stack ((name, value) :: read) members, List.reverse_cons,
        List.append_assoc, List.singleton_append]

end

/-- The tokens of a document are read as its value. -/
theorem result?_run?_tokens (v : Json) :
    (run? .initial (tokens v)).bind result? = some v := by
  have h := run?_tokens (Or.inl rfl) [] v []
  rw [List.append_nil] at h
  change (run? ⟨[], .value⟩ (tokens v)).bind result? = some v
  rw [h]
  rfl

end Machine

/-- A value that can be written is read back from its document, in either
layout. -/
theorem parse?_text (layout : Layout) {v : Json} (hv : faults v = []) :
    parse? (text layout v) = some v := by
  rw [parse?, read?_text layout v hv, Option.bind_some, Machine.result?_run?_tokens]

end IdsRules.Json
