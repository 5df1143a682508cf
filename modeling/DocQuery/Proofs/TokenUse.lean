import DocQuery.Proofs.ConditionMeaning
import DocQuery.Proofs.ProjectionMeaning
import DocQuery.Proofs.TokenScan
import DocQuery.Proofs.UpdateMeaning

/-!
# DocQuery.Proofs.TokenUse

Which tokens a computation registers.

A computation that succeeds registers the tokens of its result and no others, where tokens that
were registered before may occur in the result again. A computation that fails may leave tokens
behind that no expression uses, which is why nothing is built of it.
-/

namespace DocQuery

open Compile

/-! ### Added tokens -/

/-- The tokens of a kind that stand for something. -/
def Placeholders.keys (p : Placeholders) : TokenKind → List Token
  | .name => p.names.keys
  | .value => p.values.keys

/-- Registrations after which the tokens are those from before and the given ones, each of them
made for the request. -/
structure Adds (p q : Placeholders) (tokens : TokenKind → List Token) : Prop where
  reaches : Placeholders.Reaches p q
  keys : ∀ kind token, token ∈ q.keys kind ↔ token ∈ p.keys kind ∨ token ∈ tokens kind
  made : Made tokens

theorem Ascending.mem_keys_insert {α : Type} (m : KeyMap α) (key : String) (value : α)
    (other : String) : other ∈ (m.insert key value).keys ↔ other ∈ m.keys ∨ other = key := by
  rw [mem_keys_iff, mem_keys_iff]
  by_cases here : key = other
  · -- The key itself is bound after the insertion, whether or not it was before.
    subst here
    simp
  · simp [get?_insert_of_ne m here, Ne.symm here]

namespace Adds

variable {p q r : Placeholders} {tokens others : TokenKind → List Token}

theorem nothing (p : Placeholders) : Adds p p fun _ => [] where
  reaches := .refl
  keys kind token := by simp
  made := by simp [Made]

theorem append (first : Adds p q tokens) (second : Adds q r others) :
    Adds p r fun kind => tokens kind ++ others kind where
  reaches := first.reaches.trans second.reaches
  keys kind token := by
    rw [second.keys kind token, first.keys kind token, List.mem_append, or_assoc]
  made := made_append.mpr ⟨first.made, second.made⟩

theorem congr (adds : Adds p q tokens)
    (same : ∀ kind token, token ∈ tokens kind ↔ token ∈ others kind) : Adds p q others where
  reaches := adds.reaches
  keys kind token := by rw [adds.keys kind token, same kind token]
  made kind token member := adds.made kind token ((same kind token).mpr member)

end Adds

theorem Compile.Threaded.adds {ι α : Type} {compile : ι → Compile α}
    {tokens : α → TokenKind → List Token}
    (each : ∀ {input p a q}, (compile input).runFrom p = (.ok a, q) → Adds p q (tokens a))
    {p q : Placeholders} {inputs : List ι} {results : List α}
    (ran : Threaded compile p inputs results q) :
    Adds p q fun kind => results.flatMap fun a => tokens a kind := by
  induction ran with
  | nil p => exact .nothing p
  | cons head _ ih => exact (each head).append ih

/-! ### Naming and binding -/

namespace Naming

theorem nameAttribute_adds (name : String) (p : Placeholders) :
    Adds p (nameAttribute name p).2 fun kind => kind.ifName [(nameAttribute name p).1] := by
  refine ⟨(composed_nameAttribute name).registers p, fun kind token => ?_,
    made_ifName.mpr (by simpa using nameAttribute_isNameToken name p)⟩
  cases kind with
  | name =>
    simp only [TokenKind.ifName_name, List.mem_singleton]
    exact Ascending.mem_keys_insert p.names _ name token
  | value => simp [Placeholders.keys, nameAttribute]

theorem bindValue_adds (key : String) (value : AttributeValue) (p : Placeholders) :
    Adds p (bindValue key value p).2 fun kind => kind.ifValue [(bindValue key value p).1] := by
  refine ⟨(composed_bindValue key value).registers p, fun kind token => ?_,
    made_ifValue.mpr (by simpa using .inl (bindValue_isValueToken key value p))⟩
  cases kind with
  | name => simp [Placeholders.keys, bindValue]
  | value =>
    simp only [TokenKind.ifValue_value, List.mem_singleton]
    exact Ascending.mem_keys_insert p.values _ value token

theorem bindEmptyList_adds (p : Placeholders) :
    Adds p (bindEmptyList p).2 fun kind => kind.ifValue [emptyListToken] := by
  refine ⟨composed_bindEmptyList.registers p, fun kind token => ?_,
    made_ifValue.mpr (by simp [TokenKind.IsToken])⟩
  cases kind with
  | name => simp [Placeholders.keys, bindEmptyList]
  | value =>
    simp only [TokenKind.ifValue_value, List.mem_singleton]
    simp only [Placeholders.keys, bindEmptyList]
    split
    next => exact Ascending.mem_keys_insert p.values _ _ token
    next found =>
      -- The token is there already.
      have present : emptyListToken ∈ p.values.keys := by
        simp [Ascending.mem_keys_iff, found]
      constructor
      · exact .inl
      · rintro (before | rfl)
        · exact before
        · exact present

theorem namePath_adds (path : Path) (p : Placeholders) :
    Adds p (namePath path p).2 (namePath path p).1.tokens := by
  induction path generalizing p with
  | nil =>
    apply (Adds.nothing p).congr
    intro kind token
    cases kind <;> rfl
  | cons step rest ih =>
    rw [namePath_cons]
    apply ((nameAttribute_adds step.name p).append (ih _)).congr
    intro kind token
    cases kind <;> simp [Path.tokens]

end Naming

/-- Values that are bound in turn add their tokens. -/
theorem Placeholders.Binds.adds {p q : Placeholders} {values : List AttributeValue}
    {tokens : List Token} (binds : p.Binds values tokens q) :
    Adds p q fun kind => kind.ifValue tokens := by
  induction binds with
  | nil p =>
    apply (Adds.nothing p).congr
    intro kind token
    cases kind <;> rfl
  | value key value _ ih =>
    apply ((Naming.bindValue_adds key value _).append ih).congr
    intro kind token
    cases kind <;> simp
  | emptyList _ ih =>
    apply ((Naming.bindEmptyList_adds _).append ih).congr
    intro kind token
    cases kind <;> simp

/-! ### Questions, actions and projections -/

/-- A question registers the tokens of its predicate. -/
theorem compileQuestion_adds {question : String × Document} {predicate : Predicate}
    {p q : Placeholders} (ran : (compileQuestion question).runFrom p = (.ok predicate, q)) :
    Adds p q predicate.tokens := by
  obtain ⟨named, ⟨values, binds⟩, -⟩ := compileQuestion_isCompiled ran
  have names := Naming.namePath_adds (.ofText question.1) p
  change Adds p _ (Naming.nameText question.1 p).1.tokens at names
  rw [← named] at names
  exact names.append binds.adds

/-- An action registers its own tokens. -/
theorem compileUpdateField_adds {field : UpdateField} {action : Action} {p q : Placeholders}
    (ran : (compileUpdateField field).runFrom p = (.ok action, q)) : Adds p q action.tokens := by
  obtain ⟨named, values, binds⟩ := compileAction_binds ran
  have names := Naming.namePath_adds (.ofText field.path) p
  change Adds p _ (Naming.nameText field.path p).1.tokens at names
  rw [← named] at names
  exact names.append binds.adds

theorem nameTexts_adds (paths : List String) (p : Placeholders) :
    Adds p (nameTexts paths p).2 fun kind => (nameTexts paths p).1.flatMap fun path =>
      path.tokens kind := by
  induction paths generalizing p with
  | nil => exact .nothing p
  | cons path rest ih =>
    rw [nameTexts_cons]
    exact (Naming.namePath_adds _ p).append (ih _)

end DocQuery
