import DocQuery.Proofs.Layering
import DocQuery.Proofs.Nesting

/-!
# DocQuery.Proofs.AppendGuard

The lists that appends start from.

An append to an attribute that is missing starts from what the guard of the append stands for. All
guards are one token, and that is bound to the empty list unless it is bound already. So if a value
is bound to this token before an update is compiled, then all of its appends start from that value.

## Main results

`guards_resolve?`: what the guards of a change stand for.
`append_guards_bound`: the guards of a compiled update, and when they are all bound to the empty
list.
-/

namespace DocQuery

open Compile

/-! ### Guards -/

section Guards

variable {α : Type}

def Operand.fallback? : Operand α → Option α
  | .value _ => none
  | .orElse _ fallback => some fallback

namespace Change

/-- What the operands of a `list_append` fall back on. -/
def guards : Change α → List α
  | .concat _ first second => first.fallback?.toList ++ second.fallback?.toList
  | _ => []

/-- The guards in a text, as it is read. -/
def sectionGuards (sections : List (Clause × List (Change α))) : List α :=
  sections.flatMap fun part => part.2.flatMap guards

theorem guards_eq_nil {change : Change α} (notSet : change.clause ≠ .set) :
    change.guards = [] := by
  cases change with
  | assign | concat => exact absurd rfl notSet
  | remove | add | delete => rfl

theorem guards_inClause (changes : List (Change α)) (clause : Clause) :
    (inClause changes clause).flatMap guards =
      if clause = .set then changes.flatMap guards else [] := by
  induction changes with
  | nil => simp [inClause]
  | cons change rest ih =>
    unfold inClause at ih ⊢
    by_cases here : change.clause = clause
    · subst here
      -- The change is kept, and has guards only if its clause is the first one.
      rw [List.filter_cons_of_pos (by simp), List.flatMap_cons, List.flatMap_cons, ih]
      by_cases isSet : change.clause = .set
      · simp only [isSet, if_true]
      · simp only [isSet, if_false, guards_eq_nil isSet, List.nil_append]
    · -- The change is dropped; where the first clause is asked for it has no guards to lose.
      rw [List.filter_cons_of_neg (by simpa using here), ih, List.flatMap_cons]
      split
      next isSet => rw [guards_eq_nil (isSet ▸ here), List.nil_append]
      next => rfl

/-- A clause that is left out has no guards. -/
theorem sectionGuards_filter (parts : List (Clause × List (Change α))) :
    sectionGuards (parts.filter (·.2 ≠ [])) = sectionGuards parts := by
  unfold sectionGuards
  induction parts with
  | nil => rfl
  | cons part rest ih =>
    by_cases empty : part.2 = []
    · rw [List.filter_cons_of_neg (by simpa using empty), ih, List.flatMap_cons, empty]
      rfl
    · rw [List.filter_cons_of_pos (by simpa using empty), List.flatMap_cons, List.flatMap_cons, ih]

/-- Only the first clause has guards, and they keep their order in it. -/
theorem sectionGuards_sections (changes : List (Change α)) :
    sectionGuards (sections changes) = changes.flatMap guards := by
  rw [sections, sectionGuards_filter]
  simp [sectionGuards, clauseOrder, guards_inClause]

end Change

end Guards

/-- The guards of the appends of an update, in the order of its actions. -/
def Update.guards (update : Update) : List Token :=
  List.flatMap Change.guards (update.map Action.change)

/-! ### What guards stand for -/

section Resolved

variable {p : Placeholders}

theorem Operand.fallback?_resolve? {operand : Operand Token} {resolved : Operand AttributeValue}
    (resolves : operand.resolve? p = some resolved) :
    List.Forall₂ (fun token value => p.values.get? token = some value)
      operand.fallback?.toList resolved.fallback?.toList := by
  cases operand with
  | value token =>
    obtain ⟨value, -, rfl⟩ := Option.map_eq_some_iff.mp resolves
    exact .nil
  | orElse path token =>
    simp only [resolve?, Option.bind_eq_bind, Option.bind_eq_some_iff, Option.pure_def,
      Option.some.injEq] at resolves
    obtain ⟨_, -, value, bound, rfl⟩ := resolves
    exact .cons bound .nil

/-- The guards of a change stand for those of the change that it resolves to. -/
theorem Change.guards_resolve? {change : Change Token} {resolved : Change AttributeValue}
    (resolves : change.resolve? p = some resolved) :
    List.Forall₂ (fun token value => p.values.get? token = some value)
      change.guards resolved.guards := by
  by_cases isSet : change.clause = .set
  · cases change with
    | assign path operand =>
      simp only [resolve?, Option.bind_eq_bind, Option.bind_eq_some_iff, Option.pure_def,
        Option.some.injEq] at resolves
      obtain ⟨_, -, _, -, rfl⟩ := resolves
      exact .nil
    | concat path first second =>
      simp only [resolve?, Option.bind_eq_bind, Option.bind_eq_some_iff, Option.pure_def,
        Option.some.injEq] at resolves
      obtain ⟨_, -, one, firstResolves, two, secondResolves, rfl⟩ := resolves
      exact List.rel_append (Operand.fallback?_resolve? firstResolves)
        (Operand.fallback?_resolve? secondResolves)
    | remove | add | delete => cases isSet
  · -- Resolving leaves a change in its clause.
    rw [guards_eq_nil isSet, guards_eq_nil (clause_resolve? resolves ▸ isSet)]
    exact .nil

end Resolved

/-! ### Guards that are asked for -/

namespace UpdateField

/-- Whether a field asks for elements at either end of a list. -/
def IsAppend (field : UpdateField) : Prop :=
  field.operator = .push ∨ field.operator = .unshift

instance : DecidablePred IsAppend := fun _ => inferInstanceAs (Decidable (_ ∨ _))

/-- The fields of a document that ask for appends. -/
def appends (document : Document) : List UpdateField :=
  (ofDocument document).filter IsAppend

/-- Each append has one guard, and nothing else has any. -/
theorem guards_change? {empty : AttributeValue} {field : UpdateField}
    {change : Change AttributeValue} (asked : field.change? empty = some change) :
    change.guards = if field.IsAppend then [empty] else [] := by
  obtain ⟨operator, path, operand⟩ := field
  cases operator with
  | set =>
    simp only [change?, Change.assignment] at asked
    split at asked <;> cases asked <;> rfl
  | unset =>
    cases asked
    rfl
  | inc =>
    simp only [change?] at asked
    split at asked <;> cases asked
    rfl
  | push | unshift =>
    -- The path falls back on the empty list; the elements beside it fall back on nothing.
    simp only [change?, Option.bind_eq_bind, Option.bind_eq_some_iff, Option.pure_def,
      Option.some.injEq] at asked
    obtain ⟨elements, -, rfl⟩ := asked
    rfl
  | addToSet | removeFromSet =>
    simp only [change?, Option.bind_eq_bind, Option.bind_eq_some_iff, Option.pure_def,
      Option.some.injEq] at asked
    obtain ⟨members, -, set, -, rfl⟩ := asked
    rfl

/-- A document asks for as many guards as it has appends. -/
theorem guards_ofDocument? {empty : AttributeValue} {document : Document}
    {changes : List (Change AttributeValue)}
    (asked : Change.ofDocument? empty document = some changes) :
    changes.flatMap Change.guards = List.replicate (appends document).length empty := by
  unfold Change.ofDocument? at asked
  unfold appends
  generalize ofDocument document = fields at asked
  induction mapM_eq_some_iff.mp asked with
  | nil => rfl
  | @cons field change _ _ head tail ih =>
    rw [List.flatMap_cons, guards_change? head, ih (mapM_eq_some_iff.mpr tail)]
    by_cases isAppend : field.IsAppend
    · rw [if_pos isAppend, List.filter_cons_of_pos (by simpa using isAppend), List.length_cons,
        List.replicate_succ, List.singleton_append]
    · rw [if_neg isAppend, List.filter_cons_of_neg (by simpa using isAppend), List.nil_append]

end UpdateField

/-! ### Guards of a compiled update -/

theorem forall_of_forall₂_replicate {α β : Type} {related : α → β → Prop} {items : List α}
    {value : β} {n : Nat} (all : List.Forall₂ related items (List.replicate n value)) :
    ∀ item ∈ items, related item value := by
  induction items generalizing n with
  | nil => exact List.forall_mem_nil _
  | cons item rest ih =>
    cases n with
    | zero => cases all
    | succ n =>
      obtain ⟨head, tail⟩ := List.forall₂_cons.mp all
      exact List.forall_mem_cons.mpr ⟨head, ih tail⟩

/-- There is a guard for each append, and all of them stand for one value. -/
theorem compileUpdate_guards {document : Document} {update : Update} {p q : Placeholders}
    (ran : (compileUpdate document).runFrom p = (.ok update, q)) :
    update.guards.length = (UpdateField.appends document).length ∧
      ∀ token ∈ update.guards, q.values.get? token = some p.emptyList := by
  -- The actions resolve to the changes that are asked for, and so their guards to the guards asked
  -- for; these are all the same value.
  obtain ⟨changes, asked, resolved⟩ := compileUpdate_changes ran (le_refl q)
  have stand := List.rel_flatMap (mapM_eq_some_iff.mp resolved) fun _ _ => Change.guards_resolve?
  simp only [Function.swap, UpdateField.guards_ofDocument? asked] at stand
  have bound := forall_of_forall₂_replicate stand
  refine ⟨?_, bound⟩
  rw [Update.guards, stand.length_eq, List.length_replicate]

/-- All guards stand for the empty list if there is none, or if nothing else is bound to its
token. -/
theorem guards_hold_emptyList_iff {document : Document} {update : Update} {p q : Placeholders}
    (ran : (compileUpdate document).runFrom p = (.ok update, q)) :
    (∀ token ∈ update.guards, q.values.get? token = some .emptyList) ↔
      UpdateField.appends document = [] ∨ p.values.get? emptyListToken = none ∨
        p.values.get? emptyListToken = some .emptyList := by
  obtain ⟨asMany, bound⟩ := compileUpdate_guards ran
  rw [← Placeholders.emptyList_eq_iff, ← List.length_eq_zero_iff, ← asMany]
  constructor
  · intro allEmpty
    cases guards : update.guards with
    | nil => exact .inl rfl
    | cons token rest =>
      -- The first guard is bound to both, so they are the same.
      have member : token ∈ update.guards := guards ▸ List.mem_cons_self
      exact .inr (Option.some.inj ((bound token member).symm.trans (allEmpty token member)))
  · rintro (none | same) token member
    · rw [List.length_eq_zero_iff.mp none] at member
      cases member
    · rw [bound token member, same]

/-- The guards of a compiled update are in its text, one for each append. They all are bound to
what the existing values bind to the token of the empty list, and to the empty list if these have
no such token. So all appends start from the empty list just if there is no append, or if the
existing values bind nothing else to that token. All existing values are kept in any case. -/
theorem append_guards_bound {document : Document} {existing : Item} {compiled : CompiledUpdate}
    (result : CompiledUpdate.ofDocument document existing = .ok compiled) :
    existing.Within compiled.values ∧
      ∃ update q, (compileUpdate document).runFrom { values := existing } = (.ok update, q) ∧
        compiled = ⟨update.text, q.names, q.values⟩ ∧
        (UpdateField.WellFormed document →
          (readUpdate compiled.expression).map Change.sectionGuards = some update.guards) ∧
        update.guards.length = (UpdateField.appends document).length ∧
        (∀ token ∈ update.guards,
          compiled.values.get? token = some ((existing.get? emptyListToken).getD .emptyList)) ∧
        ((∀ token ∈ update.guards, compiled.values.get? token = some .emptyList) ↔
          UpdateField.appends document = [] ∨ existing.get? emptyListToken = none ∨
            existing.get? emptyListToken = some .emptyList) := by
  obtain ⟨update, q, ran, rfl⟩ := CompiledUpdate.ofDocument_eq_ok result
  have grown := (composed_compileUpdate document).le ran
  obtain ⟨asMany, bound⟩ := compileUpdate_guards ran
  refine ⟨grown.2, update, q, ran, rfl, fun wellFormed => ?_, asMany, bound,
    guards_hold_emptyList_iff ran⟩
  rw [readUpdate_text (compileUpdate_spelled wellFormed ran), Option.map_some,
    Change.sectionGuards_sections, Update.guards]

/-- A document that appends to one attribute at both ends. -/
def appendBothEnds : Document :=
  .object [("$push", .object [("a", .null)]), ("$set", .object [("b", .null)]),
    ("$unshift", .object [("a", .object [("$each", .array [])])])]

/-- Both guards stand for the empty list, beside a token that is bound to it already. -/
theorem appendBothEnds_guards_bound :
    let existing := (∅ : Item).insert ":v_a" .emptyList
    ∃ compiled update q, CompiledUpdate.ofDocument appendBothEnds existing = .ok compiled ∧
      (compileUpdate appendBothEnds).runFrom { values := existing } = (.ok update, q) ∧
      (readUpdate compiled.expression).map Change.sectionGuards = some update.guards ∧
      update.guards.length = 2 ∧
      (∀ token ∈ update.guards, compiled.values.get? token = some .emptyList) ∧
      existing.Within compiled.values := by
  intro existing
  have succeeds : (CompiledUpdate.ofDocument appendBothEnds existing).isOk = true := by
    decide +kernel
  obtain ⟨compiled, result⟩ := exists_ok_of_isOk succeeds
  obtain ⟨within, update, q, ran, rfl, read, asMany, -, allEmpty⟩ := append_guards_bound result
  have wellFormed : UpdateField.WellFormed appendBothEnds := by
    unfold UpdateField.WellFormed
    decide +kernel
  exact ⟨_, update, q, result, ran, read wellFormed, asMany, allEmpty.mpr (by decide +kernel),
    within⟩

/-- The token of the empty list is not numbered on where it stands for something else, so an append
starts from that. -/
theorem append_starts_from_text :
    let existing := (∅ : Item).insert ":_v_empty_list" (.string "x")
    ∃ compiled, CompiledUpdate.ofDocument (.object [("$push", .object [("a", .bool true)])])
        existing = .ok compiled ∧
      compiled.expression =
        "SET #k_a=list_append(if_not_exists(#k_a, :_v_empty_list), :v_a)" ∧
      (readUpdate compiled.expression).map Change.sectionGuards = some [":_v_empty_list"] ∧
      compiled.values.get? ":_v_empty_list" = some (.string "x") := by
  refine ⟨⟨"SET #k_a=list_append(if_not_exists(#k_a, :_v_empty_list), :v_a)",
    (∅ : KeyMap String).insert "#k_a" "a",
    ((∅ : Item).insert ":_v_empty_list" (.string "x")).insert ":v_a" (.list [.bool true])⟩,
    ?_, rfl, ?_, ?_⟩
  all_goals decide +kernel

end DocQuery
