import DocQuery.Proofs.Nesting
import DocQuery.Proofs.UpdateReader
import DocQuery.Proofs.Vocabulary

/-!
# DocQuery.Proofs.UpdateMeaning

A compiled update does what its update document asks.

The fields under the operators of a document are walked in document order. Each of them asks for
one change, and is compiled to one action that makes this change and no other.

## Main results

`compileUpdate_threaded`: the fields under the operators are compiled one after the other.
`compileAction_changes`: an action makes the change that its field asks for.
-/

namespace DocQuery

open Compile
open Placeholders (Reaches)

/-! ### What a document asks for -/

/-- One field under an operator. -/
structure UpdateField where
  operator : UpdateOperator
  path : String
  operand : Document

/-- The documents under `$each`, or the operand alone. -/
def elements? : Document → Option (List Document)
  | .object [("$each", .array items)] => some items
  | .object [("$each", _)] => none
  | operand => some [operand]

/-- The documents under `$each`, those of an array, or the operand alone. -/
def members? (operand : Document) : Option (List Document) :=
  match operand with
  | .array items => some items
  | _ => elements? operand

def Document.string? : Document → Option String
  | .string text => some text
  | _ => none

def Document.number? : Document → Option Number
  | .number value => some value
  | _ => none

/-- A set holds strings only or numbers only, and at least one. -/
def setOf? : List Document → Option AttributeValue
  | [] => none
  | members =>
    match members.mapM Document.string?, members.mapM Document.number? with
    | some texts, _ => some (.stringSet texts.eraseDups)
    | none, some numbers => some (.numberSet (numbers.map Number.text).eraseDups)
    | none, none => none

/-- What is assigned to a path: the document under `$ifNotExists` if there is nothing yet, or the
operand. -/
def Change.assignment (path : Path) : Document → Change AttributeValue
  | .object [("$ifNotExists", fallback)] => .assign path (.orElse path (.ofDocument fallback))
  | operand => .assign path (.value (.ofDocument operand))

namespace UpdateField

/-- The change that a field asks for, where lists start from `empty` if there is none. -/
def change? (empty : AttributeValue) (field : UpdateField) : Option (Change AttributeValue) :=
  let path := Path.ofText field.path
  match field.operator with
  | .set => some (.assignment path field.operand)
  | .unset => some (.remove path)
  | .inc =>
    match field.operand with
    | .number value => some (.add path (.ofDocument (.number value)))
    | _ => none
  | .push => do
    let elements ← elements? field.operand
    return .concat path (.orElse path empty) (.value (.list (elements.map .ofDocument)))
  | .unshift => do
    let elements ← elements? field.operand
    return .concat path (.value (.list (elements.map .ofDocument))) (.orElse path empty)
  | .addToSet => return .add path (← setOf? (← members? field.operand))
  | .removeFromSet => return .delete path (← setOf? (← members? field.operand))

/-- The fields under the operators among some keys; other keys are passed over. -/
def ofEntries : Fields → List UpdateField
  | [] => []
  | (key, argument) :: rest =>
    match UpdateOperator.named? key, argument with
    | some operator, .object fields =>
      fields.map (fun (path, operand) => ⟨operator, path, operand⟩) ++ ofEntries rest
    | _, _ => ofEntries rest

def ofDocument : Document → List UpdateField
  | .object entries => ofEntries entries
  | _ => []

end UpdateField

/-- The changes that an update document asks for, in document order. -/
def Change.ofDocument? (empty : AttributeValue) (document : Document) :
    Option (List (Change AttributeValue)) :=
  (UpdateField.ofDocument document).mapM (UpdateField.change? empty)

/-! ### Changes and their values -/

def Operand.resolve? (p : Placeholders) : Operand Token → Option (Operand AttributeValue)
  | .value token => (p.values.get? token).map .value
  | .orElse path token => do
    return .orElse (← path.resolve? p) (← p.values.get? token)

/-- A change with its tokens replaced by what they stand for. -/
def Change.resolve? (p : Placeholders) : Change Token → Option (Change AttributeValue)
  | .assign path operand => do
    return .assign (← path.resolve? p) (← operand.resolve? p)
  | .concat path first second => do
    return .concat (← path.resolve? p) (← first.resolve? p) (← second.resolve? p)
  | .remove path => (path.resolve? p).map .remove
  | .add path token => do
    return .add (← path.resolve? p) (← p.values.get? token)
  | .delete path token => do
    return .delete (← path.resolve? p) (← p.values.get? token)

/-! ### Operands -/

theorem Change.assignment_of_ne (path : Path) {operand : Document}
    (notFallback : ∀ fallback, operand ≠ .object [("$ifNotExists", fallback)]) :
    assignment path operand = .assign path (.value (.ofDocument operand)) := by
  unfold assignment
  split
  next fallback => exact absurd rfl (notFallback fallback)
  next => rfl

section Operands

variable {path : String} {operand : Document} {value : AttributeValue}

theorem elements?_of_ne (notEach : ∀ argument, operand ≠ .object [("$each", argument)]) :
    elements? operand = some [operand] := by
  unfold elements?
  split
  next items => exact absurd rfl (notEach (.array items))
  next argument _ => exact absurd rfl (notEach argument)
  next => rfl

theorem each?_ok {items : Option (List Document)} (listed : each? path operand = .ok items) :
    elements? operand = some (items.getD [operand]) := by
  unfold each? at listed
  cases found : operand.soleField? "$each" with
  | none =>
    rw [found] at listed
    cases listed
    exact elements?_of_ne (Document.soleField?_eq_none_iff.mp found)
  | some argument =>
    rw [found] at listed
    obtain rfl := Document.soleField?_eq_some_iff.mp found
    cases argument with
    | array items =>
      cases listed
      rfl
    | _ => cases listed

theorem listOperand_ok (made : listOperand path operand = .ok value) :
    ∃ elements, elements? operand = some elements ∧
      value = .list (elements.map .ofDocument) := by
  unfold listOperand at made
  cases listed : each? path operand with
  | error => rw [listed] at made; cases made
  | ok items =>
    rw [listed] at made
    cases made
    exact ⟨_, each?_ok listed, rfl⟩

theorem mapM_stringMember? (members : List Document) :
    members.mapM stringMember? = members.mapM Document.string? :=
  mapM_congr_of_mem fun member _ => by cases member <;> rfl

/-- Numbers are members as their texts. -/
theorem mapM_numberMember? (members : List Document) :
    members.mapM numberMember? = (members.mapM Document.number?).map (List.map Number.text) := by
  induction members with
  | nil => rfl
  | cons member rest ih =>
    have head : numberMember? member = member.number?.map Number.text := by cases member <;> rfl
    rw [List.mapM_cons, List.mapM_cons, head, ih]
    cases member.number? with
    | none => rfl
    | some value => cases rest.mapM Document.number? <;> rfl

theorem setOfMembers_ok {members : List Document}
    (made : setOfMembers path members = .ok value) : setOf? members = some value := by
  unfold setOfMembers at made
  split at made
  · cases made
  next text rest =>
    split at made
    next texts strings =>
      cases made
      rw [mapM_stringMember?] at strings
      simp only [setOf?, strings]
    next => cases made
  next number rest =>
    -- A number is no string, so the members are looked at as numbers.
    have noStrings : (Document.number number :: rest).mapM Document.string? = none := by
      simp [Document.string?]
    split at made
    next texts read =>
      cases made
      rw [mapM_numberMember?] at read
      obtain ⟨numbers, areNumbers, rfl⟩ := Option.map_eq_some_iff.mp read
      simp only [setOf?, noStrings, areNumbers]
    next => cases made
  · cases made

theorem setOperand_ok (made : setOperand path operand = .ok value) :
    (members? operand).bind setOf? = some value := by
  unfold setOperand at made
  cases listed : each? path operand with
  | error => rw [listed] at made; cases made
  | ok items =>
    have elements := each?_ok listed
    -- The listed items are the members if there are any, whatever else the operand is.
    simp only [listed, bind, Except.bind] at made
    cases operand with
    | array members =>
      -- An array is no object, so nothing is listed under `$each`.
      change Except.ok none = _ at listed
      cases listed
      exact setOfMembers_ok made
    | _ =>
      simp only [members?, elements, Option.bind_some]
      cases items <;> exact setOfMembers_ok made

end Operands

/-! ### Registrations -/

theorem composed_compileAction (operator : UpdateOperator) (path : String)
    (operand : Document) : (compileAction operator path operand).Composed := by
  unfold compileAction
  refine composed_bind (composed_liftM (Naming.composed_nameText path)) fun name => ?_
  cases operator with
  | set =>
    dsimp only
    split
    all_goals
      refine composed_bind (composed_liftM (Naming.composed_bindDocument _ _)) fun _ => ?_
      exact .pure _
  | unset => exact .pure _
  | inc =>
    dsimp only
    split
    · refine composed_bind (composed_liftM (Naming.composed_bindDocument _ _)) fun _ => ?_
      exact .pure _
    · exact .throw _
  | push | unshift =>
    refine composed_bind (composed_liftExcept _) fun list => ?_
    refine composed_bind (composed_liftM (Naming.composed_bindValue _ _)) fun _ => ?_
    refine composed_bind (composed_liftM Naming.composed_bindEmptyList) fun _ => ?_
    exact .pure _
  | addToSet | removeFromSet =>
    refine composed_bind (composed_liftExcept _) fun set => ?_
    refine composed_bind (composed_liftM (Naming.composed_bindValue _ _)) fun _ => ?_
    exact .pure _

theorem composed_compileActions (operator : UpdateOperator) (fields : Fields) :
    (compileActions operator fields).Composed := by
  induction fields with
  | nil => exact .pure []
  | cons field rest ih =>
    refine composed_bind (composed_compileAction operator field.1 field.2) fun action => ?_
    exact composed_bind ih fun actions => .pure _

theorem composed_compileOperators (entries : Fields) : (compileOperators entries).Composed := by
  induction entries with
  | nil => exact .pure []
  | cons entry rest ih =>
    rw [compileOperators]
    split
    · exact ih
    · split
      · refine composed_bind (composed_compileActions _ _) fun actions => ?_
        exact composed_bind ih fun others => .pure _
      · exact .throw _

theorem composed_compileUpdate (document : Document) : (compileUpdate document).Composed := by
  cases document with
  | object entries => exact composed_compileOperators entries
  | _ => exact .throw _

/-! ### Actions -/

section Actions

variable {p q r : Placeholders}

/-- A path and a value that are registered one after the other. -/
theorem nameText_bindValue_bound (path : String) (value : AttributeValue)
    (later : (Naming.bindValue path value (Naming.nameText path p).2).2 ≤ r) :
    (Naming.nameText path p).1.resolve? r = some (.ofText path) ∧
      r.values.get? (Naming.bindValue path value (Naming.nameText path p).2).1 = some value := by
  have grown := ((Naming.composed_bindValue path value).registers (Naming.nameText path p).2).le
  constructor
  · exact Naming.resolve?_nameText path p (le_trans grown later)
  · exact Placeholders.values_of_le later (Naming.bindValue_bound path value _)

/-- The empty list is registered behind both of them. -/
theorem nameText_bindValue_bindEmptyList_bound (path : String) (value : AttributeValue)
    (later : (Naming.bindEmptyList
      (Naming.bindValue path value (Naming.nameText path p).2).2).2 ≤ r) :
    (Naming.nameText path p).1.resolve? r = some (.ofText path) ∧
      r.values.get? (Naming.bindValue path value (Naming.nameText path p).2).1 = some value ∧
      r.values.get? emptyListToken = some p.emptyList := by
  have before : Reaches p (Naming.bindValue path value (Naming.nameText path p).2).2 :=
    ((Naming.composed_nameText path).registers p).trans
      ((Naming.composed_bindValue path value).registers _)
  have stays := le_trans (Naming.composed_bindEmptyList.registers _).le later
  obtain ⟨named, bound⟩ := nameText_bindValue_bound path value stays
  have empty := Placeholders.values_of_le later (Naming.bindEmptyList_bound _)
  rw [← before.emptyList_eq]
  exact ⟨named, bound, empty⟩

/-- A compiled action makes the change that its field asks for. -/
theorem compileAction_changes {operator : UpdateOperator} {path : String} {operand : Document}
    {action : Action}
    (ran : (compileAction operator path operand).runFrom p = (.ok action, q)) (later : q ≤ r) :
    ∃ change, UpdateField.change? p.emptyList ⟨operator, path, operand⟩ = some change ∧
      action.change.resolve? r = some change := by
  rw [compileAction, runFrom_liftM_bind] at ran
  cases operator with
  | set =>
    -- A document whose only key is `$ifNotExists` is a fallback, any other value is assigned.
    dsimp only at ran
    split at ran
    next fallback isFallback =>
      obtain rfl := Document.soleField?_eq_some_iff.mp isFallback
      rw [runFrom_liftM_map_ok] at ran
      obtain ⟨rfl, rfl⟩ := ran
      obtain ⟨named, bound⟩ := nameText_bindValue_bound path _ later
      refine ⟨.assign (.ofText path) (.orElse (.ofText path) (.ofDocument fallback)), rfl, ?_⟩
      simp [Action.change, Change.resolve?, Operand.resolve?, named, Naming.bindDocument, bound]
    next noFallback =>
      have assigned := Change.assignment_of_ne (.ofText path)
        (Document.soleField?_eq_none_iff.mp noFallback)
      rw [runFrom_liftM_map_ok] at ran
      obtain ⟨rfl, rfl⟩ := ran
      obtain ⟨named, bound⟩ := nameText_bindValue_bound path _ later
      refine ⟨.assign (.ofText path) (.value (.ofDocument operand)), congrArg some assigned, ?_⟩
      simp [Action.change, Change.resolve?, Operand.resolve?, named, Naming.bindDocument, bound]
  | unset =>
    rw [runFrom_pure] at ran
    cases ran
    have named := Naming.resolve?_nameText path p later
    exact ⟨.remove (.ofText path), rfl, by simp [Action.change, Change.resolve?, named]⟩
  | inc =>
    -- Only numbers are added to numbers, so other operands have failed.
    dsimp only at ran
    split at ran
    next number =>
      rw [runFrom_liftM_map_ok] at ran
      obtain ⟨rfl, rfl⟩ := ran
      obtain ⟨named, bound⟩ := nameText_bindValue_bound path _ later
      refine ⟨.add (.ofText path) (.ofDocument (.number number)), rfl, ?_⟩
      simp [Action.change, Change.resolve?, named, Naming.bindDocument, bound]
    · cases ran
  | push =>
    -- The old list comes first, or the empty list where there is none.
    rw [runFrom_liftExcept_bind_ok] at ran
    obtain ⟨list, made, ran⟩ := ran
    obtain ⟨elements, listed, rfl⟩ := listOperand_ok made
    rw [runFrom_liftM_bind, runFrom_liftM_map_ok] at ran
    obtain ⟨rfl, rfl⟩ := ran
    obtain ⟨named, bound, empty⟩ := nameText_bindValue_bindEmptyList_bound path _ later
    refine ⟨.concat (.ofText path) (.orElse (.ofText path) p.emptyList)
      (.value (.list (elements.map .ofDocument))), ?_, ?_⟩
    · simp [UpdateField.change?, listed]
    · simp [Action.change, Change.resolve?, Operand.resolve?, named, bound,
        Naming.bindEmptyList, empty]
  | unshift =>
    -- The same operands the other way round.
    rw [runFrom_liftExcept_bind_ok] at ran
    obtain ⟨list, made, ran⟩ := ran
    obtain ⟨elements, listed, rfl⟩ := listOperand_ok made
    rw [runFrom_liftM_bind, runFrom_liftM_map_ok] at ran
    obtain ⟨rfl, rfl⟩ := ran
    obtain ⟨named, bound, empty⟩ := nameText_bindValue_bindEmptyList_bound path _ later
    refine ⟨.concat (.ofText path) (.value (.list (elements.map .ofDocument)))
      (.orElse (.ofText path) p.emptyList), ?_, ?_⟩
    · simp [UpdateField.change?, listed]
    · simp [Action.change, Change.resolve?, Operand.resolve?, named, bound,
        Naming.bindEmptyList, empty]
  | addToSet =>
    rw [runFrom_liftExcept_bind_ok] at ran
    obtain ⟨set, made, ran⟩ := ran
    have members := setOperand_ok made
    rw [runFrom_liftM_map_ok] at ran
    obtain ⟨rfl, rfl⟩ := ran
    obtain ⟨named, bound⟩ := nameText_bindValue_bound path set later
    refine ⟨.add (.ofText path) set, ?_, ?_⟩
    · simp [UpdateField.change?, ← Option.bind_assoc, members]
    · simp [Action.change, Change.resolve?, named, bound]
  | removeFromSet =>
    rw [runFrom_liftExcept_bind_ok] at ran
    obtain ⟨set, made, ran⟩ := ran
    have members := setOperand_ok made
    rw [runFrom_liftM_map_ok] at ran
    obtain ⟨rfl, rfl⟩ := ran
    obtain ⟨named, bound⟩ := nameText_bindValue_bound path set later
    refine ⟨.delete (.ofText path) set, ?_, ?_⟩
    · simp [UpdateField.change?, ← Option.bind_assoc, members]
    · simp [Action.change, Change.resolve?, named, bound]

/-- The path of a field is named first, then the operands of its action are bound in turn. -/
theorem compileAction_binds {operator : UpdateOperator} {path : String} {operand : Document}
    {action : Action}
    (ran : (compileAction operator path operand).runFrom p = (.ok action, q)) :
    action.path = (Naming.nameText path p).1 ∧
      ∃ values, (Naming.nameText path p).2.Binds values action.operands q := by
  rw [compileAction, runFrom_liftM_bind] at ran
  cases operator with
  | set =>
    dsimp only at ran
    split at ran
    all_goals
      rw [runFrom_liftM_map_ok] at ran
      obtain ⟨rfl, rfl⟩ := ran
      exact ⟨rfl, _, .single path _ _⟩
  | unset =>
    rw [runFrom_pure] at ran
    cases ran
    exact ⟨rfl, _, .nil _⟩
  | inc =>
    dsimp only at ran
    split at ran
    · rw [runFrom_liftM_map_ok] at ran
      obtain ⟨rfl, rfl⟩ := ran
      exact ⟨rfl, _, .single path _ _⟩
    · cases ran
  | push | unshift =>
    rw [runFrom_liftExcept_bind_ok] at ran
    obtain ⟨list, -, ran⟩ := ran
    rw [runFrom_liftM_bind, runFrom_liftM_map_ok] at ran
    obtain ⟨rfl, rfl⟩ := ran
    exact ⟨rfl, _, .value path list (.emptyList (.nil _))⟩
  | addToSet | removeFromSet =>
    rw [runFrom_liftExcept_bind_ok] at ran
    obtain ⟨set, -, ran⟩ := ran
    rw [runFrom_liftM_map_ok] at ran
    obtain ⟨rfl, rfl⟩ := ran
    exact ⟨rfl, _, .single path set _⟩

theorem compileAction_spelled {operator : UpdateOperator} {path : String} {operand : Document}
    {action : Action} (wellFormed : WellFormedPath path)
    (ran : (compileAction operator path operand).runFrom p = (.ok action, q)) :
    action.IsSpelled := by
  obtain ⟨named, values, binds⟩ := compileAction_binds ran
  have spelled := Naming.nameText_spelled path p wellFormed
  rw [← named] at spelled
  exact Action.isSpelled_iff.mpr ⟨spelled, binds.isValue⟩

end Actions

/-! ### Updates -/

/-- Compile what one field asks for. -/
def compileUpdateField (field : UpdateField) : Compile Action :=
  compileAction field.operator field.path field.operand

theorem composed_compileUpdateField (field : UpdateField) :
    (compileUpdateField field).Composed :=
  composed_compileAction _ _ _

section Updates

variable {update : Update} {p q r : Placeholders}

theorem compileActions_threaded {operator : UpdateOperator} {fields : Fields}
    (ran : (compileActions operator fields).runFrom p = (.ok update, q)) :
    Threaded compileUpdateField p
      (fields.map fun (path, operand) => ⟨operator, path, operand⟩) update q := by
  induction fields generalizing p update with
  | nil =>
    rw [compileActions, runFrom_pure] at ran
    cases ran
    exact .nil _
  | cons field rest ih =>
    rw [compileActions, runFrom_bind_ok] at ran
    obtain ⟨action, s, head, ran⟩ := ran
    rw [runFrom_map_ok] at ran
    obtain ⟨actions, tail, rfl⟩ := ran
    exact .cons head (ih tail)

/-- The fields under the operators are compiled in document order, and nothing else is. -/
theorem compileOperators_threaded {entries : Fields}
    (ran : (compileOperators entries).runFrom p = (.ok update, q)) :
    Threaded compileUpdateField p (UpdateField.ofEntries entries) update q := by
  induction entries generalizing p update with
  | nil =>
    rw [compileOperators, runFrom_pure] at ran
    cases ran
    exact .nil _
  | cons entry rest ih =>
    obtain ⟨key, argument⟩ := entry
    rw [compileOperators] at ran
    rw [UpdateOperator.ofKey?_eq_named?] at ran
    cases known : UpdateOperator.named? key with
    | none =>
      -- A key outside the vocabulary is passed over on both sides.
      rw [known] at ran
      have passed : UpdateField.ofEntries ((key, argument) :: rest) =
          UpdateField.ofEntries rest := by
        rw [UpdateField.ofEntries]
        simp [known]
      rw [passed]
      exact ih ran
    | some operator =>
      rw [known] at ran
      cases argument with
      | object fields =>
        -- The fields of this operator come before those of the later ones.
        dsimp only at ran
        rw [runFrom_bind_ok] at ran
        obtain ⟨actions, s, head, ran⟩ := ran
        rw [runFrom_map_ok] at ran
        obtain ⟨others, tail, rfl⟩ := ran
        simp only [UpdateField.ofEntries, known]
        exact (compileActions_threaded head).append (ih tail)
      | _ => cases ran

theorem compileUpdate_threaded {document : Document}
    (ran : (compileUpdate document).runFrom p = (.ok update, q)) :
    Threaded compileUpdateField p (UpdateField.ofDocument document) update q := by
  cases document with
  | object entries => exact compileOperators_threaded ran
  | _ => cases ran

/-- Every path that is to be changed is well formed. -/
def UpdateField.WellFormed (document : Document) : Prop :=
  ∀ field ∈ UpdateField.ofDocument document, WellFormedPath field.path

theorem compileUpdate_spelled {document : Document}
    (wellFormed : UpdateField.WellFormed document)
    (ran : (compileUpdate document).runFrom p = (.ok update, q)) :
    ∀ action ∈ update, action.IsSpelled :=
  (compileUpdate_threaded ran).forall_results fun field member =>
    compileAction_spelled (wellFormed field member)

end Updates

/-! ### What an update means -/

namespace Change

theorem clause_resolve? {p : Placeholders} {change : Change Token}
    {resolved : Change AttributeValue} (resolves : change.resolve? p = some resolved) :
    resolved.clause = change.clause := by
  cases change <;>
    simp only [resolve?, Option.bind_eq_bind, Option.bind_eq_some_iff, Option.map_eq_some_iff,
      Option.pure_def, Option.some.injEq] at resolves
  case assign =>
    obtain ⟨_, -, _, -, rfl⟩ := resolves
    rfl
  case concat =>
    obtain ⟨_, -, _, -, _, -, rfl⟩ := resolves
    rfl
  case remove =>
    obtain ⟨_, -, rfl⟩ := resolves
    rfl
  case add =>
    obtain ⟨_, -, _, -, rfl⟩ := resolves
    rfl
  case delete =>
    obtain ⟨_, -, _, -, rfl⟩ := resolves
    rfl

/-- Sections with their tokens replaced by what they stand for. -/
def resolveSections? (p : Placeholders) (sections : List (Clause × List (Change Token))) :
    Option (List (Clause × List (Change AttributeValue))) :=
  sections.mapM fun (clause, changes) => do
    return (clause, ← changes.mapM (resolve? p))

theorem inClause_resolve? {p : Placeholders} {changes : List (Change Token)}
    {resolved : List (Change AttributeValue)}
    (resolves : changes.mapM (resolve? p) = some resolved) (clause : Clause) :
    (inClause changes clause).mapM (resolve? p) = some (inClause resolved clause) := by
  induction changes generalizing resolved with
  | nil =>
    cases resolves
    rfl
  | cons change rest ih =>
    simp only [List.mapM_cons, Option.bind_eq_bind, Option.bind_eq_some_iff, Option.pure_def,
      Option.some.injEq] at resolves
    obtain ⟨first, head, others, tail, rfl⟩ := resolves
    -- The change stays in its clause, so both filters keep it or both drop it.
    have same := clause_resolve? head
    have inRest := ih tail
    simp only [inClause] at inRest ⊢
    by_cases here : change.clause = clause
    · simp [here, same, head, inRest]
    · simp [here, same, inRest]

/-- Sorting into clauses does not look at tokens. -/
theorem resolveSections?_sections {p : Placeholders} {changes : List (Change Token)}
    {resolved : List (Change AttributeValue)}
    (resolves : changes.mapM (resolve? p) = some resolved) :
    resolveSections? p (sections changes) = some (sections resolved) := by
  simp only [sections, resolveSections?]
  -- Nothing depends on which clauses there are or on their order.
  generalize clauseOrder = clauses
  induction clauses with
  | nil => rfl
  | cons clause rest ih =>
    have own := inClause_resolve? resolves clause
    by_cases empty : inClause changes clause = []
    · -- A clause without actions is left out of both.
      have alsoEmpty : inClause resolved clause = [] := by
        rw [empty] at own
        exact (Option.some.inj own).symm
      simpa [empty, alsoEmpty] using ih
    · have alsoNonempty : inClause resolved clause ≠ [] := by
        intro none
        obtain ⟨change, others, listed⟩ := List.exists_cons_of_ne_nil empty
        rw [listed, none] at own
        simp [Option.bind_eq_some_iff] at own
      simp only [List.map_cons]
      rw [List.filter_cons_of_pos (by simpa using empty),
        List.filter_cons_of_pos (by simpa using alsoNonempty), List.mapM_cons, ih, own]
      rfl

end Change

/-- The actions of a compiled update make the changes that its document asks for, in document
order, then and later. -/
theorem compileUpdate_changes {document : Document} {update : Update} {p q r : Placeholders}
    (ran : (compileUpdate document).runFrom p = (.ok update, q)) (later : q ≤ r) :
    ∃ changes, Change.ofDocument? p.emptyList document = some changes ∧
      (update.map Action.change).mapM (Change.resolve? r) = some changes := by
  rw [List.mapM_map]
  refine (compileUpdate_threaded ran).mapM_agree composed_compileUpdateField ?_ .refl later
  intro field s action t reaches head grown
  rw [← reaches.emptyList_eq]
  exact compileAction_changes head grown

/-- Compilation loses, duplicates and misplaces no action: the text is read as clauses in their
order, and the clauses hold the changes that the document asks for, with tokens resolved through
the placeholders after compilation. -/
theorem compileUpdate_keeps_actions {document : Document} {update : Update} {p q : Placeholders}
    (wellFormed : UpdateField.WellFormed document)
    (unclaimed : p.values.get? emptyListToken = none ∨
      p.values.get? emptyListToken = some .emptyList)
    (ran : (compileUpdate document).runFrom p = (.ok update, q)) :
    ∃ sections changes, readUpdate update.text = some sections ∧
      Change.ofDocument? .emptyList document = some changes ∧
      Change.resolveSections? q sections = some (Change.sections changes) := by
  obtain ⟨changes, asked, resolved⟩ := compileUpdate_changes ran (le_refl q)
  rw [Placeholders.emptyList_of_unclaimed unclaimed] at asked
  exact ⟨_, changes, readUpdate_text (compileUpdate_spelled wellFormed ran), asked,
    Change.resolveSections?_sections resolved⟩

/-- A document whose operators change one attribute twice and come out of order. -/
def addAndAppend : Document :=
  .object [("$addToSet", .object [("a", .string "x")]), ("other", .null),
    ("$push", .object [("a", .null)]),
    ("$set", .object [("b[0]", .object [("$ifNotExists", .bool true)])])]

theorem addAndAppend_keeps_actions :
    ∃ update q sections changes,
      (compileUpdate addAndAppend).runFrom {} = (.ok update, q) ∧
        readUpdate update.text = some sections ∧
        Change.ofDocument? .emptyList addAndAppend = some changes ∧
        Change.resolveSections? q sections = some (Change.sections changes) := by
  have wellFormed : UpdateField.WellFormed addAndAppend := by
    intro field member
    have path : field.path ∈ ["a", "a", "b[0]"] := List.mem_map_of_mem member
    simp only [List.mem_cons, List.not_mem_nil, or_false] at path
    rcases path with path | path | path <;> rw [path] <;> decide +kernel
  have ran : ∃ update q, (compileUpdate addAndAppend).runFrom {} = (.ok update, q) :=
    ⟨_, _, rfl⟩
  obtain ⟨update, q, ran⟩ := ran
  obtain ⟨sections, changes, kept⟩ := compileUpdate_keeps_actions wellFormed (.inl rfl) ran
  exact ⟨update, q, sections, changes, ran, kept⟩

end DocQuery
