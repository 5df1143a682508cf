import DocQuery.Proofs.Layering
import DocQuery.Proofs.Lockstep
import DocQuery.Proofs.ProjectionMeaning
import DocQuery.Proofs.Replacement

/-!
# DocQuery.Proofs.TokenSpelling

How far an expression depends on what was registered before it was compiled.

Names and values that were registered before may take the tokens that a document would be given
first. The expression is then spelled in other tokens, and nothing else of it changes.

## Proof strategy

Each compiler is put in lockstep with itself on other placeholders. What the two runs have in common
is that their texts are alike, and for parts whose text is put together by what they are, this too:
what a condition is a chain of, and the clause of an action.

## Main result

`expressions_differ_in_tokens_only`: a document that is compiled on any two placeholders fails alike
or has expressions that are alike but for their tokens.
-/

namespace DocQuery

open Compile

variable {r s : Placeholders} {given known : Prop}

/-- Things whose texts are alike but for their tokens. -/
abbrev AlikeAs {α : Type} (text : α → String) (r s : Placeholders) (one other : α) : Prop :=
  Alike r s (text one) (text other)

/-! ### Naming and binding -/

theorem Step.alike {step : Step} {token twin : Token} (indices : isIndices step.index.toList = true)
    (alike : Alike r s token twin) :
    AlikeAs Step.text r s { step with name := token } { step with name := twin } := by
  have chars := List.all_eq_true.mp (all_isIndexChar_of_isIndices indices)
  -- An index holds no token and starts with a character that no token goes on with.
  have plain : (step.index.toList.all fun c => c ≠ '#' && c ≠ ':') = true := by
    rw [List.all_eq_true]
    intro c member
    have char := chars c member
    simp only [Bool.and_eq_true, decide_eq_true_eq]
    constructor <;> rintro rfl <;> simp [isIndexChar] at char
  have apart : ∀ c ∈ step.index.toList.head?, isTokenChar c = false := by
    rcases isIndices_head indices with empty | ⟨rest, shape⟩
    · simp [empty]
    · simp [shape, isTokenChar]
  have index : Alike r s step.index step.index := by
    have kept := (Alike.empty r s).plain_append step.index plain
    rwa [String.append_empty] at kept
  exact alike.append index apart apart

theorem Path.alike {path twin : Path} (steps : List.Forall₂ (AlikeAs Step.text r s) path twin) :
    AlikeAs Path.text r s path twin :=
  .intercalate (by decide) (List.forall₂_map_left_iff.mpr (List.forall₂_map_right_iff.mpr steps))

namespace Naming

theorem lockstep_namePath (path : Path) :
    Lockstep r s (List.Forall₂ (AlikeAs Step.text r s))
      (∀ step ∈ path, isIndices step.index.toList = true) path.attributes (namePath path)
      (namePath path) := by
  induction path with
  | nil => exact lockstep_pure fun _ => .nil
  | cons step rest ih =>
    refine (lockstep_registration (.name step.name)).map₂ (ih.mono fun indices => ?_) ?_
    · exact fun other member => indices other (List.mem_cons_of_mem step member)
    · rintro token twin steps others indices ⟨⟨made, found⟩, madeToo, foundToo⟩ tail
      refine .cons (Step.alike (indices step List.mem_cons_self) ?_) tail
      exact .nameTokens made madeToo found foundToo

theorem lockstep_nameText (path : String) :
    Lockstep r s (AlikeAs Path.text r s) (WellFormedPath path) (Path.ofText path).attributes
      (nameText path) (nameText path) :=
  ((lockstep_namePath _).mono wellFormedPath_iff.mp).imp fun _ _ _ => Path.alike

theorem lockstep_bindValue (key : String) (value : AttributeValue) :
    Lockstep r s (Alike r s) given [] (bindValue key value) (bindValue key value) := by
  refine (lockstep_registration (.bind key value)).imp ?_
  rintro token twin - ⟨⟨made, found⟩, madeToo, foundToo⟩
  exact .valueTokens (.inl made) (.inl madeToo) found foundToo

theorem lockstep_bindDocument (key : String) (document : Document) :
    Lockstep r s (Alike r s) given [] (bindDocument key document) (bindDocument key document) :=
  lockstep_bindValue key _

theorem lockstep_bindEachFrom (key : String) (index : Nat) (documents : List Document) :
    Lockstep r s (List.Forall₂ (Alike r s)) given [] (bindEachFrom key index documents)
      (bindEachFrom key index documents) := by
  induction documents generalizing index with
  | nil => exact lockstep_pure fun _ => .nil
  | cons document rest ih =>
    exact (lockstep_bindDocument _ document).map₂ (ih (index + 1)) fun _ _ _ _ _ => .cons

theorem lockstep_bindEach (key : String) (documents : List Document) :
    Lockstep r s (List.Forall₂ (Alike r s)) given [] (bindEach key documents)
      (bindEach key documents) :=
  lockstep_bindEachFrom key 0 documents

/-- The token of the empty list stands for one value on both sides if it did so before. -/
theorem lockstep_bindEmptyList (same : given → r.emptyList = s.emptyList) :
    Lockstep r s (Alike r s) given [] bindEmptyList bindEmptyList := by
  refine (lockstep_registration .emptyList).imp ?_
  rintro token twin holds ⟨⟨rfl, found⟩, rfl, foundToo⟩
  rw [← same holds] at foundToo
  exact .valueTokens (.inr rfl) (.inr rfl) found foundToo

end Naming

/-! ### Computations on paths -/

/-- A computation on some paths in lockstep with itself, if what is known holds and the paths are
well formed. -/
def InLockstep (r s : Placeholders) (known : Prop) {α : Type} (agree : α → α → Prop)
    (paths : List String) (compile : Compile α) : Prop :=
  Lockstep r s agree (known ∧ ∀ path ∈ paths, WellFormedPath path)
    (paths.flatMap fun path => (Path.ofText path).attributes) compile compile

section Paths

variable {α β γ : Type} {agree : α → α → Prop}

theorem InLockstep.single {path : String} {compile : Compile α}
    (lockstep : Lockstep r s agree (known ∧ WellFormedPath path) (Path.ofText path).attributes
      compile compile) : InLockstep r s known agree [path] compile := by
  rw [InLockstep, List.flatMap_singleton]
  exact lockstep.mono fun ⟨holds, wellFormed⟩ => ⟨holds, wellFormed path List.mem_cons_self⟩

theorem InLockstep.map₂ {agreeToo : β → β → Prop} {agreeBoth : γ → γ → Prop}
    {paths others : List String} {one : Compile α} {next : Compile β} {f : α → β → γ}
    (first : InLockstep r s known agree paths one)
    (second : InLockstep r s known agreeToo others next)
    (each : ∀ a b c d, agree a b → agreeToo c d → agreeBoth (f a c) (f b d)) :
    InLockstep r s known agreeBoth (paths ++ others)
      (one >>= fun a => next >>= fun c => pure (f a c)) := by
  rw [InLockstep, List.flatMap_append]
  refine (Lockstep.mono first ?_).map₂ (Lockstep.mono second ?_) fun a b c d _ => each a b c d
  · exact fun ⟨holds, wellFormed⟩ =>
      ⟨holds, fun path member => wellFormed path (List.mem_append_left others member)⟩
  · exact fun ⟨holds, wellFormed⟩ =>
      ⟨holds, fun path member => wellFormed path (List.mem_append_right paths member)⟩

end Paths

/-! ### Questions -/

section Questions

variable {name twin : Path}

/-- A function applied to a path. -/
theorem alike_call_path (start : String)
    (plain : (start.toList.all fun c => c ≠ '#' && c ≠ ':') = true)
    (named : AlikeAs Path.text r s name twin) :
    Alike r s (start ++ name.text ++ ")") (start ++ twin.text ++ ")") :=
  (named.plain_append start plain).append_separator ")" (by decide)

/-- A function applied to a path and an operand. -/
theorem alike_call_path_value {token other : Token} (start : String)
    (plain : (start.toList.all fun c => c ≠ '#' && c ≠ ':') = true)
    (named : AlikeAs Path.text r s name twin) (bound : Alike r s token other) :
    Alike r s (start ++ name.text ++ ", " ++ token ++ ")")
      (start ++ twin.text ++ ", " ++ other ++ ")") :=
  ((named.plain_append start plain).separated ", " (by decide) bound).append_separator ")"
    (by decide)

theorem lockstep_compileCandidates (path : String) (operand : Document)
    (named : given → AlikeAs Path.text r s name twin) :
    Lockstep r s (AlikeAs Predicate.text r s) given [] (compileCandidates path name operand)
      (compileCandidates path twin operand) := by
  cases operand with
  | array candidates =>
    cases candidates with
    | nil => exact .throw [] _
    | cons first rest =>
      refine (Naming.lockstep_bindEach path _).map fun tokens others holds bound => ?_
      have list : Alike r s (",".intercalate tokens) (",".intercalate others) :=
        .intercalate (by decide) bound
      exact ((named holds).separated " IN (" (by decide) list).append_separator ")" (by decide)
  | _ => exact .throw [] _

theorem lockstep_compileOperator (path : String) (operand : Document) (operator : Operator)
    (named : given → AlikeAs Path.text r s name twin) :
    Lockstep r s (AlikeAs Predicate.text r s) given [] (compileOperator path name operand operator)
      (compileOperator path twin operand operator) := by
  cases operator with
  | compare comparator =>
    have sign : isSeparator comparator.text.toList = true := by cases comparator <;> decide
    refine (Naming.lockstep_bindDocument path operand).map fun token other holds bound => ?_
    exact (named holds).separated comparator.text sign bound
  | between =>
    unfold compileOperator
    dsimp only
    split
    next low high =>
      refine Lockstep.map₂ (Naming.lockstep_bindDocument _ low)
        (Naming.lockstep_bindDocument _ high) ?_
      intro token other upper upperToo holds lowBound highBound
      exact ((named holds).separated " BETWEEN " (by decide) lowBound).separated " AND "
        (by decide) highBound
    next => exact .throw [] _
  | oneOf => exact lockstep_compileCandidates path operand named
  | noneOf =>
    refine (lockstep_compileCandidates path operand named).map fun _ _ _ alike => ?_
    exact alike.plain_append "NOT " (by decide)
  | contains =>
    refine (Naming.lockstep_bindDocument path operand).map fun token other holds bound => ?_
    exact alike_call_path_value "contains(" (by decide) (named holds) bound
  | exist =>
    refine .pure fun holds => ?_
    split
    · exact alike_call_path "attribute_exists(" (by decide) (named holds)
    · exact alike_call_path "attribute_not_exists(" (by decide) (named holds)
  | beginsWith =>
    refine (Naming.lockstep_bindDocument path _).map fun token other holds bound => ?_
    exact alike_call_path_value "begins_with(" (by decide) (named holds) bound

theorem lockstep_compilePredicate (path : String) (value : Document)
    (named : given → AlikeAs Path.text r s name twin) :
    Lockstep r s (AlikeAs Predicate.text r s) given [] (compilePredicate path name value)
      (compilePredicate path twin value) := by
  have equals (literal : Document) :
      Lockstep r s (AlikeAs Predicate.text r s) given []
        (do return .compare name .eq (← Naming.bindDocument path literal))
        (do return .compare twin .eq (← Naming.bindDocument path literal)) := by
    refine (Naming.lockstep_bindDocument path literal).map fun token other holds bound => ?_
    exact (named holds).separated "=" (by decide) bound
  induction value using compilePredicate.induct with
  | case1 operand ih =>
    rw [compilePredicate, compilePredicate, if_pos rfl]
    exact ih.map fun _ _ _ alike => alike.plain_append "NOT " (by decide)
  | case2 key operand notNot isOperator operator known =>
    rw [compilePredicate, compilePredicate]
    simp only [if_neg notNot, if_pos isOperator, known]
    exact lockstep_compileOperator path operand operator named
  | case3 key operand notNot isOperator unknown =>
    rw [compilePredicate, compilePredicate]
    simp only [if_neg notNot, if_pos isOperator, unknown]
    exact .throw [] _
  | case4 key operand notNot notOperator =>
    rw [compilePredicate, compilePredicate]
    simp only [if_neg notNot, if_neg notOperator]
    exact equals _
  | case5 literal other =>
    rw [compilePredicate.eq_2 _ _ _ other, compilePredicate.eq_2 _ _ _ other]
    exact equals literal

end Questions

/-! ### Conditions -/

namespace Condition

/-- What a chain is a chain of. -/
def connective? : Condition → Option Connective
  | .chain connective _ => some connective
  | .test _ | .group _ => none

/-- Texts that are alike, of conditions that are put in parentheses in the same places. -/
def Corresponds (r s : Placeholders) (one other : Condition) : Prop :=
  one.connective? = other.connective? ∧ AlikeAs text r s one other

/-- Parts that correspond one by one. -/
abbrev Correspond (r s : Placeholders) : List Condition → List Condition → Prop :=
  List.Forall₂ (Corresponds r s)

variable {one other : Condition} {parts others : List Condition}

theorem Corresponds.group (corresponds : Corresponds r s one other) :
    Corresponds r s (.group one) (.group other) :=
  ⟨rfl, (corresponds.2.plain_append "(" (by decide)).append_separator ")" (by decide)⟩

theorem Correspond.chain (connective : Connective) (correspond : Correspond r s parts others) :
    Corresponds r s (.chain connective parts) (.chain connective others) := by
  have separates : isSeparator connective.text.toList = true := by cases connective <;> decide
  have texts : List.Forall₂ (Alike r s) (texts parts) (texts others) := by
    induction correspond with
    | nil => exact .nil
    | cons head _ ih => exact .cons head.2 ih
  exact ⟨rfl, .intercalate separates texts⟩

theorem Correspond.join (connective : Connective) (correspond : Correspond r s parts others) :
    Option.Rel (Corresponds r s) (join connective parts) (join connective others) := by
  cases correspond with
  | nil => exact .none
  | cons head tail =>
    cases tail with
    | nil => exact .some head
    | cons next rest => exact .some (Correspond.chain connective (.cons head (.cons next rest)))

/-! Which parts are put in parentheses depends on what they are chains of, and on nothing else. -/

theorem Corresponds.besideSiblings (corresponds : Corresponds r s one other) :
    Corresponds r s one.besideSiblings other.besideSiblings := by
  have ⟨same, _⟩ := corresponds
  cases one <;> cases other <;> cases same
  case chain.chain => exact corresponds.group
  all_goals exact corresponds

theorem Corresponds.memberOf (connective : Connective) (corresponds : Corresponds r s one other) :
    Corresponds r s (memberOf connective one) (memberOf connective other) := by
  have ⟨same, _⟩ := corresponds
  cases one with
  | chain own parts =>
    cases other with
    | chain _ others =>
      cases same
      cases connective <;> cases own
      case and.or => exact corresponds.group
      all_goals exact corresponds
    | _ => cases same
  | _ =>
    cases other <;> cases same
    all_goals cases connective <;> exact corresponds

theorem alike_textOrEmpty {one other : Option Condition}
    (rel : Option.Rel (Corresponds r s) one other) : AlikeAs textOrEmpty r s one other := by
  cases rel with
  | none => exact .empty r s
  | some corresponds => exact corresponds.2

end Condition

open Condition (Corresponds Correspond)

theorem rel_toList_append {α β : Type} {agree : α → β → Prop} {one : Option α}
    {other : Option β} {rest : List α} {others : List β} (head : Option.Rel agree one other)
    (tail : List.Forall₂ agree rest others) :
    List.Forall₂ agree (one.toList ++ rest) (other.toList ++ others) := by
  cases head with
  | none => exact tail
  | some same => exact .cons same tail

theorem rel_map {α β γ δ : Type} {agree : α → β → Prop} {agreeToo : γ → δ → Prop}
    {f : α → γ} {g : β → δ} {one : Option α} {other : Option β} (rel : Option.Rel agree one other)
    (each : ∀ a b, agree a b → agreeToo (f a) (g b)) :
    Option.Rel agreeToo (one.map f) (other.map g) := by
  cases rel with
  | none => exact .none
  | some same => exact .some (each _ _ same)

mutual

theorem lockstep_compileFields (siblings : Bool) : ∀ fields : Fields,
    InLockstep r s known (Correspond r s) ((Query.questionsOfFields fields).map Prod.fst)
      (compileFields siblings fields)
  | [] => by
    rw [compileFields, Query.questionsOfFields]
    exact .pure fun _ => .nil
  | (key, value) :: rest => by
    rw [compileFields, Query.questionsOfFields, List.map_append]
    refine (lockstep_compileField key value).map₂ (lockstep_compileFields siblings rest) ?_
    intro part other parts others same tail
    cases siblings with
    | false => exact rel_toList_append same tail
    | true => exact rel_toList_append (rel_map same fun _ _ => Corresponds.besideSiblings) tail

theorem lockstep_compileField : ∀ (key : String) (value : Document),
    InLockstep r s known (Option.Rel (Corresponds r s))
      ((Query.questionsOfField key value).map Prod.fst) (compileField key value)
  | key, value => by
    rw [compileField]
    unfold Query.questionsOfField
    rw [← Connective.ofKey?_eq_named?]
    cases Connective.ofKey? key with
    | some connective =>
      cases value with
      | array members =>
        cases members with
        | nil => exact .throw _ _
        | cons member members =>
          refine Lockstep.map (lockstep_compileMembers connective (member :: members)) ?_
          exact fun _ _ _ same => same.join connective
      | _ => exact .throw _ _
    | none =>
      dsimp only
      split
      · exact .throw _ _
      · refine .single ?_
        rw [← List.append_nil (Path.ofText key).attributes]
        refine Lockstep.bind ((Naming.lockstep_nameText key).mono And.right) fun name twin => ?_
        refine (lockstep_compilePredicate key value And.right).map fun _ _ _ alike => ?_
        exact .some ⟨rfl, alike⟩

theorem lockstep_compileMembers (connective : Connective) : ∀ members : List Document,
    InLockstep r s known (Correspond r s) ((Query.questionsOfMembers members).map Prod.fst)
      (compileMembers connective members)
  | [] => by
    rw [compileMembers, Query.questionsOfMembers]
    exact .pure fun _ => .nil
  | member :: members => by
    cases member with
    | object fields =>
      rw [compileMembers, Query.questionsOfMembers, List.map_append]
      refine (lockstep_compileFields _ fields).map₂ (lockstep_compileMembers connective members) ?_
      intro own other parts others same tail
      have joined := rel_map (same.join .and) fun _ _ => Corresponds.memberOf connective
      exact rel_toList_append joined tail
    | _ => exact .throw _ _

end

theorem lockstep_compileCondition (query : Document) :
    InLockstep r s known (AlikeAs Condition.textOrEmpty r s)
      ((Query.questions query).map Prod.fst) (compileCondition query) := by
  cases query with
  | object fields =>
    refine Lockstep.map (lockstep_compileFields _ fields) fun parts others _ same => ?_
    exact Condition.alike_textOrEmpty (same.join .and)
  | _ => exact .throw _ _

/-! ### Updates -/

section Updates

variable {name twin : Path}

/-- Actions of one clause whose texts are alike. -/
def Action.Corresponds (r s : Placeholders) (one other : Action) : Prop :=
  one.clause = other.clause ∧ AlikeAs Action.text r s one other

theorem Action.alike_orElse {token other : Token} (named : AlikeAs Path.text r s name twin)
    (bound : Alike r s token other) : Alike r s (orElse name token) (orElse twin other) :=
  alike_call_path_value "if_not_exists(" (by decide) named bound

/-- An action in lockstep with itself, if its path is well formed and the token of the empty list
stands for one value on both sides. -/
theorem lockstep_compileAction (operator : UpdateOperator) (path : String) (operand : Document) :
    Lockstep r s (Action.Corresponds r s) (r.emptyList = s.emptyList ∧ WellFormedPath path)
      (Path.ofText path).attributes (compileAction operator path operand)
      (compileAction operator path operand) := by
  rw [← List.append_nil (Path.ofText path).attributes]
  refine Lockstep.bind ((Naming.lockstep_nameText path).mono And.right) fun name twin => ?_
  cases operator with
  | set =>
    dsimp only
    split
    next fallback _ =>
      refine (Naming.lockstep_bindDocument path fallback).map fun token other holds bound => ?_
      exact ⟨rfl, holds.2.separated "=" (by decide) (Action.alike_orElse holds.2 bound)⟩
    next =>
      refine (Naming.lockstep_bindDocument path operand).map fun token other holds bound => ?_
      exact ⟨rfl, holds.2.separated "=" (by decide) bound⟩
  | unset => exact .pure fun holds => ⟨rfl, holds.2⟩
  | inc =>
    dsimp only
    split
    next =>
      refine (Naming.lockstep_bindDocument path _).map fun token other holds bound => ?_
      exact ⟨rfl, holds.2.separated " " (by decide) bound⟩
    next => exact .throw _ _
  | push =>
    refine lockstep_liftExcept_bind _ fun list => ?_
    refine Lockstep.map₂ (Naming.lockstep_bindValue path list)
      (Naming.lockstep_bindEmptyList fun holds => holds.1.1) ?_
    intro token other empty emptyToo holds bound emptyBound
    have seeded := Action.alike_orElse holds.2 emptyBound
    have start := holds.2.separated "=list_append(" (by decide) seeded
    exact ⟨rfl, (start.separated ", " (by decide) bound).append_separator ")" (by decide)⟩
  | unshift =>
    refine lockstep_liftExcept_bind _ fun list => ?_
    refine Lockstep.map₂ (Naming.lockstep_bindValue path list)
      (Naming.lockstep_bindEmptyList fun holds => holds.1.1) ?_
    intro token other empty emptyToo holds bound emptyBound
    have seeded := Action.alike_orElse holds.2 emptyBound
    have start := holds.2.separated "=list_append(" (by decide) bound
    exact ⟨rfl, (start.separated ", " (by decide) seeded).append_separator ")" (by decide)⟩
  | addToSet | removeFromSet =>
    refine lockstep_liftExcept_bind _ fun set => ?_
    refine (Naming.lockstep_bindValue path set).map fun token other holds bound => ?_
    exact ⟨rfl, holds.2.separated " " (by decide) bound⟩

theorem lockstep_compileActions (operator : UpdateOperator) (fields : Fields) :
    InLockstep r s (r.emptyList = s.emptyList) (List.Forall₂ (Action.Corresponds r s))
      (fields.map Prod.fst) (compileActions operator fields) := by
  induction fields with
  | nil => exact .pure fun _ => .nil
  | cons field rest ih =>
    exact InLockstep.map₂ (.single (lockstep_compileAction operator field.1 field.2)) ih
      fun _ _ _ _ => .cons

theorem lockstep_compileOperators (entries : Fields) :
    InLockstep r s (r.emptyList = s.emptyList) (List.Forall₂ (Action.Corresponds r s))
      ((UpdateField.ofEntries entries).map UpdateField.path) (compileOperators entries) := by
  induction entries with
  | nil => exact .pure fun _ => .nil
  | cons entry rest ih =>
    obtain ⟨key, argument⟩ := entry
    rw [compileOperators]
    unfold UpdateField.ofEntries
    rw [← UpdateOperator.ofKey?_eq_named?]
    cases UpdateOperator.ofKey? key with
    | none => exact ih
    | some operator =>
      cases argument with
      | object fields =>
        rw [List.map_append, List.map_map]
        exact (lockstep_compileActions operator fields).map₂ ih fun _ _ _ _ same tail =>
          List.rel_append same tail
      | _ => exact .throw _ _

theorem clauseText?_alike {update others : Update}
    (same : List.Forall₂ (Action.Corresponds r s) update others) (clause : Clause) :
    Option.Rel (Alike r s) (update.clauseText? clause) (others.clauseText? clause) := by
  have own : List.Forall₂ (Action.Corresponds r s) (update.inClause clause)
      (others.inClause clause) := by
    induction same with
    | nil => exact .nil
    | @cons one other _ _ head _ ih =>
      -- Both actions are of the clause or neither is.
      simp only [Update.inClause, List.filter_cons, head.1]
      split
      · exact .cons head ih
      · exact ih
  have listed : List.Forall₂ (Alike r s) ((update.inClause clause).map Action.text)
      ((others.inClause clause).map Action.text) :=
    List.forall₂_map_left_iff.mpr (List.forall₂_map_right_iff.mpr (own.imp fun _ _ same => same.2))
  unfold Update.clauseText?
  revert own listed
  generalize update.inClause clause = actions
  generalize others.inClause clause = twins
  intro own listed
  cases own with
  | nil => exact .none
  | cons head tail =>
    have keyword : ((clause.keyword ++ " ").toList.all fun c => c ≠ '#' && c ≠ ':') = true := by
      cases clause <;> decide
    exact .some ((Alike.intercalate (by decide) listed).plain_append _ keyword)

theorem Update.alike {update others : Update}
    (same : List.Forall₂ (Action.Corresponds r s) update others) :
    AlikeAs Update.text r s update others := by
  refine .intercalate (by decide) ?_
  rw [List.filterMap_eq_flatMap_toList, List.filterMap_eq_flatMap_toList]
  generalize Clause.all = clauses
  induction clauses with
  | nil => exact .nil
  | cons clause rest ih =>
    rw [List.flatMap_cons, List.flatMap_cons]
    exact rel_toList_append (clauseText?_alike same clause) ih

theorem lockstep_compileUpdate (document : Document) :
    InLockstep r s (r.emptyList = s.emptyList) (AlikeAs Update.text r s)
      ((UpdateField.ofDocument document).map UpdateField.path) (compileUpdate document) := by
  cases document with
  | object entries =>
    exact Lockstep.imp (lockstep_compileOperators entries) fun _ _ _ => Update.alike
  | _ => exact .throw _ _

end Updates

/-! ### Projections -/

theorem Projection.alike {projection others : Projection}
    (same : List.Forall₂ (AlikeAs Path.text r s) projection others) :
    AlikeAs Projection.text r s projection others :=
  .intercalate (by decide) (List.forall₂_map_left_iff.mpr (List.forall₂_map_right_iff.mpr same))

theorem lockstep_nameTexts (paths : List String) :
    InLockstep r s known (List.Forall₂ (AlikeAs Path.text r s)) paths
      (liftM (nameTexts paths)) := by
  induction paths with
  | nil => exact .pure fun _ => .nil
  | cons path rest ih =>
    exact InLockstep.map₂ (.single ((Naming.lockstep_nameText path).mono And.right)) ih
      fun _ _ _ _ => .cons

theorem lockstep_compileProjection (fields : String) :
    InLockstep r s known (AlikeAs Projection.text r s) (fieldList fields)
      (liftM (compileProjection fields)) :=
  Lockstep.imp (lockstep_nameTexts _) fun _ _ _ => Projection.alike

/-! ### Tokens are all that differs -/

/-- Started from `p` and from `q`, a compilation fails with the same errors, and when it succeeds
from both, the two texts are alike but for their tokens, each replaced by what it stands for when
its compilation is over. -/
structure SpelledAlike {α : Type} (text : α → String) (p q : Placeholders)
    (compile : Compile α) : Prop where
  fails : ∀ error, (compile.runFrom p).1 = .error error ↔ (compile.runFrom q).1 = .error error
  alike : ∀ one other, (compile.runFrom p).1 = .ok one → (compile.runFrom q).1 = .ok other →
    Alike (compile.runFrom p).2 (compile.runFrom q).2 (text one) (text other)

theorem InLockstep.spelledAlike {α : Type} {text : α → String} {paths : List String}
    {compile : Compile α} {p q : Placeholders}
    (lockstep : InLockstep (compile.runFrom p).2 (compile.runFrom q).2 known
      (AlikeAs text (compile.runFrom p).2 (compile.runFrom q).2) paths compile)
    (holds : known) (wellFormed : ∀ path ∈ paths, WellFormedPath path) :
    SpelledAlike text p q compile := by
  have outcomes := Lockstep.outcomes lockstep ⟨holds, wellFormed⟩ (le_refl _) (le_refl _)
  revert outcomes
  cases one : (compile.runFrom p).1 with
  | error oneError =>
    cases other : (compile.runFrom q).1 with
    | error otherError =>
      rintro rfl
      exact ⟨by simp [one, other], by simp [one]⟩
    | ok => exact False.elim
  | ok a =>
    cases other : (compile.runFrom q).1 with
    | error => exact False.elim
    | ok b =>
      intro same
      refine ⟨by simp [one, other], ?_⟩
      rintro _ _ first second
      rw [one] at first
      rw [other] at second
      cases first
      cases second
      exact same

/-- Nothing but the choice of tokens depends on what was registered before. -/
theorem expressions_differ_in_tokens_only (p q : Placeholders) :
    (∀ query, Query.WellFormed query →
      SpelledAlike Condition.textOrEmpty p q (compileCondition query)) ∧
    (∀ document, UpdateField.WellFormed document →
      p.values.get? emptyListToken = none ∨ p.values.get? emptyListToken = some .emptyList →
      q.values.get? emptyListToken = none ∨ q.values.get? emptyListToken = some .emptyList →
        SpelledAlike Update.text p q (compileUpdate document)) ∧
    ∀ fields, (∀ path ∈ fieldList fields, WellFormedPath path) →
      SpelledAlike Projection.text p q (liftM (compileProjection fields)) := by
  refine ⟨fun query wellFormed => ?_, fun document wellFormed unclaimed unclaimedToo => ?_,
    fun fields wellFormed => ?_⟩
  · exact (lockstep_compileCondition query).spelledAlike trivial
      (List.forall_mem_map.mpr wellFormed)
  · -- What the token of the empty list will stand for was settled before.
    have composed := composed_compileUpdate document
    have same : ((compileUpdate document).runFrom p).2.emptyList =
        ((compileUpdate document).runFrom q).2.emptyList := by
      rw [(composed.registers p).emptyList_eq, (composed.registers q).emptyList_eq,
        Placeholders.emptyList_of_unclaimed unclaimed,
        Placeholders.emptyList_of_unclaimed unclaimedToo]
    exact (lockstep_compileUpdate document).spelledAlike same (List.forall_mem_map.mpr wellFormed)
  · exact (lockstep_compileProjection fields).spelledAlike trivial wellFormed

/-- Placeholders that hold the tokens that `a` and its value would be given first. -/
def crowded : Placeholders where
  names := (∅ : KeyMap String).insert "#k_a" "a-"
  values := (∅ : Item).insert ":v_a" .emptyList

theorem crowded_differ_in_tokens_only :
    SpelledAlike Condition.textOrEmpty {} crowded (compileCondition (.object [("a[0]", .null)])) ∧
      SpelledAlike Update.text {} crowded
        (compileUpdate (.object [("$push", .object [("a", .null)])])) ∧
      SpelledAlike Projection.text {} crowded (liftM (compileProjection "a, b.a")) := by
  obtain ⟨conditions, updates, projections⟩ := expressions_differ_in_tokens_only {} crowded
  refine ⟨conditions _ ?_, updates _ ?_ (.inl rfl) (.inl (by decide +kernel)), projections _ ?_⟩
  · intro question member
    obtain rfl := List.mem_singleton.mp member
    decide +kernel
  · intro field member
    obtain rfl := List.mem_singleton.mp member
    decide +kernel
  · decide +kernel

/-- The expressions are not the same, and this is how far they are alike. -/
example :
    let condition := compileCondition (.object [("a[0]", .null)])
    (condition.runFrom {}).1.map Condition.textOrEmpty = .ok "#k_a[0]=:v_a_0_" ∧
      (condition.runFrom crowded).1.map Condition.textOrEmpty = .ok "#k_a_1[0]=:v_a_0_" ∧
      (condition.runFrom crowded).2.replace? "#k_a_1[0]=:v_a_0_" =
        some [.name "a", .char '[', .char '0', .char ']', .char '=', .value (.null true)] := by
  decide +kernel

end DocQuery
