import DocQuery.Proofs.PathFragment
import DocQuery.Proofs.TokenSpelling

/-!
# DocQuery.Proofs.NameTokens

Which tokens the attributes of a request are given.

Names that are sanitized alike ask for the same token first, and what a numbered token is free for
depends on everything that was named before. Still no name ever gets a second token in a request.

## Proof strategy

`Placeholders.IsSettled` is the invariant: every name that was named would be given its own token
once more. One registration keeps it, and two tokens of one name would both be the one it is given.

## Main result

`Operation.names_are_bijective`: the tokens that were given in the course of any operations pair
names with tokens one to one.
-/

namespace DocQuery

open Compile
open Placeholders (Reaches)

/-! ### One token for each name -/

namespace Placeholders

/-- Every name that was named would be given its token again. -/
def IsSettled (p : Placeholders) : Prop :=
  ∀ token name, p.names.get? token = some name → tokenFor p.names (nameToken name) name = token

theorem isSettled_start (values : Item) : IsSettled { values } := by
  intro token name found
  cases found

theorem Step.isSettled {p q : Placeholders} (step : Step p q) (settled : p.IsSettled) :
    q.IsSettled := by
  cases step with
  | name fresh =>
    intro token name found
    have grown : p.names.Within (p.names.insert (tokenFor p.names (nameToken fresh) fresh) fresh) :=
      within_insert_tokenFor _ _ _
    simp only [Naming.nameAttribute] at found ⊢
    by_cases here : tokenFor p.names (nameToken fresh) fresh = token
    · -- The name that was just named.
      subst here
      rw [Ascending.get?_insert_self, Option.some.injEq] at found
      subst found
      exact tokenFor_of_within fun _ _ bound => bound
    · rw [Ascending.get?_insert_of_ne _ here] at found
      have same := settled token name found
      -- Naming it again before would have changed nothing.
      have idle : p.names.insert (tokenFor p.names (nameToken name) name) name = p.names := by
        rw [same]
        exact Ascending.insert_eq_self_of_get?_eq_some found
      rw [← same]
      apply tokenFor_of_within
      rwa [idle]
  | bind => exact settled
  | emptyList => exact settled

theorem Reaches.isSettled {p q : Placeholders} (reaches : Reaches p q) (settled : p.IsSettled) :
    q.IsSettled := by
  induction reaches with
  | refl => exact settled
  | tail _ step before => exact step.isSettled before

namespace IsSettled

variable {p : Placeholders}

theorem token_eq (settled : p.IsSettled) {token other : Token} {name : String}
    (found : p.names.get? token = some name) (foundToo : p.names.get? other = some name) :
    token = other :=
  (settled token name found).symm.trans (settled other name foundToo)

/-- Tokens that stand for the same names in turn are the same tokens. -/
theorem tokens_eq (settled : p.IsSettled) {tokens others : List Token} {names : List String}
    (found : tokens.mapM p.names.get? = some names)
    (foundToo : others.mapM p.names.get? = some names) : tokens = others := by
  induction tokens generalizing others names with
  | nil =>
    cases found
    cases others with
    | nil => rfl
    | cons => simp [Option.bind_eq_some_iff] at foundToo
  | cons token rest ih =>
    simp only [List.mapM_cons, Option.bind_eq_bind, Option.bind_eq_some_iff, Option.pure_def,
      Option.some.injEq] at found
    obtain ⟨name, head, tailNames, tail, rfl⟩ := found
    cases others with
    | nil => cases foundToo
    | cons other others =>
      simp only [List.mapM_cons, Option.bind_eq_bind, Option.bind_eq_some_iff, Option.pure_def,
        Option.some.injEq, List.cons.injEq] at foundToo
      obtain ⟨_, headToo, _, tailToo, rfl, rfl⟩ := foundToo
      rw [settled.token_eq head headToo, ih tail tailToo]

end IsSettled

end Placeholders

/-! ### Tokens that are given -/

namespace Placeholders

/-- Registrations one after the other, with the names among them and the tokens they are given. -/
inductive Names : Placeholders → List (String × Token) → Placeholders → Prop where
  | nil (p : Placeholders) : Names p [] p
  | register {p q : Placeholders} {given : List (String × Token)} (registration : Registration)
    (rest : Names (registration.run p).2 given q) :
    Names p (registration.names.map (·, (registration.run p).1) ++ given) q

/-- A registration binds a token that it gives to a name and changes no other name. -/
theorem names_run_iff (registration : Registration) (p : Placeholders) {token : Token}
    {name : String} : (registration.run p).2.names.get? token = some name ↔
      p.names.get? token = some name ∨
        (name, token) ∈ registration.names.map (·, (registration.run p).1) := by
  cases registration with
  | name text =>
    have grown := within_insert_tokenFor p.names (nameToken text) text token name
    by_cases here : tokenFor p.names (nameToken text) text = token
    · subst here
      simp only [Registration.run, Registration.names, Naming.nameAttribute, List.map_cons,
        List.map_nil, List.mem_singleton, Prod.mk.injEq, and_true]
      rw [Ascending.get?_insert_self] at grown ⊢
      constructor
      · exact fun same => .inr (Option.some.inj same).symm
      · rintro (before | rfl)
        · exact grown before
        · rfl
    · simp [Registration.run, Registration.names, Naming.nameAttribute,
        Ascending.get?_insert_of_ne _ here, Ne.symm here]
  | bind => simp [Registration.run, Registration.names, Naming.bindValue]
  | emptyList => simp [Registration.run, Registration.names, Naming.bindEmptyList]

namespace Names

variable {p q r : Placeholders} {given more : List (String × Token)}

theorem reaches (names : Names p given q) : Reaches p q := by
  induction names with
  | nil => exact .refl
  | register registration _ ih => exact .head (registration.step _) ih

/-- What is named in the end is what was named before and what was given a token. -/
theorem get?_iff (names : Names p given q) {token : Token} {name : String} :
    q.names.get? token = some name ↔ p.names.get? token = some name ∨ (name, token) ∈ given := by
  induction names with
  | nil => simp
  | register registration _ ih => rw [ih, names_run_iff, List.mem_append, or_assoc]

theorem append (names : Names p given q) (others : Names q more r) : Names p (given ++ more) r := by
  induction names with
  | nil => exact others
  | register registration _ ih =>
    rw [List.append_assoc]
    exact .register registration (ih others)

/-- The tokens that were given stand for the names, one by one. -/
theorem tokens_bound (names : Names p given q) :
    (given.map Prod.snd).mapM q.names.get? = some (given.map Prod.fst) := by
  rw [List.mapM_map]
  exact mapM_eq_some_map fun _ member => names.get?_iff.mpr (.inr member)

end Names

end Placeholders

/-! ### What computations name -/

namespace Compile

variable {α β : Type}

/-- A computation that names these attributes in turn, unless it fails before. -/
def NamesInTurn (names : List String) (compile : Compile α) : Prop :=
  ∀ p, ∃ given, p.Names given (compile.runFrom p).2 ∧ given.map Prod.fst <+: names ∧
    ∀ a, (compile.runFrom p).1 = .ok a → given.map Prod.fst = names

theorem namesInTurn_throw (names : List String) (error : CompileError) :
    (throw error : Compile α).NamesInTurn names :=
  fun p => ⟨[], .nil p, List.nil_prefix, fun _ failed => by cases failed⟩

theorem Lockstep.namesInTurn {r s : Placeholders} {agree : α → β → Prop} {known : Prop}
    {names : List String} {one : Compile α} {other : Compile β}
    (lockstep : Lockstep r s agree known names one other) : one.NamesInTurn names := by
  induction lockstep with
  | pure => exact fun p => ⟨[], .nil p, List.nil_prefix, fun _ _ => rfl⟩
  | throw names error => exact namesInTurn_throw names error
  | register registration next other _ ih =>
    intro p
    rw [runFrom_liftM_bind]
    obtain ⟨given, rest, asked, succeeds⟩ :=
      ih (registration.run p).1 (registration.run p).1 (registration.run p).2
    refine ⟨_, .register registration rest, ?_, fun a ran => ?_⟩
    · simpa [Function.comp_def] using asked
    · simpa [Function.comp_def] using succeeds a ran

theorem NamesInTurn.map {names : List String} {compile : Compile α} (f : α → β)
    (inTurn : compile.NamesInTurn names) :
    (compile >>= fun a => pure (f a)).NamesInTurn names := by
  intro p
  obtain ⟨given, registered, asked, succeeds⟩ := inTurn p
  rw [runFrom_bind]
  revert registered succeeds
  rcases compile.runFrom p with ⟨outcome, q⟩
  intro registered succeeds
  cases outcome with
  | error => exact ⟨given, registered, asked, fun _ failed => by cases failed⟩
  | ok a => exact ⟨given, registered, asked, fun _ _ => succeeds a rfl⟩

end Compile

/-! ### What operations name -/

namespace Path

variable {p : Placeholders}

theorem names_resolve {path target : Path} (resolved : path.resolve? p = some target) :
    (path.map Step.name).mapM p.names.get? = some target.attributes := by
  induction path generalizing target with
  | nil =>
    cases resolved
    rfl
  | cons step rest ih =>
    simp only [resolve?, List.mapM_cons, Option.bind_eq_bind, Option.bind_eq_some_iff,
      Option.map_eq_some_iff, Option.pure_def, Option.some.injEq] at resolved
    obtain ⟨_, ⟨name, found, rfl⟩, others, tail, rfl⟩ := resolved
    simp [found, ih tail, attributes]

/-- The tokens on paths stand for the attributes on what the paths stand for. -/
theorem names_resolve_all {paths targets : List Path}
    (resolved : paths.mapM (resolve? p) = some targets) :
    (paths.flatMap fun path => path.map Step.name).mapM p.names.get? =
      some (targets.flatMap attributes) := by
  induction paths generalizing targets with
  | nil =>
    cases resolved
    rfl
  | cons path rest ih =>
    simp only [List.mapM_cons, Option.bind_eq_bind, Option.bind_eq_some_iff, Option.pure_def,
      Option.some.injEq] at resolved
    obtain ⟨target, head, others, tail, rfl⟩ := resolved
    rw [List.flatMap_cons, List.mapM_append, names_resolve head, ih tail]
    rfl

end Path

namespace Operation

/-- The paths that an operation names. -/
def paths : Operation → List String
  | .nameText path => [path]
  | .compileCondition query => (Query.questions query).map Prod.fst
  | .compileUpdate document => (UpdateField.ofDocument document).map UpdateField.path
  | .compileProjection fields => fieldList fields
  | .nameAttribute _ | .bindOperand .. | .bindDocument .. | .bindEach .. | .bindValue ..
  | .bindEmptyList => []

/-- The attributes that an operation names in turn. -/
def attributes : Operation → List String
  | .nameAttribute name => [name]
  | operation => operation.paths.flatMap fun path => (Path.ofText path).attributes

/-- The name tokens of an outcome, in the order of its operation. -/
def nameTokens : Operation → Outcome → List Token
  | .nameAttribute _, .token token => [token]
  | _, outcome => outcome.paths.flatMap fun path => path.map Step.name

theorem bindOperand_namesInTurn (key : String) (value : Option Document) (whole : Bool) :
    (DocQuery.bindOperand key value whole).NamesInTurn [] := by
  let r : Placeholders := {}
  have bound (document : Document) :
      Naming.Lockstep r r _ True [] (Naming.bindDocument key document) _ :=
    Naming.lockstep_bindDocument key document
  unfold DocQuery.bindOperand
  split
  · exact namesInTurn_throw [] _
  next items =>
    split
    · exact (bound (.array items)).namesInTurn.map _
    · have each : Naming.Lockstep r r _ True [] _ _ := Naming.lockstep_bindEach key items
      exact each.namesInTurn.map _
  next document _ => exact (bound document).namesInTurn.map _

theorem run_namesInTurn (operation : Operation) :
    operation.run.NamesInTurn operation.attributes := by
  -- Only what is asked for counts, and so any placeholders will do.
  let r : Placeholders := {}
  cases operation with
  | nameText path =>
    have lockstep : InLockstep r r True _ [path] (liftM (Naming.nameText path)) :=
      .single ((Naming.lockstep_nameText path).mono And.right)
    exact lockstep.namesInTurn.map _
  | nameAttribute name =>
    have lockstep : Naming.Lockstep r r _ True [name] _ _ :=
      Naming.lockstep_registration (.name name)
    exact lockstep.namesInTurn.map _
  | bindOperand key value whole => exact (bindOperand_namesInTurn key value whole).map _
  | bindDocument key document =>
    have lockstep : Naming.Lockstep r r _ True [] _ _ := Naming.lockstep_bindDocument key document
    exact lockstep.namesInTurn.map _
  | bindEach key documents =>
    have lockstep : Naming.Lockstep r r _ True [] _ _ := Naming.lockstep_bindEach key documents
    exact lockstep.namesInTurn.map _
  | bindValue key value =>
    have lockstep : Naming.Lockstep r r _ True [] _ _ := Naming.lockstep_bindValue key value
    exact lockstep.namesInTurn.map _
  | bindEmptyList =>
    have lockstep : Naming.Lockstep r r _ True [] _ _ := Naming.lockstep_bindEmptyList fun _ => rfl
    exact lockstep.namesInTurn.map _
  | compileCondition query =>
    have lockstep : InLockstep r r True _ _ _ := lockstep_compileCondition query
    exact lockstep.namesInTurn.map _
  | compileUpdate document =>
    have lockstep : InLockstep r r _ _ _ _ := lockstep_compileUpdate document
    exact lockstep.namesInTurn.map _
  | compileProjection fields =>
    have lockstep : InLockstep r r True _ _ _ := lockstep_compileProjection fields
    exact lockstep.namesInTurn.map _

/-- Paths that are named one by one stand for what they were named for. -/
theorem mapM_resolve_of_threaded {ι α : Type} {compile : ι → Compile α} {asked : ι → Path}
    {named : α → Path} {p q r : Placeholders} (composed : ∀ input, (compile input).Composed)
    (each : ∀ {input p a q}, (compile input).runFrom p = (.ok a, q) → q ≤ r →
      (named a).resolve? r = some (asked input))
    {inputs : List ι} {results : List α} (ran : Threaded compile p inputs results q)
    (later : q ≤ r) : (results.map named).mapM (Path.resolve? r) = some (inputs.map asked) := by
  obtain ⟨targets, wanted, got⟩ := ran.mapM_agree (r := r) composed
    (fun _ head grown => ⟨_, (rfl : some (asked _) = _), each head grown⟩) .refl later
  rw [mapM_eq_some_map fun _ _ => rfl, Option.some.injEq] at wanted
  rw [List.mapM_map, wanted]
  exact got

/-- The paths of an outcome stand for those that were to be named, then and later. -/
theorem paths_resolve {operation : Operation} {outcome : Outcome} {p q r : Placeholders}
    (ran : operation.run.runFrom p = (.ok outcome, q)) (later : q ≤ r) :
    outcome.paths.mapM (Path.resolve? r) = some (operation.paths.map .ofText) := by
  cases operation with
  | nameText path =>
    cases ran
    have named := Naming.resolve?_namePath (.ofText path) p later
    simp [Outcome.paths, paths, named]
  | compileCondition query =>
    rw [run, runFrom_map_ok] at ran
    obtain ⟨condition, ran, rfl⟩ := ran
    rw [paths, List.map_map]
    refine mapM_resolve_of_threaded composed_compileQuestion (fun {question _ _ _} head grown => ?_)
      (means_compileCondition ran).ran later
    obtain ⟨named, ⟨_, binds⟩, -⟩ := compileQuestion_isCompiled head
    rw [named]
    exact Naming.resolve?_nameText question.1 _ (le_trans binds.reaches.le grown)
  | compileUpdate document =>
    rw [run, runFrom_map_ok] at ran
    obtain ⟨update, ran, rfl⟩ := ran
    rw [paths, List.map_map]
    refine mapM_resolve_of_threaded composed_compileUpdateField (fun {field _ _ _} head grown => ?_)
      (compileUpdate_threaded ran) later
    obtain ⟨named, _, binds⟩ := compileAction_binds head
    rw [named]
    exact Naming.resolve?_nameText field.path _ (le_trans binds.reaches.le grown)
  | compileProjection fields =>
    cases ran
    exact nameTexts_bound (fieldList fields) p later
  | bindOperand key value whole =>
    rw [run, runFrom_map_ok] at ran
    obtain ⟨tokens, ran, rfl⟩ := ran
    cases tokens <;> rfl
  | _ =>
    cases ran
    rfl

/-- The name tokens of an outcome stand for the attributes that were to be named. -/
theorem nameTokens_bound {operation : Operation} {outcome : Outcome} {p q : Placeholders}
    (ran : operation.run.runFrom p = (.ok outcome, q)) :
    (operation.nameTokens outcome).mapM q.names.get? = some operation.attributes := by
  have ofPaths := Path.names_resolve_all (paths_resolve ran (le_refl q))
  rw [List.flatMap_map] at ofPaths
  cases operation with
  | nameAttribute name =>
    cases ran
    simp [nameTokens, attributes]
  | _ => exact ofPaths

/-- The tokens that an operation gives to attributes in turn: to all of its attributes and by the
tokens of its outcome, or if it fails, to the first of them. -/
structure Gives (operation : Operation) (p : Placeholders) (given : List (String × Token)) :
    Prop where
  names : p.Names given (operation.after p)
  asked : given.map Prod.fst <+: operation.attributes
  succeeds : ∀ outcome, (operation.run.runFrom p).1 = .ok outcome →
    given.map Prod.fst = operation.attributes ∧ given.map Prod.snd = operation.nameTokens outcome

/-- The tokens that operations give one after the other. -/
inductive GiveInTurn : Placeholders → List Operation → List (String × Token) → Prop where
  | nil (p : Placeholders) : GiveInTurn p [] []
  | cons {p : Placeholders} {operation : Operation} {rest : List Operation}
    {given more : List (String × Token)} (head : operation.Gives p given)
    (tail : GiveInTurn (operation.after p) rest more) :
    GiveInTurn p (operation :: rest) (given ++ more)

theorem exists_gives (operation : Operation) {p : Placeholders} (settled : p.IsSettled) :
    ∃ given, operation.Gives p given := by
  obtain ⟨given, names, asked, complete⟩ := operation.run_namesInTurn p
  refine ⟨given, names, asked, fun outcome succeeded => ?_⟩
  -- The given tokens and those of the outcome stand for the same names in the end.
  have ran : operation.run.runFrom p = (.ok outcome, operation.after p) := Prod.ext succeeded rfl
  have same := complete outcome succeeded
  have given := names.tokens_bound
  rw [same] at given
  have after := names.reaches.isSettled settled
  exact ⟨same, after.tokens_eq given (nameTokens_bound ran)⟩

theorem exists_giveInTurn (operations : List Operation) {p : Placeholders}
    (settled : p.IsSettled) : ∃ given, GiveInTurn p operations given := by
  induction operations generalizing p with
  | nil => exact ⟨[], .nil p⟩
  | cons operation rest ih =>
    obtain ⟨given, head⟩ := operation.exists_gives settled
    obtain ⟨more, tail⟩ := ih (head.names.reaches.isSettled settled)
    exact ⟨given ++ more, .cons head tail⟩

theorem GiveInTurn.names {operations : List Operation} {p : Placeholders}
    {given : List (String × Token)} (inTurn : GiveInTurn p operations given) :
    p.Names given (afterAll operations p) := by
  induction inTurn with
  | nil p => exact .nil p
  | cons head _ ih => exact head.names.append ih

/-- Names and their tokens are one to one. Whatever operations follow each other on placeholders
that start without names, failing ones among them, what is named in the end is what was ever given
a token. No name has two tokens, and wherever two tokens were given in the course of the operations,
they are the same exactly if the attributes are. -/
theorem names_are_bijective (values : Item) (operations : List Operation) :
    let r := afterAll operations { values }
    (∀ token other name, r.names.get? token = some name → r.names.get? other = some name →
      token = other) ∧
    ∃ given, GiveInTurn { values } operations given ∧
      (∀ token name, r.names.get? token = some name ↔ (name, token) ∈ given) ∧
      ∀ one ∈ given, ∀ other ∈ given, one.1 = other.1 ↔ one.2 = other.2 := by
  intro r
  have start := Placeholders.isSettled_start values
  obtain ⟨given, inTurn⟩ := exists_giveInTurn operations start
  have names := inTurn.names
  have settled : r.IsSettled := names.reaches.isSettled start
  -- Nothing was named at the start.
  have named (token : Token) (name : String) :
      r.names.get? token = some name ↔ (name, token) ∈ given := by
    rw [names.get?_iff]
    exact ⟨fun found => found.resolve_left nofun, .inr⟩
  refine ⟨fun _ _ _ found foundToo => settled.token_eq found foundToo, given, inTurn, named, ?_⟩
  rintro ⟨name, token⟩ member ⟨otherName, other⟩ otherMember
  have found := (named token name).mpr member
  have foundToo := (named other otherName).mpr otherMember
  constructor
  · rintro rfl
    exact settled.token_eq found foundToo
  · rintro rfl
    exact Option.some.inj (found.symm.trans foundToo)

/-- The token that `a_b` would be given first is taken, and so is the one numbered from it. It is
named in a query that fails. -/
example :
    let operations : List Operation :=
      [.nameText "a-b[0]", .nameAttribute "a_b_1",
        .compileCondition (.object [("a_b", .null), ("$no", .null)]), .nameText "c.a-b"]
    (afterAll operations {}).names.toList =
      [("#k_a_b", "a-b"), ("#k_a_b_1", "a_b_1"), ("#k_a_b_2", "a_b"), ("#k_c", "c")] := by
  decide +kernel

end Operation

end DocQuery
