import DocQuery.Compile.Basic
import DocQuery.Proofs.TokenChoice
import Mathlib.Logic.Relation
import Mathlib.Order.Defs.PartialOrder

/-!
# DocQuery.Proofs.Registration

What a computation may do to the placeholders, and what the tokens it returns stand for.

## Main results

`Placeholders.Reaches` is the reflexive transitive closure of the three ways to register a
placeholder. Whatever a single registration preserves, every naming and every compilation
preserves, failing ones included (`Naming.Registers`, `Compile.Registers`).

`Placeholders.Reaches.le`: placeholders only grow.

`Placeholders.Binds.bound`: tokens of values that are bound in turn stand for them ever after.
-/

namespace DocQuery

/-! ### Growth -/

/-- Every binding of `m` is a binding of `n`. -/
def Ascending.Within {α : Type} (m n : KeyMap α) : Prop :=
  ∀ key value, m.get? key = some value → n.get? key = some value

/-- `p ≤ q` if everything that `p` binds is bound to the same in `q`. -/
instance : Preorder Placeholders where
  le p q := p.names.Within q.names ∧ p.values.Within q.values
  le_refl _ := ⟨fun _ _ found => found, fun _ _ found => found⟩
  le_trans _ _ _ first second :=
    ⟨fun key value found => second.1 key value (first.1 key value found),
      fun key value found => second.2 key value (first.2 key value found)⟩

theorem Placeholders.names_of_le {p q : Placeholders} (grown : p ≤ q) {token : Token}
    {name : String} (found : p.names.get? token = some name) : q.names.get? token = some name :=
  grown.1 token name found

theorem Placeholders.values_of_le {p q : Placeholders} (grown : p ≤ q) {token : Token}
    {value : AttributeValue} (found : p.values.get? token = some value) :
    q.values.get? token = some value :=
  grown.2 token value found

theorem within_insert_tokenFor {α : Type} [DecidableEq α] (m : KeyMap α) (base : Token)
    (value : α) : m.Within (m.insert (tokenFor m base value) value) := by
  intro key other found
  by_cases here : tokenFor m base value = key
  · -- The chosen token is free or bound to the value already.
    subst here
    rcases tokenFor_suits m base value with free | same
    · simp [free] at found
    · rw [Ascending.get?_insert_self, ← same, found]
  · rw [Ascending.get?_insert_of_ne m here]
    exact found

/-- In a larger map that binds the chosen token to the value, the same token is chosen again. -/
theorem tokenFor_of_within {α : Type} [DecidableEq α] {m n : KeyMap α} {base : Token} {value : α}
    (within : (m.insert (tokenFor m base value) value).Within n) :
    tokenFor n base value = tokenFor m base value := by
  obtain ⟨i, foundFirst, -, passedFirst, -⟩ := tokenFor_spec m base value
  obtain ⟨j, foundAgain, -, passedAgain, fits⟩ := tokenFor_spec n base value
  have bound : n.get? (candidate base i) = some value := by
    rw [← foundFirst]
    exact within _ _ (Ascending.get?_insert_self _ _ _)
  -- The second search does not run past the token, which is bound to the value by now.
  have notAfter : ¬ i < j := by
    intro past
    have taken := passedAgain i past
    rw [suits_iff.mpr (.inr bound)] at taken
    cases taken
  -- Nor does it stop before, because what was taken is bound to the same as ever.
  have notBefore : ¬ j < i := by
    intro early
    obtain ⟨other, found, apart⟩ := suits_eq_false_iff.mp (passedFirst j early)
    have still := within _ _ (within_insert_tokenFor m base value _ _ found)
    rw [foundAgain, suits_iff, still] at fits
    rcases fits with free | same
    · cases free
    · exact apart (Option.some.inj same)
  have same : j = i := by omega
  rw [foundFirst, foundAgain, same]

/-! ### Single registrations -/

namespace Placeholders

/-- One registration. -/
inductive Step : Placeholders → Placeholders → Prop where
  | name (p : Placeholders) (name : String) : Step p (Naming.nameAttribute name p).2
  | bind (p : Placeholders) (key : String) (value : AttributeValue) :
    Step p (Naming.bindValue key value p).2
  | emptyList (p : Placeholders) : Step p (Naming.bindEmptyList p).2

/-- Any number of registrations. -/
abbrev Reaches : Placeholders → Placeholders → Prop :=
  Relation.ReflTransGen Step

theorem Step.le {p q : Placeholders} (step : Step p q) : p ≤ q := by
  cases step with
  | name name => exact ⟨within_insert_tokenFor _ _ _, fun _ _ found => found⟩
  | bind key value => exact ⟨fun _ _ found => found, within_insert_tokenFor _ _ _⟩
  | emptyList =>
    refine ⟨fun _ _ found => found, ?_⟩
    intro token value found
    simp only [Naming.bindEmptyList]
    split
    next free =>
      -- The token is registered only where it is free.
      have apart : emptyListToken ≠ token := by
        intro same
        rw [same, found] at free
        cases free
      rw [Ascending.get?_insert_of_ne _ apart]
      exact found
    next => exact found

/-- Placeholders only grow. -/
theorem Reaches.le {p q : Placeholders} (reaches : Reaches p q) : p ≤ q := by
  induction reaches with
  | refl => exact le_refl p
  | tail _ step grown => exact le_trans grown step.le

/-- Where a name token comes from: it was there before, or has the shape of a name token. -/
theorem Step.names_origin {p q : Placeholders} (step : Step p q) {token : Token} {name : String}
    (found : q.names.get? token = some name) :
    p.names.get? token = some name ∨ IsNameToken token := by
  cases step with
  | name fresh =>
    by_cases here : tokenFor p.names (nameToken fresh) fresh = token
    · -- The token that was just made, perhaps once more.
      right
      rw [← here]
      exact isNameToken_tokenFor p.names fresh fresh
    · left
      simp only [Naming.nameAttribute] at found
      rwa [Ascending.get?_insert_of_ne _ here] at found
  | bind => exact .inl found
  | emptyList => exact .inl found

/-- Where a value token comes from: it was there before, has the shape of a value token, or is
the token of the empty list and stands for it. -/
theorem Step.values_origin {p q : Placeholders} (step : Step p q) {token : Token}
    {value : AttributeValue} (found : q.values.get? token = some value) :
    p.values.get? token = some value ∨ IsValueToken token ∨
      (token = emptyListToken ∧ value = .emptyList) := by
  cases step with
  | name => exact .inl found
  | bind key fresh =>
    by_cases here : tokenFor p.values (valueToken key) fresh = token
    · right; left
      rw [← here]
      exact isValueToken_tokenFor p.values key fresh
    · left
      simp only [Naming.bindValue] at found
      rwa [Ascending.get?_insert_of_ne _ here] at found
  | emptyList =>
    simp only [Naming.bindEmptyList] at found
    split at found
    next =>
      -- Only where it was free does the token of the empty list get an entry.
      by_cases here : emptyListToken = token
      · right; right
        subst here
        rw [Ascending.get?_insert_self] at found
        exact ⟨rfl, (Option.some.inj found).symm⟩
      · left
        rwa [Ascending.get?_insert_of_ne _ here] at found
    next => exact .inl found

theorem Reaches.names_origin {p q : Placeholders} (reaches : Reaches p q) {token : Token}
    {name : String} (found : q.names.get? token = some name) :
    p.names.get? token = some name ∨ IsNameToken token := by
  induction reaches with
  | refl => exact .inl found
  | tail _ step earlier =>
    rcases step.names_origin found with before | shape
    · exact earlier before
    · exact .inr shape

theorem Reaches.values_origin {p q : Placeholders} (reaches : Reaches p q) {token : Token}
    {value : AttributeValue} (found : q.values.get? token = some value) :
    p.values.get? token = some value ∨ IsValueToken token ∨
      (token = emptyListToken ∧ value = .emptyList) := by
  induction reaches with
  | refl => exact .inl found
  | tail _ step earlier =>
    rcases step.values_origin found with before | new
    · exact earlier before
    · exact .inr new

end Placeholders

/-! ### What a registration binds -/

/-- What the token of the empty list stands for once it is registered: the empty list, unless it
was bound to something else before. -/
def Placeholders.emptyList (p : Placeholders) : AttributeValue :=
  (p.values.get? emptyListToken).getD .emptyList

namespace Naming

theorem nameAttribute_bound (name : String) (p : Placeholders) :
    (nameAttribute name p).2.names.get? (nameAttribute name p).1 = some name :=
  Ascending.get?_insert_self _ _ _

theorem bindValue_bound (key : String) (value : AttributeValue) (p : Placeholders) :
    (bindValue key value p).2.values.get? (bindValue key value p).1 = some value :=
  Ascending.get?_insert_self _ _ _

theorem bindEmptyList_bound (p : Placeholders) :
    (bindEmptyList p).2.values.get? emptyListToken = some p.emptyList := by
  simp only [bindEmptyList, Placeholders.emptyList]
  split
  next free => simp [free]
  next found => simp [found]

end Naming

/-! ### Registrations that are asked for again -/

/-- What can be asked of the placeholders: a token for a name, for a value, or for the empty
list. -/
inductive Registration where
  | name (text : String)
  | bind (key : String) (value : AttributeValue)
  | emptyList

namespace Registration

variable {registration : Registration} {p r : Placeholders}

def run : Registration → Naming Token
  | .name text => Naming.nameAttribute text
  | .bind key value => Naming.bindValue key value
  | .emptyList => Naming.bindEmptyList

theorem step (registration : Registration) (p : Placeholders) :
    Placeholders.Step p (registration.run p).2 := by
  cases registration with
  | name text => exact .name p text
  | bind key value => exact .bind p key value
  | emptyList => exact .emptyList p

/-- Asked for once more, a registration gives the same token and registers nothing. -/
theorem run_again (later : (registration.run p).2 ≤ r) :
    registration.run r = ((registration.run p).1, r) := by
  obtain ⟨names, values⟩ := later
  cases registration with
  | name text =>
    have same := tokenFor_of_within names
    have bound := names _ _ (Ascending.get?_insert_self _ _ _)
    simp only [run, Naming.nameAttribute, same, Ascending.insert_eq_self_of_get?_eq_some bound]
  | bind key value =>
    have same := tokenFor_of_within values
    have bound := values _ _ (Ascending.get?_insert_self _ _ _)
    simp only [run, Naming.bindValue, same, Ascending.insert_eq_self_of_get?_eq_some bound]
  | emptyList =>
    have bound := values _ _ (Naming.bindEmptyList_bound p)
    simp only [run, Naming.bindEmptyList, bound]

end Registration

/-! ### Computations that only register -/

open Placeholders (Reaches)

namespace Naming

/-- A naming changes the placeholders by registrations only. -/
def Registers {α : Type} (naming : Naming α) : Prop :=
  ∀ p, Reaches p (naming p).2

end Naming

namespace Compile

variable {α β : Type}

/-- A compilation changes the placeholders by registrations only, whether or not it fails. -/
def Registers (compile : Compile α) : Prop :=
  ∀ p, Reaches p (compile.runFrom p).2

@[simp] theorem runFrom_liftM_bind (naming : Naming α) (next : α → Compile β)
    (p : Placeholders) :
    runFrom (liftM naming >>= next) p = (next (naming p).1).runFrom (naming p).2 := by
  rw [runFrom_bind, runFrom_liftM]

/-- Computations put together of registrations. What comes after a registration may depend on the
token that it gives and on nothing else of the placeholders. -/
inductive Composed {α : Type} : Compile α → Prop where
  | pure (a : α) : Composed (Pure.pure a)
  | throw (error : CompileError) : Composed (throw error)
  | register (registration : Registration) (next : Token → Compile α)
    (each : ∀ token, Composed (next token)) : Composed (liftM registration.run >>= next)

theorem composed_liftExcept (outcome : Except CompileError α) :
    Composed (liftM outcome : Compile α) := by
  cases outcome with
  | ok a => exact .pure a
  | error error => exact .throw error

theorem composed_bind {first : Compile α} {second : α → Compile β} (one : Composed first)
    (two : ∀ a, Composed (second a)) : Composed (first >>= second) := by
  induction one with
  | pure a =>
    rw [pure_bind]
    exact two a
  | throw error => exact .throw error
  | register registration next _ ih =>
    rw [bind_assoc]
    exact .register registration _ ih

namespace Composed

variable {compile : Compile α} {p q r : Placeholders}

theorem registers (composed : compile.Composed) : compile.Registers := by
  induction composed with
  | pure a => exact fun _ => .refl
  | throw error => exact fun _ => .refl
  | register registration next _ ih =>
    intro p
    rw [runFrom_liftM_bind]
    exact .head (registration.step p) (ih _ _)

theorem le (composed : compile.Composed) {outcome : Except CompileError α}
    (ran : compile.runFrom p = (outcome, q)) : p ≤ q := by
  have grown := (composed.registers p).le
  rwa [ran] at grown

/-- On placeholders that hold what it registered, a computation has the same outcome as before and
registers nothing. -/
theorem runFrom_again (composed : compile.Composed) (later : (compile.runFrom p).2 ≤ r) :
    compile.runFrom r = ((compile.runFrom p).1, r) := by
  induction composed generalizing p with
  | pure a => rfl
  | throw error => rfl
  | register registration next each ih =>
    rw [runFrom_liftM_bind] at later ⊢
    -- What the first registration binds is still bound after the rest of the run.
    have grown := ((each (registration.run p).1).registers (registration.run p).2).le
    rw [Registration.run_again (le_trans grown later), runFrom_liftM_bind]
    exact ih _ later

end Composed

theorem exists_ok_of_isOk {ε : Type} {outcome : Except ε α} (succeeds : outcome.isOk = true) :
    ∃ a, outcome = .ok a := by
  cases outcome with
  | error => cases succeeds
  | ok a => exact ⟨a, rfl⟩

theorem runFrom_ok_of_isOk {compile : Compile α} {p : Placeholders}
    (succeeds : (compile.runFrom p).1.isOk = true) : ∃ a q, compile.runFrom p = (.ok a, q) := by
  obtain ⟨a, succeeded⟩ := exists_ok_of_isOk succeeds
  exact ⟨a, (compile.runFrom p).2, Prod.ext succeeded rfl⟩

/-- A computation in two parts succeeds exactly if both parts do. -/
theorem runFrom_bind_ok {first : Compile α} {second : α → Compile β} {p r : Placeholders}
    {b : β} : runFrom (first >>= second) p = (.ok b, r) ↔
      ∃ a q, first.runFrom p = (.ok a, q) ∧ (second a).runFrom q = (.ok b, r) := by
  rw [runFrom_bind]
  rcases first.runFrom p with ⟨outcome, q⟩
  cases outcome <;> simp

theorem runFrom_map_ok {compile : Compile α} {f : α → β} {p r : Placeholders} {b : β} :
    runFrom (compile >>= fun a => pure (f a)) p = (.ok b, r) ↔
      ∃ a, compile.runFrom p = (.ok a, r) ∧ f a = b := by
  rw [runFrom_bind_ok]
  constructor
  · rintro ⟨a, q, ran, last⟩
    cases last
    exact ⟨a, ran, rfl⟩
  · rintro ⟨a, ran, rfl⟩
    exact ⟨a, r, ran, rfl⟩

/-- A computation that ends in a naming goes on from what the naming leaves. -/
theorem runFrom_liftM_map_ok {naming : Naming α} {f : α → β} {p q : Placeholders} {b : β} :
    runFrom (liftM naming >>= fun a => pure (f a)) p = (.ok b, q) ↔
      f (naming p).1 = b ∧ (naming p).2 = q := by
  rw [runFrom_liftM_bind, runFrom_pure, Prod.mk.injEq, Except.ok.injEq]

theorem runFrom_liftExcept_bind_ok {outcome : Except CompileError α} {next : α → Compile β}
    {p r : Placeholders} {b : β} : runFrom (liftM outcome >>= next) p = (.ok b, r) ↔
      ∃ a, outcome = .ok a ∧ (next a).runFrom p = (.ok b, r) := by
  rw [runFrom_bind_ok]
  constructor
  · rintro ⟨a, q, lifted, ran⟩
    cases lifted
    exact ⟨a, rfl, ran⟩
  · rintro ⟨a, rfl, ran⟩
    exact ⟨a, p, rfl, ran⟩

/-- One computation for each input in turn, each from what the one before it has left. -/
inductive Threaded {ι : Type} (compile : ι → Compile α) :
    Placeholders → List ι → List α → Placeholders → Prop where
  | nil (p : Placeholders) : Threaded compile p [] [] p
  | cons {p q r : Placeholders} {input : ι} {inputs : List ι} {a : α} {results : List α}
    (head : (compile input).runFrom p = (.ok a, q)) (tail : Threaded compile q inputs results r) :
    Threaded compile p (input :: inputs) (a :: results) r

namespace Threaded

variable {ι : Type} {compile : ι → Compile α} {p q r : Placeholders}

theorem single {input : ι} {a : α} (ran : (compile input).runFrom p = (.ok a, q)) :
    Threaded compile p [input] [a] q :=
  .cons ran (.nil q)

theorem append {inputs others : List ι} {results more : List α}
    (first : Threaded compile p inputs results q) (second : Threaded compile q others more r) :
    Threaded compile p (inputs ++ others) (results ++ more) r := by
  induction first with
  | nil => exact second
  | cons head _ ih => exact .cons head (ih second)

/-- Runs that are each made of further runs. -/
theorem flatMap {κ β : Type} {inner : κ → Compile β} {inputsOf : ι → List κ}
    {resultsOf : α → List β}
    (each : ∀ {input p a q}, (compile input).runFrom p = (.ok a, q) →
      Threaded inner p (inputsOf input) (resultsOf a) q)
    {inputs : List ι} {results : List α} (ran : Threaded compile p inputs results q) :
    Threaded inner p (inputs.flatMap inputsOf) (results.flatMap resultsOf) q := by
  induction ran with
  | nil p => exact .nil p
  | cons head _ ih => exact (each head).append ih

theorem reaches (composed : ∀ input, (compile input).Composed) {inputs : List ι}
    {results : List α} (ran : Threaded compile p inputs results q) : Reaches p q := by
  induction ran with
  | nil => exact .refl
  | @cons p _ _ input _ _ _ head _ ih =>
    have first := (composed input).registers p
    rw [head] at first
    exact first.trans ih

theorem le (composed : ∀ input, (compile input).Composed) {inputs : List ι}
    {results : List α} (ran : Threaded compile p inputs results q) : p ≤ q :=
  (ran.reaches composed).le

/-- If each input has a property whenever its result is `found` so, then all inputs have it if all
results are. -/
theorem forall_inputs {found : α → Prop} {property : ι → Prop} {inputs : List ι}
    {results : List α}
    (each : ∀ {input p a q}, (compile input).runFrom p = (.ok a, q) → found a → property input)
    (ran : Threaded compile p inputs results q) (all : ∀ a ∈ results, found a) :
    ∀ input ∈ inputs, property input := by
  induction ran with
  | nil => exact List.forall_mem_nil _
  | cons head _ ih =>
    obtain ⟨first, rest⟩ := List.forall_mem_cons.mp all
    exact List.forall_mem_cons.mpr ⟨each head first, ih rest⟩

theorem forall_results {property : α → Prop} {inputs : List ι} {results : List α}
    (each : ∀ input ∈ inputs, ∀ {p a q}, (compile input).runFrom p = (.ok a, q) → property a)
    (ran : Threaded compile p inputs results q) : ∀ a ∈ results, property a := by
  induction ran with
  | nil => simp
  | cons head _ ih =>
    obtain ⟨first, rest⟩ := List.forall_mem_cons.mp each
    exact List.forall_mem_cons.mpr ⟨first head, ih rest⟩

/-- If each input and what becomes of it agree, ever after, so do all of them. The placeholders
on the way are reached from `origin`. -/
theorem mapM_agree {β : Type} (composed : ∀ input, (compile input).Composed)
    {expected : ι → Option β} {found : α → Option β} {origin : Placeholders}
    (each : ∀ {input p a q}, Reaches origin p → (compile input).runFrom p = (.ok a, q) → q ≤ r →
      ∃ b, expected input = some b ∧ found a = some b)
    {inputs : List ι} {results : List α} (start : Reaches origin p)
    (ran : Threaded compile p inputs results q) (later : q ≤ r) :
    ∃ bs, inputs.mapM expected = some bs ∧ results.mapM found = some bs := by
  induction ran with
  | nil => exact ⟨[], rfl, rfl⟩
  | @cons p _ _ input _ _ _ head tail ih =>
    -- The first input agrees after its own computation, and the rest only adds to that.
    have grown := (composed input).registers p
    rw [head] at grown
    obtain ⟨b, wanted, got⟩ := each start head (le_trans (tail.le composed) later)
    obtain ⟨bs, allWanted, allGot⟩ := ih (start.trans grown) later
    exact ⟨b :: bs, by simp [wanted, allWanted], by simp [got, allGot]⟩

end Threaded

end Compile

/-! ### Namings -/

namespace Naming

variable {α β : Type}

/-- A naming put together of registrations. -/
def Composed (naming : Naming α) : Prop :=
  Compile.Composed (liftM naming)

theorem Composed.registers {naming : Naming α} (composed : naming.Composed) : naming.Registers :=
  Compile.Composed.registers composed

theorem composed_pure (a : α) : Composed (pure a : Naming α) := Compile.Composed.pure a

theorem composed_bind {first : Naming α} {second : α → Naming β} (one : Composed first)
    (two : ∀ a, Composed (second a)) : Composed (first >>= second) :=
  Compile.composed_bind one two

theorem composed_registration (registration : Registration) : Composed registration.run := by
  rw [Composed, ← bind_pure (liftM registration.run)]
  exact .register registration _ fun token => .pure token

theorem composed_nameAttribute (name : String) : Composed (nameAttribute name) :=
  composed_registration (.name name)

theorem composed_bindValue (key : String) (value : AttributeValue) :
    Composed (bindValue key value) :=
  composed_registration (.bind key value)

theorem composed_bindEmptyList : Composed bindEmptyList :=
  composed_registration .emptyList

theorem composed_namePath (path : Path) : Composed (namePath path) := by
  induction path with
  | nil => exact composed_pure []
  | cons step rest ih =>
    refine composed_bind (composed_nameAttribute step.name) fun token => ?_
    exact composed_bind ih fun steps => composed_pure _

theorem composed_nameText (path : String) : Composed (nameText path) :=
  composed_namePath _

theorem composed_bindDocument (key : String) (document : Document) :
    Composed (bindDocument key document) :=
  composed_bindValue key _

theorem composed_bindEachFrom (key : String) (index : Nat) (documents : List Document) :
    Composed (bindEachFrom key index documents) := by
  induction documents generalizing index with
  | nil => exact composed_pure []
  | cons document rest ih =>
    refine composed_bind (composed_bindDocument _ document) fun token => ?_
    exact composed_bind (ih (index + 1)) fun tokens => composed_pure _

theorem composed_bindEach (key : String) (documents : List Document) :
    Composed (bindEach key documents) :=
  composed_bindEachFrom key 0 documents

end Naming

theorem Compile.composed_liftM {α : Type} {naming : Naming α} (composed : naming.Composed) :
    Compile.Composed (liftM naming) := composed

/-! ### What tokens stand for -/

/-- The path with every token replaced by the name that it stands for. -/
def Path.resolve? (p : Placeholders) (path : Path) : Option Path :=
  path.mapM fun step => (p.names.get? step.name).map fun name => { step with name }

namespace Naming

theorem namePath_cons (step : Step) (rest : Path) (p : Placeholders) :
    namePath (step :: rest) p =
      let token := nameAttribute step.name p
      let steps := namePath rest token.2
      ({ step with name := token.1 } :: steps.1, steps.2) := rfl

theorem bindEachFrom_cons (key : String) (index : Nat) (document : Document)
    (rest : List Document) (p : Placeholders) :
    bindEachFrom key index (document :: rest) p =
      let token := bindDocument (key ++ "_" ++ String.ofList (digitsOf index)) document p
      let tokens := bindEachFrom key (index + 1) rest token.2
      (token.1 :: tokens.1, tokens.2) := rfl

/-- The tokens of a path stand for its names, then and later. -/
theorem resolve?_namePath (path : Path) (p : Placeholders) {q : Placeholders}
    (later : (namePath path p).2 ≤ q) : (namePath path p).1.resolve? q = some path := by
  induction path generalizing p with
  | nil => rfl
  | cons step rest ih =>
    have tail := ih (nameAttribute step.name p).2 later
    -- The first token outlives the naming of the other steps.
    have head : q.names.get? (nameAttribute step.name p).1 = some step.name := by
      apply Placeholders.names_of_le _ (nameAttribute_bound step.name p)
      exact le_trans ((composed_namePath rest).registers _).le later
    rw [Path.resolve?] at tail
    simp [Path.resolve?, namePath_cons, head, tail]

theorem resolve?_nameText (path : String) (p : Placeholders) {q : Placeholders}
    (later : (nameText path p).2 ≤ q) :
    (nameText path p).1.resolve? q = some (Path.ofText path) :=
  resolve?_namePath _ p later

theorem bindDocument_bound (key : String) (document : Document) (p : Placeholders)
    {q : Placeholders} (later : (bindDocument key document p).2 ≤ q) :
    q.values.get? (bindDocument key document p).1 = some (.ofDocument document) :=
  Placeholders.values_of_le later (bindValue_bound key _ p)

end Naming

/-! ### Values bound in turn -/

namespace Placeholders

theorem emptyList_eq_iff {p : Placeholders} : p.emptyList = .emptyList ↔
    p.values.get? emptyListToken = none ∨ p.values.get? emptyListToken = some .emptyList := by
  unfold emptyList
  cases p.values.get? emptyListToken <;> simp

theorem emptyList_of_unclaimed {p : Placeholders}
    (unclaimed : p.values.get? emptyListToken = none ∨
      p.values.get? emptyListToken = some .emptyList) : p.emptyList = .emptyList :=
  emptyList_eq_iff.mpr unclaimed

theorem Reaches.emptyList_eq {p q : Placeholders} (reaches : Reaches p q) :
    q.emptyList = p.emptyList := by
  unfold emptyList
  cases before : p.values.get? emptyListToken with
  | some value => rw [values_of_le reaches.le before]
  | none =>
    cases after : q.values.get? emptyListToken with
    | none => rfl
    | some value =>
      -- No key is bound under this token, so it was registered as what it is.
      rcases reaches.values_origin after with found | shape | ⟨-, same⟩
      · rw [before] at found
        cases found
      · exact absurd shape not_isValueToken_emptyListToken
      · exact same

/-- Values that are bound one after the other, each with the token that it gets. -/
inductive Binds : Placeholders → List AttributeValue → List Token → Placeholders → Prop where
  | nil (p : Placeholders) : Binds p [] [] p
  | value {p q : Placeholders} {values : List AttributeValue} {tokens : List Token}
    (key : String) (value : AttributeValue)
    (rest : Binds (Naming.bindValue key value p).2 values tokens q) :
    Binds p (value :: values) ((Naming.bindValue key value p).1 :: tokens) q
  | emptyList {p q : Placeholders} {values : List AttributeValue} {tokens : List Token}
    (rest : Binds (Naming.bindEmptyList p).2 values tokens q) :
    Binds p (p.emptyList :: values) (emptyListToken :: tokens) q

namespace Binds

variable {p q r : Placeholders} {values : List AttributeValue} {tokens : List Token}

theorem single (key : String) (value : AttributeValue) (p : Placeholders) :
    Binds p [value] [(Naming.bindValue key value p).1] (Naming.bindValue key value p).2 :=
  .value key value (.nil _)

theorem reaches (binds : Binds p values tokens q) : Reaches p q := by
  induction binds with
  | nil => exact .refl
  | value key value _ ih => exact ((Naming.composed_bindValue key value).registers _).trans ih
  | emptyList _ ih => exact (Naming.composed_bindEmptyList.registers _).trans ih

/-- The tokens stand for the values one by one, then and later. -/
theorem bound (binds : Binds p values tokens q) (later : q ≤ r) :
    tokens.mapM r.values.get? = some values := by
  induction binds with
  | nil => rfl
  | value key value rest ih =>
    have grown := le_trans rest.reaches.le later
    have head := values_of_le grown (Naming.bindValue_bound key value _)
    simp [head, ih later]
  | emptyList rest ih =>
    have grown := le_trans rest.reaches.le later
    have head := values_of_le grown (Naming.bindEmptyList_bound _)
    simp [head, ih later]

end Binds

end Placeholders

namespace Naming

theorem bindEachFrom_binds (key : String) (index : Nat) (documents : List Document)
    (p : Placeholders) :
    p.Binds (documents.map .ofDocument) (bindEachFrom key index documents p).1
      (bindEachFrom key index documents p).2 := by
  induction documents generalizing index p with
  | nil => exact .nil p
  | cons document rest ih =>
    rw [bindEachFrom_cons]
    exact .value _ _ (ih (index + 1) _)

/-- Several documents are bound one by one. -/
theorem bindEach_binds (key : String) (documents : List Document) (p : Placeholders) :
    p.Binds (documents.map .ofDocument) (bindEach key documents p).1
      (bindEach key documents p).2 :=
  bindEachFrom_binds key 0 documents p

end Naming

end DocQuery
