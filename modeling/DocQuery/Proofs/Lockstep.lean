import DocQuery.Proofs.Registration

/-!
# DocQuery.Proofs.Lockstep

Two computations side by side, each on placeholders of its own.

The tokens that two runs are given differ as soon as their placeholders do, but both runs ask for
the same registrations in the same order. What their results have in common is said about
placeholders `r` and `s` in which the tokens are looked up when both runs are over.

## Proof strategy

That a token stands for what it was given for holds in later placeholders only, and so a judgement
about two computations carries the facts that are `given` when it is used. One rule for each way of
putting computations together is all that is needed of it.

## Main result

`Compile.Lockstep.outcomes`: two computations in lockstep fail alike, or have results that agree.
-/

namespace DocQuery

/-! ### One registration -/

namespace Registration

/-- The name that is asked for, if it is a name. -/
def names : Registration → List String
  | .name text => [text]
  | .bind .. | .emptyList => []

/-- The token is one that may be given for a registration, and stands for what was asked for. -/
def Stands (r : Placeholders) (token : Token) : Registration → Prop
  | .name text => IsNameToken token ∧ r.names.get? token = some text
  | .bind _ value => IsValueToken token ∧ r.values.get? token = some value
  | .emptyList => token = emptyListToken ∧ r.values.get? token = some r.emptyList

theorem run_stands (registration : Registration) {p r : Placeholders}
    (later : (registration.run p).2 ≤ r) : registration.Stands r (registration.run p).1 := by
  cases registration with
  | name text =>
    exact ⟨isNameToken_tokenFor p.names text text,
      Placeholders.names_of_le later (Naming.nameAttribute_bound text p)⟩
  | bind key value =>
    exact ⟨isValueToken_tokenFor p.values key value,
      Placeholders.values_of_le later (Naming.bindValue_bound key value p)⟩
  | emptyList =>
    have bound := Placeholders.values_of_le later (Naming.bindEmptyList_bound p)
    refine ⟨rfl, ?_⟩
    rw [Placeholders.emptyList, bound, Option.getD_some]
    exact bound

end Registration

/-! ### Two computations -/

namespace Compile

variable {α β γ δ : Type}

/-- Both fail with one error, or both succeed with results that agree. -/
def Outcomes (agree : α → β → Prop) : Except CompileError α → Except CompileError β → Prop
  | .ok a, .ok b => agree a b
  | .error one, .error other => one = other
  | _, _ => False

/-- Two computations that ask for the same registrations, among them these names in turn, unless
both fail before. What comes after a registration may depend on the token that it gives, and their
results agree if what is given holds and every token stands for what it was given for, in `r` those
of the first computation and in `s` those of the second. -/
inductive Lockstep (r s : Placeholders) (agree : α → β → Prop) :
    Prop → List String → Compile α → Compile β → Prop where
  | pure {given : Prop} {a : α} {b : β} (same : given → agree a b) :
    Lockstep r s agree given [] (Pure.pure a) (Pure.pure b)
  | throw {given : Prop} (names : List String) (error : CompileError) :
    Lockstep r s agree given names (throw error) (throw error)
  | register {given : Prop} {names : List String} (registration : Registration)
    (next : Token → Compile α) (other : Token → Compile β)
    (each : ∀ token twin,
      Lockstep r s agree (given ∧ registration.Stands r token ∧ registration.Stands s twin) names
        (next token) (other twin)) :
    Lockstep r s agree given (registration.names ++ names)
      (liftM registration.run >>= next) (liftM registration.run >>= other)

namespace Lockstep

variable {r s : Placeholders} {agree : α → β → Prop} {given : Prop} {names more : List String}
  {one : Compile α} {other : Compile β}

theorem mono {known : Prop} (lockstep : Lockstep r s agree given names one other)
    (stronger : known → given) : Lockstep r s agree known names one other := by
  induction lockstep generalizing known with
  | pure same => exact .pure fun holds => same (stronger holds)
  | throw names error => exact .throw names error
  | register registration next other _ ih =>
    refine .register registration next other fun token twin => ih token twin ?_
    exact fun ⟨holds, stand⟩ => ⟨stronger holds, stand⟩

theorem bind {agreeToo : γ → δ → Prop} {next : α → Compile γ} {following : β → Compile δ}
    (first : Lockstep r s agree given names one other)
    (second : ∀ a b, Lockstep r s agreeToo (given ∧ agree a b) more (next a) (following b)) :
    Lockstep r s agreeToo given (names ++ more) (one >>= next) (other >>= following) := by
  induction first with
  | @pure given a b same =>
    rw [pure_bind, pure_bind]
    exact (second a b).mono fun holds => ⟨holds, same holds⟩
  | throw names error => exact .throw _ error
  | register registration next other _ ih =>
    rw [bind_assoc, bind_assoc, List.append_assoc]
    refine .register registration _ _ fun token twin => ih token twin fun a b => ?_
    exact (second a b).mono fun ⟨⟨holds, _⟩, same⟩ => ⟨holds, same⟩

/-- Results that are only put into another form. -/
theorem map {agreeToo : γ → δ → Prop} {f : α → γ} {g : β → δ}
    (lockstep : Lockstep r s agree given names one other)
    (each : ∀ a b, given → agree a b → agreeToo (f a) (g b)) :
    Lockstep r s agreeToo given names (one >>= fun a => Pure.pure (f a))
      (other >>= fun b => Pure.pure (g b)) := by
  rw [← List.append_nil names]
  exact lockstep.bind fun a b => .pure fun ⟨holds, same⟩ => each a b holds same

/-- Two computations one after the other, whose results are put together. -/
theorem map₂ {ε ζ : Type} {agreeToo : γ → δ → Prop} {agreeBoth : ε → ζ → Prop}
    {next : Compile γ} {following : Compile δ} {f : α → γ → ε} {g : β → δ → ζ}
    (first : Lockstep r s agree given names one other)
    (second : Lockstep r s agreeToo given more next following)
    (each : ∀ a b c d, given → agree a b → agreeToo c d → agreeBoth (f a c) (g b d)) :
    Lockstep r s agreeBoth given (names ++ more)
      (one >>= fun a => next >>= fun c => Pure.pure (f a c))
      (other >>= fun b => following >>= fun d => Pure.pure (g b d)) :=
  first.bind fun a b => (second.mono And.left).map fun c d ⟨holds, same⟩ => each a b c d holds same

theorem imp {agreeToo : α → β → Prop} (lockstep : Lockstep r s agree given names one other)
    (each : ∀ a b, given → agree a b → agreeToo a b) :
    Lockstep r s agreeToo given names one other := by
  rw [← bind_pure one, ← bind_pure other]
  exact lockstep.map each

theorem composed (lockstep : Lockstep r s agree given names one other) :
    one.Composed ∧ other.Composed := by
  induction lockstep with
  | pure => exact ⟨.pure _, .pure _⟩
  | throw names error => exact ⟨.throw error, .throw error⟩
  | register registration next other _ ih =>
    exact ⟨.register registration next fun token => (ih token token).1,
      .register registration other fun token => (ih token token).2⟩

/-- Where all tokens stand for what they were given for, computations in lockstep fail alike or
have results that agree. -/
theorem outcomes {p q : Placeholders} (lockstep : Lockstep r s agree given names one other)
    (holds : given) (later : (one.runFrom p).2 ≤ r) (laterToo : (other.runFrom q).2 ≤ s) :
    Outcomes agree (one.runFrom p).1 (other.runFrom q).1 := by
  induction lockstep generalizing p q with
  | pure same => exact same holds
  | throw names error => rfl
  | register registration next other each ih =>
    rw [runFrom_liftM_bind] at later laterToo ⊢
    rw [runFrom_liftM_bind]
    -- What the registration binds is still bound when the rest of both runs is over.
    obtain ⟨composed, composedToo⟩ := (each (registration.run p).1 (registration.run q).1).composed
    have stands := registration.run_stands (le_trans (composed.registers _).le later)
    have standsToo := registration.run_stands (le_trans (composedToo.registers _).le laterToo)
    exact ih _ _ ⟨holds, stands, standsToo⟩ later laterToo

end Lockstep

/-- What is worked out without placeholders is the same for both. -/
theorem lockstep_liftExcept_bind {r s : Placeholders} {agree : γ → δ → Prop} {given : Prop}
    {names : List String} {next : α → Compile γ} {following : α → Compile δ}
    (outcome : Except CompileError α)
    (each : ∀ a, Lockstep r s agree given names (next a) (following a)) :
    Lockstep r s agree given names (liftM outcome >>= next) (liftM outcome >>= following) := by
  cases outcome with
  | ok a => exact each a
  | error error => exact .throw names error

end Compile

namespace Naming

open Compile

variable {α β γ δ : Type} {r s : Placeholders} {given : Prop}

/-- Two namings in lockstep. -/
def Lockstep (r s : Placeholders) (agree : α → β → Prop) (given : Prop) (names : List String)
    (one : Naming α) (other : Naming β) : Prop :=
  Compile.Lockstep r s agree given names (liftM one) (liftM other)

theorem lockstep_pure {agree : α → β → Prop} {a : α} {b : β} (same : given → agree a b) :
    Lockstep r s agree given [] (pure a) (pure b) :=
  Compile.Lockstep.pure same

theorem Lockstep.map₂ {ε ζ : Type} {agree : α → β → Prop} {agreeToo : γ → δ → Prop}
    {agreeBoth : ε → ζ → Prop} {names more : List String} {one : Naming α} {other : Naming β}
    {next : Naming γ} {following : Naming δ} {f : α → γ → ε} {g : β → δ → ζ}
    (first : Lockstep r s agree given names one other)
    (second : Lockstep r s agreeToo given more next following)
    (each : ∀ a b c d, given → agree a b → agreeToo c d → agreeBoth (f a c) (g b d)) :
    Lockstep r s agreeBoth given (names ++ more)
      (one >>= fun a => next >>= fun c => pure (f a c))
      (other >>= fun b => following >>= fun d => pure (g b d)) :=
  Compile.Lockstep.map₂ first second each

theorem lockstep_registration (registration : Registration) :
    Lockstep r s (fun token twin => registration.Stands r token ∧ registration.Stands s twin)
      given registration.names registration.run registration.run := by
  rw [Lockstep, ← bind_pure (liftM registration.run), ← List.append_nil registration.names]
  exact .register registration _ _ fun token twin => .pure fun ⟨_, stand⟩ => stand

end Naming

end DocQuery
