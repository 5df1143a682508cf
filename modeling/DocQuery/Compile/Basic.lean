import DocQuery.Compile.Error

/-!
# DocQuery.Compile.Basic

Compilations: computations that register placeholders and may fail.

`Compile.runFrom` is the one view of a compilation; the lemmas here say what it is for each way
of putting compilations together.
-/

namespace DocQuery

/-- A compilation. What it has registered before it fails stays registered. -/
abbrev Compile := ExceptT CompileError Naming

namespace Compile

variable {α β : Type}

/-- The outcome of a compilation that starts from some placeholders, and the placeholders after
it. -/
def runFrom (compile : Compile α) (p : Placeholders) : Except CompileError α × Placeholders :=
  compile.run p

@[simp] theorem runFrom_pure (a : α) (p : Placeholders) :
    runFrom (pure a) p = (.ok a, p) := rfl

@[simp] theorem runFrom_throw (error : CompileError) (p : Placeholders) :
    runFrom (throw error : Compile α) p = (.error error, p) := rfl

/-- Naming and binding never fail. -/
@[simp] theorem runFrom_liftM (naming : Naming α) (p : Placeholders) :
    runFrom (liftM naming) p = (.ok (naming p).1, (naming p).2) := rfl

/-- The second part runs on the placeholders of the first, unless the first fails. -/
theorem runFrom_bind (first : Compile α) (second : α → Compile β) (p : Placeholders) :
    runFrom (first >>= second) p =
      match runFrom first p with
      | (.ok a, q) => runFrom (second a) q
      | (.error error, q) => (.error error, q) := by
  simp only [runFrom, bind, ExceptT.bind, ExceptT.mk, ExceptT.run, StateT.bind]
  rcases first p with ⟨outcome, q⟩
  cases outcome <;> rfl

end Compile

end DocQuery
