import DocQuery.Compile.Projection
import DocQuery.Proofs.Spelling

/-!
# DocQuery.Proofs.ProjectionMeaning

A compiled projection names the paths of its field list.
-/

namespace DocQuery

theorem nameTexts_cons (path : String) (rest : List String) (p : Placeholders) :
    nameTexts (path :: rest) p =
      let name := Naming.nameText path p
      let names := nameTexts rest name.2
      (name.1 :: names.1, names.2) := rfl

theorem composed_nameTexts (paths : List String) : (nameTexts paths).Composed := by
  induction paths with
  | nil => exact Naming.composed_pure []
  | cons path rest ih =>
    refine Naming.composed_bind (Naming.composed_nameText path) fun name => ?_
    exact Naming.composed_bind ih fun names => Naming.composed_pure _

/-- What holds of every path when it is named holds of the paths that are named in turn. -/
theorem forall_mem_nameTexts {property : Path → Prop} {paths : List String}
    (each : ∀ path ∈ paths, ∀ p, property (Naming.nameText path p).1) (p : Placeholders) :
    ∀ path ∈ (nameTexts paths p).1, property path := by
  induction paths generalizing p with
  | nil => exact List.forall_mem_nil _
  | cons path rest ih =>
    obtain ⟨head, tail⟩ := List.forall_mem_cons.mp each
    rw [nameTexts_cons]
    exact List.forall_mem_cons.mpr ⟨head p, ih tail _⟩

theorem nameTexts_spelled {paths : List String} (wellFormed : ∀ path ∈ paths, WellFormedPath path)
    (p : Placeholders) : ∀ path ∈ (nameTexts paths p).1, path.IsSpelled :=
  forall_mem_nameTexts (fun path member p => Naming.nameText_spelled path p (wellFormed path member))
    p

theorem nameTexts_isNameToken (paths : List String) (p : Placeholders) :
    ∀ path ∈ (nameTexts paths p).1, ∀ step ∈ path, IsNameToken step.name :=
  forall_mem_nameTexts (fun path _ p => Naming.namePath_isNameToken (.ofText path) p) p

theorem nameTexts_eq_nil_iff (paths : List String) (p : Placeholders) :
    (nameTexts paths p).1 = [] ↔ paths = [] := by
  cases paths with
  | nil => exact iff_of_true rfl rfl
  | cons path rest => exact iff_of_false (List.cons_ne_nil _ _) (List.cons_ne_nil _ _)

/-- Naming binds no value. -/
theorem Naming.namePath_values (path : Path) (p : Placeholders) :
    (namePath path p).2.values = p.values := by
  induction path generalizing p with
  | nil => rfl
  | cons step rest ih => exact ih (nameAttribute step.name p).2

theorem Naming.nameText_values (path : String) (p : Placeholders) :
    (nameText path p).2.values = p.values :=
  namePath_values (.ofText path) p

theorem nameTexts_values (paths : List String) (p : Placeholders) :
    (nameTexts paths p).2.values = p.values := by
  induction paths generalizing p with
  | nil => rfl
  | cons path rest ih => exact (ih _).trans (Naming.nameText_values path p)

/-- The tokens of a projection stand for the paths of its fields, then and later. -/
theorem nameTexts_bound (paths : List String) (p : Placeholders) {q : Placeholders}
    (later : (nameTexts paths p).2 ≤ q) :
    (nameTexts paths p).1.mapM (Path.resolve? q) = some (paths.map Path.ofText) := by
  induction paths generalizing p with
  | nil => rfl
  | cons path rest ih =>
    rw [nameTexts_cons] at later ⊢
    have tail := ih _ later
    have grown := ((composed_nameTexts rest).registers (Naming.nameText path p).2).le
    have head := Naming.resolve?_nameText path p (le_trans grown later)
    simp [head, tail]

end DocQuery
