import DocQuery.Proofs.Registration

/-!
# DocQuery.Proofs.Acceptance

Compilations that accept some inputs and report a fault of all others.

What is registered decides how tokens are spelled, never whether a document is compiled. So a
compilation has one condition for its success and one description of its errors, and these are put
together like the compilation: the second part is looked at only if the first was accepted.

## Main results

`Compile.Checks.bind`: the faults of two parts in turn.
`Compile.Checks.cons`: of several inputs, the first one that is not accepted is reported.
`Document.checks_of_object`: the same of the fields of an object.
-/

namespace DocQuery

variable {α β ι : Type}

/-! ### Outcomes -/

/-- An outcome that is a success if something is accepted, and one of its faults otherwise. -/
structure Judges (outcome : Except CompileError α) (accepted : Prop)
    (fault : CompileError → Prop) : Prop where
  ok_iff : (∃ a, outcome = .ok a) ↔ accepted
  error_iff : ∀ error, outcome = .error error ↔ fault error

namespace Judges

variable {outcome : Except CompileError α} {accepted other : Prop}
  {fault otherFault : CompileError → Prop}

theorem ok (a : α) : Judges (.ok a) True fun _ => False where
  ok_iff := iff_of_true ⟨a, rfl⟩ trivial
  error_iff _ := iff_of_false nofun id

theorem error (error : CompileError) : Judges (.error error : Except CompileError α) False
    (error = ·) where
  ok_iff := iff_of_false nofun id
  error_iff _ := by rw [Except.error.injEq]

theorem congr (judges : Judges outcome accepted fault) (same : accepted ↔ other)
    (sameFaults : ∀ error, fault error ↔ otherFault error) : Judges outcome other otherFault where
  ok_iff := judges.ok_iff.trans same
  error_iff error := (judges.error_iff error).trans (sameFaults error)

/-- A success of what is accepted. -/
theorem accept (a : α) (holds : accepted) (faultless : ∀ error, ¬ fault error) :
    Judges (.ok a) accepted fault :=
  (ok a).congr (iff_of_true trivial holds) fun error => iff_of_false id (faultless error)

/-- The one fault of what is not accepted. -/
theorem refuse {error : CompileError} (refused : ¬ accepted)
    (only : ∀ other, error = other ↔ fault other) :
    Judges (.error error : Except CompileError α) accepted fault :=
  (Judges.error error).congr (iff_of_false id refused) only

theorem map {f : α → β} (judges : Judges outcome accepted fault) :
    Judges (outcome.map f) accepted fault where
  ok_iff := by
    rw [← judges.ok_iff]
    cases outcome <;> simp [Except.map]
  error_iff error := by
    rw [← judges.error_iff]
    cases outcome <;> simp [Except.map]

end Judges

/-- Whether a fault is that of the first item which is not accepted. -/
def FirstAmong (accepted : ι → Prop) (fault : ι → CompileError → Prop) (items : List ι)
    (error : CompileError) : Prop :=
  ∃ before item after, items = before ++ item :: after ∧ (∀ earlier ∈ before, accepted earlier) ∧
    fault item error

section FirstAmong

variable {accepted : ι → Prop} {fault : ι → CompileError → Prop} {item : ι} {rest : List ι}
  {error : CompileError}

theorem not_firstAmong_nil : ¬ FirstAmong accepted fault [] error := by
  rintro ⟨before, item, after, split, -⟩
  exact List.append_ne_nil_of_right_ne_nil before (List.cons_ne_nil item after) split.symm

theorem firstAmong_cons : FirstAmong accepted fault (item :: rest) error ↔
    fault item error ∨ accepted item ∧ FirstAmong accepted fault rest error := by
  constructor
  · rintro ⟨before, faulty, after, split, earlier, isFault⟩
    cases before with
    | nil =>
      obtain ⟨rfl, -⟩ := List.cons.inj split
      exact .inl isFault
    | cons first before =>
      obtain ⟨rfl, rfl⟩ := List.cons.inj split
      obtain ⟨head, others⟩ := List.forall_mem_cons.mp earlier
      exact .inr ⟨head, before, faulty, after, rfl, others, isFault⟩
  · rintro (isFault | ⟨head, before, faulty, after, rfl, others, isFault⟩)
    · exact ⟨[], item, rest, rfl, List.forall_mem_nil _, isFault⟩
    · exact ⟨item :: before, faulty, after, rfl, List.forall_mem_cons.mpr ⟨head, others⟩, isFault⟩

end FirstAmong

/-! ### Compilations -/

namespace Compile

/-- A compilation that is judged alike whatever was registered before. -/
def Checks (compile : Compile α) (accepted : Prop) (fault : CompileError → Prop) : Prop :=
  ∀ p, Judges (compile.runFrom p).1 accepted fault

namespace Checks

variable {compile : Compile α} {next : α → Compile β} {accepted other : Prop}
  {fault otherFault : CompileError → Prop}

theorem pure (a : α) : (Pure.pure a : Compile α).Checks True fun _ => False :=
  fun _ => .ok a

theorem throw (error : CompileError) : (throw error : Compile α).Checks False (error = ·) :=
  fun _ => .error error

theorem congr (checks : compile.Checks accepted fault) (same : accepted ↔ other)
    (sameFaults : ∀ error, fault error ↔ otherFault error) : compile.Checks other otherFault :=
  fun p => (checks p).congr same sameFaults

/-- What never fails accepts everything. -/
theorem accept (checks : compile.Checks True fun _ => False) (holds : accepted)
    (faultless : ∀ error, ¬ fault error) : compile.Checks accepted fault :=
  checks.congr (iff_of_true trivial holds) fun error => iff_of_false id (faultless error)

/-- What always fails reports one fault. -/
theorem refuse {error : CompileError} (refused : ¬ accepted)
    (only : ∀ other, error = other ↔ fault other) :
    (MonadExcept.throw error : Compile α).Checks accepted fault :=
  fun _ => .refuse refused only

theorem ofExcept {outcome : Except CompileError α} (judges : Judges outcome accepted fault) :
    (liftM outcome : Compile α).Checks accepted fault := by
  cases outcome <;> exact fun _ => judges

/-- Naming and binding are no reason to fail. -/
theorem naming {naming : Naming α} (checks : ∀ a, (next a).Checks accepted fault) :
    (liftM naming >>= next).Checks accepted fault := by
  intro p
  rw [runFrom_liftM_bind]
  exact checks _ _

/-- The second part is looked at only if the first was accepted. -/
theorem bind (first : compile.Checks accepted fault)
    (second : ∀ a, (next a).Checks other otherFault) :
    (compile >>= next).Checks (accepted ∧ other) fun error =>
      fault error ∨ accepted ∧ otherFault error := by
  intro p
  have judged := first p
  obtain ⟨⟨outcome, q⟩, ran⟩ : ∃ result, compile.runFrom p = result := ⟨_, rfl⟩
  rw [runFrom_bind, ran]
  rw [ran] at judged
  -- The outcome of the first part decides whether it was accepted, so one case is left of each
  -- disjunction.
  cases outcome with
  | ok a =>
    have holds : accepted := judged.ok_iff.mp ⟨a, rfl⟩
    have faultless : ∀ error, ¬ fault error := fun error isFault =>
      nomatch (judged.error_iff error).mpr isFault
    exact (second a q).congr (and_iff_right holds).symm fun error => by
      rw [or_iff_right (faultless error), and_iff_right holds]
  | error error =>
    have refused : ¬ accepted := fun holds => nomatch judged.ok_iff.mpr holds
    have only : ∀ other, error = other ↔ fault other := fun other => by
      rw [← judged.error_iff, Except.error.injEq]
    exact .refuse (fun both => refused both.1) fun other => by
      rw [only, or_iff_left fun both => refused both.1]

/-- What comes behind the last check changes nothing of it. -/
theorem andThen (first : compile.Checks accepted fault)
    (second : ∀ a, (next a).Checks True fun _ => False) :
    (compile >>= next).Checks accepted fault :=
  (first.bind second).congr (and_iff_left trivial) fun _ => or_iff_left And.right

theorem map {f : α → β} (checks : compile.Checks accepted fault) :
    (compile >>= fun a => Pure.pure (f a)).Checks accepted fault :=
  checks.andThen fun _ => pure _

/-- Of several inputs, the first one that is not accepted is reported. -/
theorem cons {accepted : ι → Prop} {fault : ι → CompileError → Prop} {item : ι} {rest : List ι}
    (head : compile.Checks (accepted item) (fault item))
    (tail : ∀ a, (next a).Checks (∀ other ∈ rest, accepted other) (FirstAmong accepted fault rest)) :
    (compile >>= next).Checks (∀ other ∈ item :: rest, accepted other)
      (FirstAmong accepted fault (item :: rest)) :=
  (head.bind tail).congr List.forall_mem_cons.symm fun _ => firstAmong_cons.symm

/-- An input that is never at fault is passed over. -/
theorem skip {accepted : ι → Prop} {fault : ι → CompileError → Prop} {item : ι} {rest : List ι}
    (checks : compile.Checks (∀ other ∈ rest, accepted other) (FirstAmong accepted fault rest))
    (holds : accepted item) (faultless : ∀ error, ¬ fault item error) :
    compile.Checks (∀ other ∈ item :: rest, accepted other)
      (FirstAmong accepted fault (item :: rest)) := by
  refine checks.congr ?_ fun error => ?_
  · rw [List.forall_mem_cons, and_iff_right holds]
  · rw [firstAmong_cons, or_iff_right (faultless error), and_iff_right holds]

/-- Behind an input that is refused there is nothing to look at. -/
theorem cons_refuse {accepted : ι → Prop} {fault : ι → CompileError → Prop} {item : ι}
    {error : CompileError} (rest : List ι) (refused : ¬ accepted item)
    (only : ∀ other, error = other ↔ fault item other) :
    (MonadExcept.throw error : Compile α).Checks (∀ other ∈ item :: rest, accepted other)
      (FirstAmong accepted fault (item :: rest)) := by
  refine .refuse (fun each => refused (each item List.mem_cons_self)) fun other => ?_
  rw [firstAmong_cons, only, or_iff_left fun both => refused both.1]

/-- Without an input there is nothing to report. -/
theorem nil {accepted : ι → Prop} {fault : ι → CompileError → Prop} (a : α) :
    (Pure.pure a : Compile α).Checks (∀ other ∈ [], accepted other) (FirstAmong accepted fault []) :=
  (pure a).accept (List.forall_mem_nil _) fun _ => not_firstAmong_nil

end Checks

end Compile

/-! ### Objects -/

namespace Document

open Compile

/-- An object all of whose fields are accepted. -/
def IsObjectOf (accepted : String × Document → Prop) (document : Document) : Prop :=
  ∃ fields, document = .object fields ∧ ∀ field ∈ fields, accepted field

/-- What is reported of any other document: `refusal` if it is no object, and else the fault of the
first field that is not accepted. -/
inductive ObjectFault (refusal : CompileError) (accepted : String × Document → Prop)
    (fault : String × Document → CompileError → Prop) : Document → CompileError → Prop
  | notObject {document : Document} (notObject : ∀ fields, document ≠ .object fields) :
      ObjectFault refusal accepted fault document refusal
  | field {fields : Fields} {error : CompileError} (first : FirstAmong accepted fault fields error) :
      ObjectFault refusal accepted fault (.object fields) error

section Objects

variable {refusal error : CompileError} {accepted : String × Document → Prop}
  {fault : String × Document → CompileError → Prop} {fields : Fields} {document : Document}

theorem isObjectOf_object_iff :
    (object fields).IsObjectOf accepted ↔ ∀ field ∈ fields, accepted field := by
  simp [IsObjectOf]

theorem objectFault_object_iff :
    (object fields).ObjectFault refusal accepted fault error ↔
      FirstAmong accepted fault fields error := by
  constructor
  · rintro (notObject | first)
    · exact absurd rfl (notObject fields)
    · exact first
  · exact .field

theorem checks_of_object {compile : Compile α}
    (checks : compile.Checks (∀ field ∈ fields, accepted field) (FirstAmong accepted fault fields)) :
    compile.Checks ((object fields).IsObjectOf accepted)
      ((object fields).ObjectFault refusal accepted fault) :=
  checks.congr isObjectOf_object_iff.symm fun _ => objectFault_object_iff.symm

theorem not_isObjectOf (notObject : ∀ fields, document ≠ .object fields) :
    ¬ document.IsObjectOf accepted := by
  rintro ⟨fields, isObject, -⟩
  exact notObject fields isObject

theorem objectFault_iff_of_not_object (notObject : ∀ fields, document ≠ .object fields) :
    document.ObjectFault refusal accepted fault error ↔ refusal = error := by
  constructor
  · rintro (_ | _)
    · rfl
    · exact absurd rfl (notObject _)
  · rintro rfl
    exact .notObject notObject

end Objects

end Document

end DocQuery
