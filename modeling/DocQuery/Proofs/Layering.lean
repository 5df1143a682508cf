import DocQuery.Compile.Result
import DocQuery.Proofs.ConditionMeaning
import DocQuery.Proofs.UpdateMeaning

/-!
# DocQuery.Proofs.Layering

Results that are compiled one on top of the other.

A second result is compiled beside the values of the first and keeps them all. Names are not handed
on: they are named from the start again, and two names that are sanitized alike may then get the
same token, one in each result.

## Proof strategy

Where no two names are sanitized alike, every name is given the token that is asked for first, and
so the names of a result are known exactly (`Placeholders.FirstNamed`). One naming keeps this up,
and with it the naming of a path, of a question and of a whole document.

## Main result

`Placeholders.FirstNamed.agree_iff`: the names of two results agree exactly if no two of them are
sanitized alike.
-/

namespace DocQuery

open Compile

/-! ### Attributes -/

/-- The names of the attributes on a path. -/
def Path.attributes (path : Path) : List String :=
  path.map Step.name

/-- The attributes that a query names. -/
def Query.attributes (query : Document) : List String :=
  (questions query).flatMap fun question => (Path.ofText question.1).attributes

/-- The attributes that an update document names. -/
def UpdateField.attributes (document : Document) : List String :=
  (ofDocument document).flatMap fun field => (Path.ofText field.path).attributes

/-- No two of the names are sanitized alike. -/
def Apart (names : List String) : Prop :=
  ∀ one ∈ names, ∀ other ∈ names, sanitize one = sanitize other → one = other

instance (names : List String) : Decidable (Apart names) :=
  inferInstanceAs <| Decidable <|
    ∀ one ∈ names, ∀ other ∈ names, sanitize one = sanitize other → one = other

namespace Apart

variable {names others : List String}

theorem mono (apart : Apart others) (within : names ⊆ others) : Apart names :=
  fun one member other otherMember => apart one (within member) other (within otherMember)

theorem append_iff : Apart (names ++ others) ↔
    Apart names ∧ Apart others ∧
      ∀ one ∈ names, ∀ other ∈ others, sanitize one = sanitize other → one = other := by
  constructor
  · intro apart
    refine ⟨apart.mono (List.subset_append_left _ _), apart.mono (List.subset_append_right _ _), ?_⟩
    intro one member other otherMember
    exact apart one (List.mem_append_left _ member) other (List.mem_append_right _ otherMember)
  · rintro ⟨first, second, across⟩ one member other otherMember same
    rcases List.mem_append.mp member with inNames | inOthers
    · rcases List.mem_append.mp otherMember with otherInNames | otherInOthers
      · exact first one inNames other otherInNames same
      · exact across one inNames other otherInOthers same
    · rcases List.mem_append.mp otherMember with otherInNames | otherInOthers
      · exact (across other otherInNames one inOthers same.symm).symm
      · exact second one inOthers other otherInOthers same

end Apart

/-- No key is bound to one value in `m` and to another in `n`. -/
def Ascending.Agree {α : Type} (m n : KeyMap α) : Prop :=
  ∀ key value other, m.get? key = some value → n.get? key = some other → value = other

/-! ### First tokens -/

/-- These attributes are named and no others, each by the token that is asked for first. -/
def Placeholders.FirstNamed (attributes : List String) (p : Placeholders) : Prop :=
  ∀ token name, p.names.get? token = some name ↔ name ∈ attributes ∧ token = nameToken name

theorem nameToken_eq_iff {one other : String} :
    nameToken one = nameToken other ↔ sanitize one = sanitize other := by
  simp [nameToken]

namespace Placeholders.FirstNamed

variable {attributes others : List String} {p q : Placeholders}

theorem nothing (values : Item) : FirstNamed [] { values } := by
  intro token name
  constructor
  · intro found
    cases found
  · rintro ⟨member, -⟩
    cases member

theorem nameAttribute {name : String} (first : p.FirstNamed attributes)
    (apart : Apart (attributes ++ [name])) :
    (Naming.nameAttribute name p).2.FirstNamed (attributes ++ [name]) := by
  have own : name ∈ attributes ++ [name] := List.mem_append_right _ List.mem_cons_self
  -- What the first token is bound to, if anything, is sanitized like the name.
  have fits : suits p.names name (nameToken name) = true := by
    rw [suits_iff]
    cases found : p.names.get? (nameToken name) with
    | none => exact .inl rfl
    | some other =>
      obtain ⟨member, same⟩ := (first _ _).mp found
      rw [apart name own other (List.mem_append_left _ member) (nameToken_eq_iff.mp same)]
      exact .inr rfl
  intro token other
  simp only [Naming.nameAttribute, tokenFor_eq_base fits]
  by_cases here : nameToken name = token
  · subst here
    rw [Ascending.get?_insert_self, Option.some.injEq]
    constructor
    · rintro rfl
      exact ⟨own, rfl⟩
    · rintro ⟨member, same⟩
      exact apart name own other member (nameToken_eq_iff.mp same)
  · rw [Ascending.get?_insert_of_ne _ here, first token other, List.mem_append,
      List.mem_singleton]
    constructor
    · rintro ⟨member, rfl⟩
      exact ⟨.inl member, rfl⟩
    · rintro ⟨member | rfl, rfl⟩
      · exact ⟨member, rfl⟩
      · exact absurd rfl here

theorem namePath {path : Path} (first : p.FirstNamed attributes)
    (apart : Apart (attributes ++ path.attributes)) :
    (Naming.namePath path p).2.FirstNamed (attributes ++ path.attributes) := by
  induction path generalizing p attributes with
  | nil =>
    rw [Path.attributes, List.map_nil, List.append_nil]
    exact first
  | cons step rest ih =>
    have split : attributes ++ Path.attributes (step :: rest) =
        attributes ++ [step.name] ++ Path.attributes rest := by simp [Path.attributes]
    rw [split] at apart ⊢
    exact ih (first.nameAttribute (apart.mono (List.subset_append_left _ _))) apart

/-- Binding values names nothing. -/
theorem binds {values : List AttributeValue} {tokens : List Token}
    (binds : p.Binds values tokens q) (first : p.FirstNamed attributes) :
    q.FirstNamed attributes := by
  induction binds with
  | nil => exact first
  | value _ _ _ ih => exact ih first
  | emptyList _ ih => exact ih first

/-- Runs that each name some attributes name all of them. -/
theorem threaded {ι α : Type} {compile : ι → Compile α} {attributesOf : ι → List String}
    (each : ∀ {attributes input p a q}, (compile input).runFrom p = (.ok a, q) →
      p.FirstNamed attributes → Apart (attributes ++ attributesOf input) →
        q.FirstNamed (attributes ++ attributesOf input))
    {inputs : List ι} {results : List α} (ran : Threaded compile p inputs results q)
    (first : p.FirstNamed attributes) (apart : Apart (attributes ++ inputs.flatMap attributesOf)) :
    q.FirstNamed (attributes ++ inputs.flatMap attributesOf) := by
  induction ran generalizing attributes with
  | nil => simpa using first
  | cons head _ ih =>
    rw [List.flatMap_cons, ← List.append_assoc] at apart ⊢
    exact ih (each head first (apart.mono (List.subset_append_left _ _))) apart

/-- A query that is compiled before anything is named names its attributes by first tokens. -/
theorem query {query : Document} {condition : Option Condition} {values : Item}
    (ran : (compileCondition query).runFrom { values } = (.ok condition, q))
    (apart : Apart (Query.attributes query)) : q.FirstNamed (Query.attributes query) := by
  refine threaded (fun head first apart => ?_) (means_compileCondition ran).ran (.nothing values)
    apart
  obtain ⟨-, ⟨_, binds⟩, -⟩ := compileQuestion_isCompiled head
  exact (first.namePath apart).binds binds

theorem update {document : Document} {update : Update} {values : Item}
    (ran : (compileUpdate document).runFrom { values } = (.ok update, q))
    (apart : Apart (UpdateField.attributes document)) :
    q.FirstNamed (UpdateField.attributes document) := by
  refine threaded (fun head first apart => ?_) (compileUpdate_threaded ran) (.nothing values) apart
  obtain ⟨-, _, binds⟩ := compileAction_binds head
  exact (first.namePath apart).binds binds

/-- First tokens agree exactly if no two of the names are sanitized alike. -/
theorem agree_iff (one : p.FirstNamed attributes) (two : q.FirstNamed others)
    (apart : Apart attributes) (apartToo : Apart others) :
    Ascending.Agree p.names q.names ↔ Apart (attributes ++ others) := by
  rw [Apart.append_iff, and_iff_right apart, and_iff_right apartToo]
  constructor
  · intro agree name member other otherMember same
    have found := (one (nameToken name) name).mpr ⟨member, rfl⟩
    have again := (two (nameToken name) other).mpr ⟨otherMember, nameToken_eq_iff.mpr same⟩
    exact agree _ name other found again
  · intro across token name other found again
    obtain ⟨member, same⟩ := (one token name).mp found
    obtain ⟨otherMember, alike⟩ := (two token other).mp again
    exact across name member other otherMember (nameToken_eq_iff.mp (same.symm.trans alike))

end Placeholders.FirstNamed

/-! ### Layers -/

theorem CompiledCondition.ofDocument_ok {query : Document} {existing : Item}
    {compiled : CompiledCondition} (result : ofDocument query existing = .ok compiled) :
    ∃ condition q, (compileCondition query).runFrom { values := existing } = (.ok condition, q) ∧
      compiled.names = q.names ∧ compiled.values = q.values := by
  unfold ofDocument at result
  split at result
  next condition q ran =>
    cases result
    exact ⟨condition, q, ran, rfl, rfl⟩
  next => cases result

theorem CompiledUpdate.ofDocument_eq_ok {document : Document} {existing : Item}
    {compiled : CompiledUpdate} (result : ofDocument document existing = .ok compiled) :
    ∃ update q, (compileUpdate document).runFrom { values := existing } = (.ok update, q) ∧
      compiled = ⟨update.text, q.names, q.values⟩ := by
  unfold ofDocument at result
  split at result
  next update q ran =>
    cases result
    exact ⟨update, q, ran, rfl⟩
  next => cases result

theorem CompiledUpdate.ofDocument_ok {document : Document} {existing : Item}
    {compiled : CompiledUpdate} (result : ofDocument document existing = .ok compiled) :
    ∃ update q, (compileUpdate document).runFrom { values := existing } = (.ok update, q) ∧
      compiled.names = q.names ∧ compiled.values = q.values := by
  obtain ⟨update, q, ran, rfl⟩ := ofDocument_eq_ok result
  exact ⟨update, q, ran, rfl, rfl⟩

/-- Names are not handed on, so two results may bind one token to two attributes. -/
theorem layered_names_collide :
    ∃ one two, CompiledCondition.ofDocument (.object [("a-b", .null)]) ∅ = .ok one ∧
      CompiledCondition.ofDocument (.object [("a_b", .null)]) one.values = .ok two ∧
      one.names.get? "#k_a_b" = some "a-b" ∧ two.names.get? "#k_a_b" = some "a_b" := by
  refine ⟨⟨"#k_a_b=:v_a_b", (∅ : KeyMap String).insert "#k_a_b" "a-b",
      (∅ : Item).insert ":v_a_b" (.null true)⟩,
    ⟨"#k_a_b=:v_a_b", (∅ : KeyMap String).insert "#k_a_b" "a_b",
      (∅ : Item).insert ":v_a_b" (.null true)⟩, ?_, ?_, ?_, ?_⟩
  all_goals decide +kernel

/-- A result that is compiled on the values of a first one binds all of them to the same. Where
neither document names two attributes that are sanitized alike, the names of the results agree
exactly if the two documents together do not either. -/
theorem layered_results_agree {first : Document} {one : CompiledCondition}
    (compiled : CompiledCondition.ofDocument first ∅ = .ok one) :
    (∀ query two, CompiledCondition.ofDocument query one.values = .ok two →
      one.values.Within two.values ∧
        (Apart (Query.attributes first) → Apart (Query.attributes query) →
          (one.names.Agree two.names ↔
            Apart (Query.attributes first ++ Query.attributes query)))) ∧
    ∀ document two, CompiledUpdate.ofDocument document one.values = .ok two →
      one.values.Within two.values ∧
        (Apart (Query.attributes first) → Apart (UpdateField.attributes document) →
          (one.names.Agree two.names ↔
            Apart (Query.attributes first ++ UpdateField.attributes document))) := by
  obtain ⟨_, p, ran, names, -⟩ := CompiledCondition.ofDocument_ok compiled
  constructor
  · intro query two layered
    obtain ⟨_, q, again, others, values⟩ := CompiledCondition.ofDocument_ok layered
    have grown := (composed_compileCondition query).le again
    rw [names, others, values]
    refine ⟨grown.2, fun apart apartToo => ?_⟩
    have below := Placeholders.FirstNamed.query ran apart
    have above := Placeholders.FirstNamed.query again apartToo
    exact below.agree_iff above apart apartToo
  · intro document two layered
    obtain ⟨_, q, again, others, values⟩ := CompiledUpdate.ofDocument_ok layered
    have grown := (composed_compileUpdate document).le again
    rw [names, others, values]
    refine ⟨grown.2, fun apart apartToo => ?_⟩
    have below := Placeholders.FirstNamed.query ran apart
    have above := Placeholders.FirstNamed.update again apartToo
    exact below.agree_iff above apart apartToo

/-- A query on an attribute and an update of it that ask for one value token. -/
theorem layered_update_agrees :
    ∃ one two, CompiledCondition.ofDocument (.object [("a-b.c", .null)]) ∅ = .ok one ∧
      CompiledUpdate.ofDocument (.object [("$set", .object [("a-b.c", .bool true)])]) one.values =
        .ok two ∧
      one.values.Within two.values ∧ one.names.Agree two.names := by
  have compiled : CompiledCondition.ofDocument (.object [("a-b.c", .null)]) ∅ =
      .ok ⟨"#k_a_b.#k_c=:v_a_b_c",
        ((∅ : KeyMap String).insert "#k_a_b" "a-b").insert "#k_c" "c",
        (∅ : Item).insert ":v_a_b_c" (.null true)⟩ := by decide +kernel
  have succeeds : (CompiledUpdate.ofDocument (.object [("$set", .object [("a-b.c", .bool true)])])
      ((∅ : Item).insert ":v_a_b_c" (.null true))).isOk = true := by decide +kernel
  obtain ⟨two, layered⟩ := exists_ok_of_isOk succeeds
  obtain ⟨within, agree⟩ := (layered_results_agree compiled).2 _ two layered
  have together := (agree (by decide +kernel) (by decide +kernel)).mpr (by decide +kernel)
  exact ⟨_, two, compiled, layered, within, together⟩

end DocQuery
