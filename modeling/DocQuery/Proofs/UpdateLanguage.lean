import DocQuery.Proofs.Acceptance
import DocQuery.Proofs.Nesting
import DocQuery.Proofs.Vocabulary

/-!
# DocQuery.Proofs.UpdateLanguage

Which documents are updates, and what is reported of the others.

An update document is an object, and so is what stands under each of its operators: at both levels
the fields are gone through in document order up to the first that is not accepted. What an operator
takes depends on its operand alone; the path is only named in the report.

## Main result

`compileUpdate_reports_first_fault`: updates are compiled, and of any other document the first
fault is reported, whatever is registered.
-/

namespace DocQuery

open Compile

/-! ### Operands -/

/-- The only key is `$each`, and no array is under it. -/
def IsBrokenList (operand : Document) : Prop :=
  ∃ argument, operand = .object [("$each", argument)] ∧ ∀ items, argument ≠ .array items

/-- The members that an operand stands for: those of the array under its only key `$each`, else
those of a bare array, else the operand alone. -/
inductive Lists : Document → List Document → Prop
  | each (members : List Document) : Lists (.object [("$each", .array members)]) members
  | array (members : List Document) : Lists (.array members) members
  | alone {operand : Document}
      (notEach : ∀ members, operand ≠ .object [("$each", .array members)])
      (notArray : ∀ members, operand ≠ .array members) : Lists operand [operand]

/-- Strings only, or numbers only. -/
def AreOfOneKind (members : List Document) : Prop :=
  (∀ member ∈ members, ∃ text, member = .string text) ∨
    ∀ member ∈ members, ∃ value, member = .number value

namespace UpdateOperator

/-- The operands that an operator can be applied to. -/
inductive Takes : UpdateOperator → Document → Prop
  | any {operator : UpdateOperator} (free : operator = .set ∨ operator = .unset)
      (operand : Document) : Takes operator operand
  | number (value : Number) : Takes .inc (.number value)
  | list {operator : UpdateOperator} {operand : Document}
      (isList : operator = .push ∨ operator = .unshift) (unbroken : ¬ IsBrokenList operand) :
      Takes operator operand
  | set {operator : UpdateOperator} {operand : Document} {members : List Document}
      (isSet : operator = .addToSet ∨ operator = .removeFromSet) (lists : Lists operand members)
      (nonempty : members ≠ []) (ofOneKind : AreOfOneKind members) : Takes operator operand

/-- What is reported of other operands. -/
inductive Refuses (path : String) : UpdateOperator → Document → CompileError → Prop
  | notNumber {operand : Document} (notNumber : ∀ value, operand ≠ .number value) :
      Refuses path .inc operand (.invalidUpdate (.notNumber path))
  | notArray {operator : UpdateOperator} {operand : Document}
      (mayList : operator ∈ [.push, .unshift, .addToSet, .removeFromSet])
      (broken : IsBrokenList operand) :
      Refuses path operator operand (.invalidUpdate (.notArray path))
  | emptySet {operator : UpdateOperator} {operand : Document}
      (isSet : operator = .addToSet ∨ operator = .removeFromSet) (lists : Lists operand []) :
      Refuses path operator operand (.invalidUpdate (.emptySet path))
  | mixedSet {operator : UpdateOperator} {operand : Document} {members : List Document}
      (isSet : operator = .addToSet ∨ operator = .removeFromSet)
      (unbroken : ¬ IsBrokenList operand) (lists : Lists operand members)
      (nonempty : members ≠ []) (mixed : ¬ AreOfOneKind members) :
      Refuses path operator operand (.invalidUpdate (.mixedSet path))

end UpdateOperator

/-! ### Members -/

section Members

variable {members others : List Document} {operand : Document}

theorem Lists.unique (lists : Lists operand members) (listsToo : Lists operand others) :
    members = others := by
  cases lists with
  | each => cases listsToo with
    | each => rfl
    | alone notEach => exact absurd rfl (notEach members)
  | array => cases listsToo with
    | array => rfl
    | alone _ notArray => exact absurd rfl (notArray members)
  | alone notEach notArray => cases listsToo with
    | each => exact absurd rfl (notEach others)
    | array => exact absurd rfl (notArray others)
    | alone => rfl

theorem exists_lists (operand : Document) : ∃ members, Lists operand members := by
  by_cases isEach : ∃ members, operand = .object [("$each", .array members)]
  · obtain ⟨members, rfl⟩ := isEach
    exact ⟨members, .each members⟩
  by_cases isArray : ∃ members, operand = .array members
  · obtain ⟨members, rfl⟩ := isArray
    exact ⟨members, .array members⟩
  exact ⟨[operand], .alone (not_exists.mp isEach) (not_exists.mp isArray)⟩

/-- A broken list is an object, so it is no member of a set. -/
theorem not_areOfOneKind_of_broken (broken : IsBrokenList operand) (lists : Lists operand members) :
    members ≠ [] ∧ ¬ AreOfOneKind members := by
  obtain ⟨argument, rfl, notArray⟩ := broken
  cases lists with
  | each => exact absurd rfl (notArray members)
  | alone => simp [AreOfOneKind]

theorem exists_mapM_stringMember?_iff {text : String} {rest : List Document} :
    (∃ texts, (.string text :: rest).mapM stringMember? = some texts) ↔
      AreOfOneKind (.string text :: rest) := by
  have isString : ∀ member, (∃ text, stringMember? member = some text) ↔
      ∃ text, member = .string text := by
    rintro (_ | _) <;> simp [stringMember?]
  rw [exists_mapM_eq_some_iff]
  simp [isString, AreOfOneKind]

theorem exists_mapM_numberMember?_iff {value : Number} {rest : List Document} :
    (∃ texts, (.number value :: rest).mapM numberMember? = some texts) ↔
      AreOfOneKind (.number value :: rest) := by
  have isNumber : ∀ member, (∃ text, numberMember? member = some text) ↔
      ∃ value, member = .number value := by
    rintro (_ | _) <;> simp [numberMember?]
  rw [exists_mapM_eq_some_iff]
  simp [isNumber, AreOfOneKind]

/-- A set is made of at least one member, and of members of one kind. -/
theorem judges_setOfMembers (path : String) (members : List Document) :
    Judges (setOfMembers path members) (members ≠ [] ∧ AreOfOneKind members) fun error =>
      members = [] ∧ .invalidUpdate (.emptySet path) = error ∨
        members ≠ [] ∧ ¬ AreOfOneKind members ∧ .invalidUpdate (.mixedSet path) = error := by
  unfold setOfMembers
  split
  next => exact .refuse (by simp) (by simp)
  next text rest =>
    rw [← exists_mapM_stringMember?_iff]
    split
    next texts read => exact .accept _ ⟨by simp, texts, read⟩ (by simp [read])
    next mixed => exact .refuse (by simp [mixed]) (by simp [mixed])
  next value rest =>
    rw [← exists_mapM_numberMember?_iff]
    split
    next texts read => exact .accept _ ⟨by simp, texts, read⟩ (by simp [read])
    next mixed => exact .refuse (by simp [mixed]) (by simp [mixed])
  next notEmpty notString notNumber =>
    -- A first member of neither kind rules out both.
    obtain ⟨head, rest, rfl⟩ := List.exists_cons_of_ne_nil notEmpty
    have mixed : ¬ AreOfOneKind (head :: rest) := by
      rintro (strings | numbers)
      · obtain ⟨text, rfl⟩ := strings head List.mem_cons_self
        exact notString text rest rfl
      · obtain ⟨value, rfl⟩ := numbers head List.mem_cons_self
        exact notNumber value rest rfl
    exact .refuse (by simp [mixed]) (by simp [mixed])

/-! ### Lists and sets -/

theorem each?_eq_none (notEach : ∀ argument, operand ≠ .object [("$each", argument)])
    (path : String) : each? path operand = .ok none := by
  rw [each?, Document.soleField?_eq_none_iff.mpr notEach]

theorem each?_eq_error (broken : IsBrokenList operand) (path : String) :
    each? path operand = .error (.invalidUpdate (.notArray path)) := by
  obtain ⟨argument, rfl, notArray⟩ := broken
  cases argument with
  | array items => exact absurd rfl (notArray items)
  | _ => rfl

theorem judges_each? (path : String) (operand : Document) :
    Judges (each? path operand) (¬ IsBrokenList operand) fun error =>
      IsBrokenList operand ∧ .invalidUpdate (.notArray path) = error := by
  by_cases broken : IsBrokenList operand
  · rw [each?_eq_error broken]
    exact .refuse (not_not_intro broken) fun _ => (and_iff_right broken).symm
  have faultless : ∀ error, ¬ (IsBrokenList operand ∧
      CompileError.invalidUpdate (.notArray path) = error) := fun _ isFault => broken isFault.1
  by_cases isEach : ∃ argument, operand = .object [("$each", argument)]
  · obtain ⟨argument, rfl⟩ := isEach
    obtain ⟨items, rfl⟩ : ∃ items, argument = .array items := by
      by_contra notArray
      exact broken ⟨argument, rfl, not_exists.mp notArray⟩
    exact .accept _ broken faultless
  · rw [each?_eq_none (not_exists.mp isEach)]
    exact .accept _ broken faultless

/-- Unless a list is broken, the set is made of the members that the operand stands for. -/
theorem setOperand_eq (unbroken : ¬ IsBrokenList operand) (lists : Lists operand members)
    (path : String) : setOperand path operand = setOfMembers path members := by
  cases lists with
  | each | array => rfl
  | alone notEach notArray =>
    -- An array under `$each` is excluded, and anything else under it is a broken list.
    have notListed : each? path operand = .ok none := by
      refine each?_eq_none (fun argument isEach => ?_) path
      refine unbroken ⟨argument, isEach, fun items isArray => ?_⟩
      exact notEach items (isArray ▸ isEach)
    unfold setOperand
    rw [notListed]
    cases operand with
    | array items => exact absurd rfl (notArray items)
    | _ => rfl

theorem setOperand_eq_error (broken : IsBrokenList operand) (path : String) :
    setOperand path operand = .error (.invalidUpdate (.notArray path)) := by
  unfold setOperand
  rw [each?_eq_error broken]
  rfl

end Members

/-! ### Operators -/

namespace UpdateOperator

section Operands

variable {path : String} {operator : UpdateOperator} {operand : Document}
  {members : List Document} {error : CompileError}

theorem not_refuses_of_free (free : operator = .set ∨ operator = .unset) :
    ¬ operator.Refuses path operand error := by
  intro refuses
  cases refuses with
  | notNumber => simp at free
  | notArray isOther | emptySet isOther | mixedSet isOther =>
    rcases free with rfl | rfl <;> simp at isOther

theorem takes_inc_iff : Takes .inc operand ↔ ∃ value, operand = .number value := by
  constructor
  · intro takes
    cases takes with
    | number value => exact ⟨value, rfl⟩
    | any isOther | list isOther | set isOther => simp at isOther
  · rintro ⟨value, rfl⟩
    exact .number value

theorem refuses_inc_iff : Refuses path .inc operand error ↔
    (∀ value, operand ≠ .number value) ∧ .invalidUpdate (.notNumber path) = error := by
  constructor
  · intro refuses
    cases refuses with
    | notNumber notNumber => exact ⟨notNumber, rfl⟩
    | notArray isOther | emptySet isOther | mixedSet isOther => simp at isOther
  · rintro ⟨notNumber, rfl⟩
    exact .notNumber notNumber

theorem takes_list_iff (isList : operator = .push ∨ operator = .unshift) :
    operator.Takes operand ↔ ¬ IsBrokenList operand := by
  constructor
  · intro takes
    cases takes with
    | list _ unbroken => exact unbroken
    | number => simp at isList
    | any isOther | set isOther => rcases isList with rfl | rfl <;> simp at isOther
  · exact .list isList

theorem refuses_list_iff (isList : operator = .push ∨ operator = .unshift) :
    operator.Refuses path operand error ↔
      IsBrokenList operand ∧ .invalidUpdate (.notArray path) = error := by
  constructor
  · intro refuses
    cases refuses with
    | notArray _ broken => exact ⟨broken, rfl⟩
    | notNumber => simp at isList
    | emptySet isOther | mixedSet isOther => rcases isList with rfl | rfl <;> simp at isOther
  · rintro ⟨broken, rfl⟩
    exact .notArray (by rcases isList with rfl | rfl <;> simp) broken

theorem takes_set_iff (isSet : operator = .addToSet ∨ operator = .removeFromSet)
    (lists : Lists operand members) :
    operator.Takes operand ↔ members ≠ [] ∧ AreOfOneKind members := by
  constructor
  · intro takes
    cases takes with
    | set _ listsToo nonempty ofOneKind =>
      obtain rfl := lists.unique listsToo
      exact ⟨nonempty, ofOneKind⟩
    | number => simp at isSet
    | any isOther | list isOther => rcases isSet with rfl | rfl <;> simp at isOther
  · rintro ⟨nonempty, ofOneKind⟩
    exact .set isSet lists nonempty ofOneKind

theorem refuses_set_iff (isSet : operator = .addToSet ∨ operator = .removeFromSet)
    (unbroken : ¬ IsBrokenList operand) (lists : Lists operand members) :
    operator.Refuses path operand error ↔
      members = [] ∧ .invalidUpdate (.emptySet path) = error ∨
        members ≠ [] ∧ ¬ AreOfOneKind members ∧ .invalidUpdate (.mixedSet path) = error := by
  constructor
  · intro refuses
    cases refuses with
    | notNumber => simp at isSet
    | notArray _ broken => exact absurd broken unbroken
    | emptySet _ listsToo => exact .inl ⟨lists.unique listsToo, rfl⟩
    | mixedSet _ _ listsToo nonempty mixed =>
      obtain rfl := lists.unique listsToo
      exact .inr ⟨nonempty, mixed, rfl⟩
  · rintro (⟨rfl, rfl⟩ | ⟨nonempty, mixed, rfl⟩)
    · exact .emptySet isSet lists
    · exact .mixedSet isSet unbroken lists nonempty mixed

theorem refuses_set_iff_of_broken (isSet : operator = .addToSet ∨ operator = .removeFromSet)
    (broken : IsBrokenList operand) :
    operator.Refuses path operand error ↔ .invalidUpdate (.notArray path) = error := by
  constructor
  · intro refuses
    cases refuses with
    | notNumber => simp at isSet
    | notArray => rfl
    | emptySet _ lists => exact absurd rfl (not_areOfOneKind_of_broken broken lists).1
    | mixedSet _ unbroken => exact absurd broken unbroken
  · rintro rfl
    exact .notArray (by rcases isSet with rfl | rfl <;> simp) broken

theorem judges_listOperand (isList : operator = .push ∨ operator = .unshift) :
    Judges (listOperand path operand) (operator.Takes operand) (operator.Refuses path operand) :=
  (judges_each? path operand).map.congr (takes_list_iff isList).symm
    fun _ => (refuses_list_iff isList).symm

theorem judges_setOperand (isSet : operator = .addToSet ∨ operator = .removeFromSet) :
    Judges (setOperand path operand) (operator.Takes operand) (operator.Refuses path operand) := by
  obtain ⟨members, lists⟩ := exists_lists operand
  -- A broken list would be a mixed set as well, but it is reported as what it is.
  by_cases broken : IsBrokenList operand
  · rw [setOperand_eq_error broken]
    refine .refuse (fun takes => ?_) fun _ => (refuses_set_iff_of_broken isSet broken).symm
    exact (not_areOfOneKind_of_broken broken lists).2 ((takes_set_iff isSet lists).mp takes).2
  · rw [setOperand_eq broken lists]
    exact (judges_setOfMembers path members).congr (takes_set_iff isSet lists).symm
      fun _ => (refuses_set_iff isSet broken lists).symm

end Operands

/-- Whether an operand is accepted depends neither on its path nor on what is registered. -/
theorem checks_compileAction (operator : UpdateOperator) (path : String) (operand : Document) :
    (compileAction operator path operand).Checks (operator.Takes operand)
      (operator.Refuses path operand) := by
  unfold compileAction
  refine .naming fun name => ?_
  cases operator with
  | set =>
    dsimp only
    split
    all_goals
      exact .accept (.naming fun _ => .pure _) (.any (.inl rfl) operand) fun _ =>
        not_refuses_of_free (.inl rfl)
  | unset =>
    exact .accept (.pure _) (.any (.inr rfl) operand) fun _ => not_refuses_of_free (.inr rfl)
  | inc =>
    dsimp only
    split
    next value =>
      exact .accept (.naming fun _ => .pure _) (.number value) (by simp [refuses_inc_iff])
    next notNumber =>
      refine .refuse ?_ fun _ => ?_
      · simpa [takes_inc_iff] using notNumber
      · rw [refuses_inc_iff, and_iff_right notNumber]
  | push =>
    exact .andThen (.ofExcept (judges_listOperand (.inl rfl))) fun _ =>
      .naming fun _ => .naming fun _ => .pure _
  | unshift =>
    exact .andThen (.ofExcept (judges_listOperand (.inr rfl))) fun _ =>
      .naming fun _ => .naming fun _ => .pure _
  | addToSet =>
    exact .andThen (.ofExcept (judges_setOperand (.inl rfl))) fun _ => .naming fun _ => .pure _
  | removeFromSet =>
    exact .andThen (.ofExcept (judges_setOperand (.inr rfl))) fun _ => .naming fun _ => .pure _

end UpdateOperator

/-! ### The language -/

namespace Update

/-- The fields under an operator. -/
def IsFieldOf (operator : UpdateOperator) (field : String × Document) : Prop :=
  operator.Takes field.2

def FieldFault (operator : UpdateOperator) (field : String × Document) (error : CompileError) :
    Prop :=
  operator.Refuses field.1 field.2 error

/-- The entries of an update document: any argument under a key that is no operator, and an object
of operands under an operator. -/
def IsEntry (entry : String × Document) : Prop :=
  ∀ operator : UpdateOperator, entry.1 = operator.key → entry.2.IsObjectOf (IsFieldOf operator)

def EntryFault (entry : String × Document) (error : CompileError) : Prop :=
  ∃ operator : UpdateOperator, entry.1 = operator.key ∧
    entry.2.ObjectFault (.invalidUpdate (.fieldsNotDocument entry.1)) (IsFieldOf operator)
      (FieldFault operator) error

def IsUpdate (document : Document) : Prop :=
  document.IsObjectOf IsEntry

/-- The first fault of an update document, in document order. -/
def FirstFault (document : Document) (error : CompileError) : Prop :=
  document.ObjectFault (.invalidUpdate .notDocument) IsEntry EntryFault error

theorem checks_compileActions (operator : UpdateOperator) (fields : Fields) :
    (compileActions operator fields).Checks (∀ field ∈ fields, IsFieldOf operator field)
      (FirstAmong (IsFieldOf operator) (FieldFault operator) fields) := by
  induction fields with
  | nil => exact .nil _
  | cons field rest ih =>
    obtain ⟨path, operand⟩ := field
    exact .cons (operator.checks_compileAction path operand) fun _ => ih.map

section Entries

variable {key : String} {argument : Document} {operator : UpdateOperator} {error : CompileError}

theorem isEntry_iff (isKey : key = operator.key) :
    IsEntry (key, argument) ↔ argument.IsObjectOf (IsFieldOf operator) := by
  constructor
  · exact fun isEntry => isEntry operator isKey
  · intro isObject other isKeyToo
    rwa [UpdateOperator.key_injective (isKeyToo.symm.trans isKey)]

theorem entryFault_iff (isKey : key = operator.key) : EntryFault (key, argument) error ↔
    argument.ObjectFault (.invalidUpdate (.fieldsNotDocument key)) (IsFieldOf operator)
      (FieldFault operator) error := by
  constructor
  · rintro ⟨other, isKeyToo, fault⟩
    rwa [UpdateOperator.key_injective (isKeyToo.symm.trans isKey)] at fault
  · exact fun fault => ⟨operator, isKey, fault⟩

end Entries

theorem checks_compileOperators (entries : Fields) :
    (compileOperators entries).Checks (∀ entry ∈ entries, IsEntry entry)
      (FirstAmong IsEntry EntryFault entries) := by
  induction entries with
  | nil => exact .nil _
  | cons entry rest ih =>
    obtain ⟨key, argument⟩ := entry
    rw [compileOperators]
    cases known : UpdateOperator.ofKey? key with
    | none =>
      have unknown : ∀ operator : UpdateOperator, key ≠ operator.key :=
        ne_key_of_read_eq_none (fun _ _ => UpdateOperator.ofKey?_eq_some_iff) known
      -- No operator has this key, so nothing is asked of the argument.
      refine ih.skip ?_ ?_
      · exact fun operator isKey => absurd isKey (unknown operator)
      · rintro error ⟨operator, isKey, -⟩
        exact unknown operator isKey
    | some operator =>
      have isKey := UpdateOperator.ofKey?_eq_some_iff.mp known
      cases argument with
      | object fields =>
        refine .cons ?_ fun _ => ih.map
        exact (Document.checks_of_object (checks_compileActions operator fields)).congr
          (isEntry_iff isKey).symm fun _ => (entryFault_iff isKey).symm
      | _ =>
        refine .cons_refuse rest (fun isEntry => ?_) fun _ => ?_
        · exact Document.not_isObjectOf (by simp) (isEntry operator isKey)
        · rw [entryFault_iff isKey, Document.objectFault_iff_of_not_object (by simp)]

theorem checks_compileUpdate (document : Document) :
    (compileUpdate document).Checks (IsUpdate document) (FirstFault document) := by
  cases document with
  | object entries => exact Document.checks_of_object (checks_compileOperators entries)
  | _ =>
    exact .refuse (Document.not_isObjectOf (by simp)) fun _ =>
      (Document.objectFault_iff_of_not_object (by simp)).symm

end Update

/-- A document is compiled just if it is an update. Of any other document the first fault in
document order is reported. Neither depends on what is registered. -/
theorem compileUpdate_reports_first_fault (document : Document) (p : Placeholders) :
    ((∃ update, ((compileUpdate document).runFrom p).1 = .ok update) ↔
      Update.IsUpdate document) ∧
    ∀ error, ((compileUpdate document).runFrom p).1 = .error error ↔
      Update.FirstFault document error := by
  have judged := Update.checks_compileUpdate document p
  exact ⟨judged.ok_iff, judged.error_iff⟩

/-- Nothing is wrong with a key that is no operator, or with `$each` beside another key. The broken
list behind them is reported, and not the mixed set behind it. -/
example :
    let update : Document := .object [
      ("set", .null),
      ("$push", .object [
        ("a", .object [("$each", .null), ("b", .null)]),
        ("b", .object [("$each", .null)])]),
      ("$addToSet", .object [("c", .array [.string "", .null])])]
    ((compileUpdate update).runFrom {}).1 = .error (.invalidUpdate (.notArray "b")) := by
  rfl

end DocQuery
