import DocQuery.Compile.Condition
import DocQuery.Compile.Update
import Mathlib.Data.List.Infix
import Mathlib.Logic.Function.Basic

/-!
# DocQuery.Proofs.Vocabulary

The keys that mean something in a document.

A key with a dollar sign in front is meant as an operator, any other as a path. Which operator it is
can be looked up among the keys of all operators, and two operators never have the same key.

## Main result

`eq_wordWith?_of_read`: whatever reads each word from its key and nothing else, looks words up.
-/

namespace DocQuery

/-! ### Words and their keys -/

section Words

variable {α : Type} {key : α → String} {words : List α} {read : String → Option α}

/-- The word with this key. -/
def wordWith? (key : α → String) (words : List α) (text : String) : Option α :=
  words.find? fun word => key word = text

/-- Words that are told apart by their keys have different ones. -/
theorem injective_of_read (each : ∀ text word, read text = some word ↔ text = key word) :
    Function.Injective key := by
  intro word other same
  have known := (each (key word) other).mpr same
  rw [(each (key word) word).mpr rfl] at known
  exact Option.some.inj known

theorem ne_key_of_read_eq_none (each : ∀ text word, read text = some word ↔ text = key word)
    {text : String} (unknown : read text = none) (word : α) : text ≠ key word := by
  intro isKey
  rw [(each text word).mpr isKey] at unknown
  cases unknown

theorem wordWith?_eq_some_iff (injective : Function.Injective key)
    (complete : ∀ word, word ∈ words) {text : String} {word : α} :
    wordWith? key words text = some word ↔ text = key word := by
  unfold wordWith?
  constructor
  · intro found
    have isKey : key word = text := by simpa using List.find?_some found
    exact isKey.symm
  · rintro rfl
    cases found : words.find? fun other => key other = key word with
    | none =>
      have others := List.find?_eq_none.mp found word (complete word)
      exact absurd (decide_eq_true rfl) others
    | some other =>
      have same : key other = key word := by simpa using List.find?_some found
      rw [injective same]

theorem eq_wordWith?_of_read (each : ∀ text word, read text = some word ↔ text = key word)
    (complete : ∀ word, word ∈ words) (text : String) :
    read text = wordWith? key words text := by
  apply Option.ext
  intro word
  rw [each, wordWith?_eq_some_iff (injective_of_read each) complete]

end Words

/-! ### Keys -/

theorem Document.soleField?_eq_some_iff {name : String} {document value : Document} :
    document.soleField? name = some value ↔ document = .object [(name, value)] := by
  constructor
  · intro found
    unfold soleField? at found
    split at found
    next key _ =>
      split at found
      next same =>
        subst same
        cases found
        rfl
      next => cases found
    next => cases found
  · rintro rfl
    exact if_pos rfl

theorem Document.soleField?_eq_none_iff {name : String} {document : Document} :
    document.soleField? name = none ↔ ∀ value, document ≠ .object [(name, value)] := by
  rw [Option.eq_none_iff_forall_ne_some]
  exact forall_congr' fun value => soleField?_eq_some_iff.not

/-! ### Operators of queries -/

/-- The key is meant as an operator, be it known or not. -/
def BeginsWithDollar (key : String) : Prop :=
  ['$'] <+: key.toList

instance (key : String) : Decidable (BeginsWithDollar key) :=
  inferInstanceAs (Decidable (_ <+: _))

theorem isOperatorKey_iff {key : String} : isOperatorKey key = true ↔ BeginsWithDollar key := by
  rw [isOperatorKey, decide_eq_true_iff, BeginsWithDollar]
  cases key.toList with
  | nil => simp
  | cons c rest => simp [List.cons_prefix_cons, eq_comm]

namespace Operator

def key : Operator → String
  | .compare .eq => "$eq"
  | .compare .ne => "$ne"
  | .compare .lt => "$lt"
  | .compare .le => "$lte"
  | .compare .gt => "$gt"
  | .compare .ge => "$gte"
  | .between => "$between"
  | .oneOf => "$in"
  | .noneOf => "$nin"
  | .contains => "$contains"
  | .exist => "$exists"
  | .beginsWith => "$beginsWith"

def all : List Operator :=
  [.compare .eq, .compare .ne, .compare .lt, .compare .le, .compare .gt, .compare .ge, .between,
    .oneOf, .noneOf, .contains, .exist, .beginsWith]

/-- The operator with this key. -/
def named? : String → Option Operator := wordWith? key all

theorem mem_all (operator : Operator) : operator ∈ all := by
  cases operator with
  | compare comparator => cases comparator <;> decide
  | _ => decide

theorem ofKey?_eq_some_iff {key : String} {operator : Operator} :
    ofKey? key = some operator ↔ key = operator.key := by
  constructor
  · intro known
    unfold ofKey? at known
    split at known <;> cases known <;> rfl
  · rintro rfl
    cases operator with
    | compare comparator => cases comparator <;> rfl
    | _ => rfl

theorem key_injective : Function.Injective key :=
  injective_of_read fun _ _ => ofKey?_eq_some_iff

theorem ofKey?_eq_named? : ∀ key, ofKey? key = named? key :=
  eq_wordWith?_of_read (fun _ _ => ofKey?_eq_some_iff) mem_all

theorem beginsWithDollar_key (operator : Operator) : BeginsWithDollar operator.key := by
  cases operator with
  | compare comparator => cases comparator <;> decide
  | _ => decide

theorem key_ne_not (operator : Operator) : operator.key ≠ "$not" := by
  cases operator with
  | compare comparator => cases comparator <;> decide
  | _ => decide

end Operator

namespace Connective

/-- The connective with this key. -/
def named? : String → Option Connective := wordWith? key [.and, .or]

theorem ofKey?_eq_some_iff {key : String} {connective : Connective} :
    ofKey? key = some connective ↔ key = connective.key := by
  constructor
  · intro known
    unfold ofKey? at known
    split at known <;> cases known <;> rfl
  · rintro rfl
    cases connective <;> rfl

theorem key_injective : Function.Injective key :=
  injective_of_read fun _ _ => ofKey?_eq_some_iff

theorem ofKey?_eq_named? : ∀ key, ofKey? key = named? key :=
  eq_wordWith?_of_read (fun _ _ => ofKey?_eq_some_iff) fun connective => by
    cases connective <;> decide

theorem beginsWithDollar_key (connective : Connective) : BeginsWithDollar connective.key := by
  cases connective <;> decide

end Connective

namespace UpdateOperator

def key : UpdateOperator → String
  | .set => "$set"
  | .unset => "$unset"
  | .inc => "$inc"
  | .push => "$push"
  | .unshift => "$unshift"
  | .addToSet => "$addToSet"
  | .removeFromSet => "$removeFromSet"

/-- The operator of updates with this key. -/
def named? : String → Option UpdateOperator :=
  wordWith? key [.set, .unset, .inc, .push, .unshift, .addToSet, .removeFromSet]

theorem ofKey?_eq_some_iff {key : String} {operator : UpdateOperator} :
    ofKey? key = some operator ↔ key = operator.key := by
  constructor
  · intro known
    unfold ofKey? at known
    split at known <;> cases known <;> rfl
  · rintro rfl
    cases operator <;> rfl

theorem key_injective : Function.Injective key :=
  injective_of_read fun _ _ => ofKey?_eq_some_iff

theorem ofKey?_eq_named? : ∀ key, ofKey? key = named? key :=
  eq_wordWith?_of_read (fun _ _ => ofKey?_eq_some_iff) fun operator => by
    cases operator <;> decide

end UpdateOperator

end DocQuery
