import DocQuery.Proofs.ConditionReader
import DocQuery.Proofs.JsonText
import DocQuery.Proofs.Vocabulary

/-!
# DocQuery.Proofs.Query

What a query document asks, said without compiling it.

The questions of a document are its fields that ask about an attribute, at any depth and in
document order. Each question is one test, perhaps negated. A document without a question has no
verdict and is passed over where it stands among others.
-/

namespace DocQuery

/-! ### Tests -/

/-- A test of one attribute, with names and values in place of tokens. -/
inductive Test where
  | compare (path : Path) (comparator : Comparator) (operand : AttributeValue)
  | between (path : Path) (low high : AttributeValue)
  | oneOf (path : Path) (candidates : List AttributeValue)
  | contains (path : Path) (operand : AttributeValue)
  | beginsWith (path : Path) (operand : AttributeValue)
  | present (path : Path)
  | absent (path : Path)
deriving DecidableEq, Repr

/-- The test of a predicate with its tokens replaced by what they stand for. -/
def Predicate.resolve? (p : Placeholders) : Predicate → Option Test
  | .compare path comparator operand => do
    return .compare (← path.resolve? p) comparator (← p.values.get? operand)
  | .between path low high => do
    return .between (← path.resolve? p) (← p.values.get? low) (← p.values.get? high)
  | .oneOf path candidates => do
    return .oneOf (← path.resolve? p) (← candidates.mapM p.values.get?)
  | .contains path operand => do
    return .contains (← path.resolve? p) (← p.values.get? operand)
  | .beginsWith path operand => do
    return .beginsWith (← path.resolve? p) (← p.values.get? operand)
  | .present path => (path.resolve? p).map .present
  | .absent path => (path.resolve? p).map .absent
  -- A negation is a formula about a test and not itself one.
  | .not _ => none

/-- The truth of predicates that comes with the truth of the tests they stand for. -/
def Placeholders.truth (p : Placeholders) (truth : Test → Bool) (predicate : Predicate) : Bool :=
  (predicate.resolve? p).any truth

/-! ### Operands -/

/-- What stands for false where a yes or no is asked for: null, false, zero and the empty text. -/
def Document.standsForFalse : Document → Bool
  | .null => true
  | .bool value => value = false
  | .number (.whole value _) => value = 0
  | .number (.double x) => x.significand = 0
  | .string value => value = ""
  | .array _ | .object _ => false

theorem Document.isTruthy_eq (document : Document) :
    document.isTruthy = !document.standsForFalse := by
  cases document with
  | bool value => cases value <;> rfl
  | number value => cases value <;> rfl
  | string value => simp [isTruthy, standsForFalse]
  | _ => rfl

/-- What a text is asked to begin with: a text as it is, anything else as it is written. -/
def Document.beginning : Document → String
  | .string value => value
  | other => String.ofList other.written

theorem Document.toText_eq (document : Document) : document.toText = document.beginning := by
  cases document with
  | string value => rfl
  | _ => simp [toText, beginning, ← toList_text]

/-! ### Questions -/

def Operator.test? (path : Path) (operand : Document) : Operator → Option Test
  | .compare comparator => some (.compare path comparator (.ofDocument operand))
  | .between =>
    match operand with
    | .array [low, high] => some (.between path (.ofDocument low) (.ofDocument high))
    | _ => none
  | .oneOf | .noneOf =>
    match operand with
    | .array candidates => some (.oneOf path (candidates.map .ofDocument))
    | _ => none
  | .contains => some (.contains path (.ofDocument operand))
  | .exist => some (if operand.standsForFalse then .absent path else .present path)
  | .beginsWith => some (.beginsWith path (.string operand.beginning))

namespace Query

/-- The one test that a value asks for. -/
def test? (path : Path) : Document → Option Test
  | .object [(key, operand)] =>
    if key = "$not" then
      test? path operand
    else if BeginsWithDollar key then
      (Operator.named? key).bind (Operator.test? path operand)
    else
      some (.compare path .eq (.ofDocument (.object [(key, operand)])))
  | literal => some (.compare path .eq (.ofDocument literal))

/-- Whether what a value asks for holds: `$not` and `$nin` negate their one test. -/
def holds (truth : Test → Bool) (path : Path) : Document → Bool
  | .object [(key, operand)] =>
    if key = "$not" then
      !holds truth path operand
    else if key = "$nin" then
      !(test? path (.object [(key, operand)])).any truth
    else
      (test? path (.object [(key, operand)])).any truth
  | literal => (test? path literal).any truth

mutual

def questionsOfFields : Fields → Fields
  | [] => []
  | (key, value) :: rest => questionsOfField key value ++ questionsOfFields rest

def questionsOfField (key : String) (value : Document) : Fields :=
  match Connective.named? key with
  | none => [(key, value)]
  | some _ =>
    match value with
    | .array members => questionsOfMembers members
    | _ => []

def questionsOfMembers : List Document → Fields
  | [] => []
  | .object fields :: rest => questionsOfFields fields ++ questionsOfMembers rest
  | _ :: rest => questionsOfMembers rest

end

/-- The paths that a document asks about and the values it asks for, in document order. -/
def questions : Document → Fields
  | .object fields => questionsOfFields fields
  | _ => []

/-- The tests of all questions, in document order. -/
def tests? (query : Document) : Option (List Test) :=
  (questions query).mapM fun (path, value) => test? (.ofText path) value

end Query

/-- The verdict of several parts; there is none without a part. -/
def Connective.verdict? (connective : Connective) : List Bool → Option Bool
  | [] => none
  | verdicts => some (connective.fold verdicts)

namespace Query

mutual

/-- The verdicts of the fields that hold a question: all of them have to be true. -/
def verdictsOfFields (truth : Test → Bool) : Fields → List Bool
  | [] => []
  | (key, value) :: rest =>
    (verdictOfField? truth key value).toList ++ verdictsOfFields truth rest

def verdictOfField? (truth : Test → Bool) (key : String) (value : Document) : Option Bool :=
  match Connective.named? key with
  | none => some (holds truth (.ofText key) value)
  | some connective =>
    match value with
    | .array members => connective.verdict? (verdictsOfMembers truth members)
    | _ => none

/-- The verdicts of the members that hold a question. -/
def verdictsOfMembers (truth : Test → Bool) : List Document → List Bool
  | [] => []
  | .object fields :: rest =>
    (Connective.and.verdict? (verdictsOfFields truth fields)).toList ++
      verdictsOfMembers truth rest
  | _ :: rest => verdictsOfMembers truth rest

end

/-- Whether a document holds under an assignment of truth to tests, if it asks anything. -/
def verdict? (truth : Test → Bool) : Document → Option Bool
  | .object fields => Connective.and.verdict? (verdictsOfFields truth fields)
  | _ => none

/-- Every path that is asked about is well formed. -/
def WellFormed (query : Document) : Prop :=
  ∀ question ∈ questions query, WellFormedPath question.1

end Query

end DocQuery
