import DocQuery.Compile.Basic

/-!
# DocQuery.Compile.Condition

Query documents to conditions.

A query document maps paths to literals, for equality, or to operator documents such as an
object with the single field `$gt`; under `$and` and `$or` it lists further documents. The keys
of a document are conjoined. A document without a predicate is no condition at all.
-/

namespace DocQuery

/-- What a query document can ask about one attribute, negation apart. -/
inductive Operator where
  | compare (comparator : Comparator)
  | between
  | oneOf
  | noneOf
  | contains
  | exist
  | beginsWith
deriving DecidableEq, Repr

def Operator.ofKey? : String → Option Operator
  | "$eq" => some (.compare .eq)
  | "$ne" => some (.compare .ne)
  | "$lt" => some (.compare .lt)
  | "$lte" => some (.compare .le)
  | "$gt" => some (.compare .gt)
  | "$gte" => some (.compare .ge)
  | "$between" => some .between
  | "$in" => some .oneOf
  | "$nin" => some .noneOf
  | "$contains" => some .contains
  | "$exists" => some .exist
  | "$beginsWith" => some .beginsWith
  | _ => none

def Connective.ofKey? : String → Option Connective
  | "$and" => some .and
  | "$or" => some .or
  | _ => none

/-- Whether a key is meant as an operator and not as a path. -/
def isOperatorKey (key : String) : Bool :=
  key.toList.head? = some '$'

/-- The membership test of `$in` and `$nin`. -/
def compileCandidates (path : String) (name : Path) : Document → Compile Predicate
  | .array [] => throw (.invalidQuery (.candidates path))
  | .array candidates => return .oneOf name (← Naming.bindEach path candidates)
  | _ => throw (.invalidQuery (.candidates path))

/-- The predicate of an operator on an attribute. -/
def compileOperator (path : String) (name : Path) (operand : Document) :
    Operator → Compile Predicate
  | .compare comparator => return .compare name comparator (← Naming.bindDocument path operand)
  | .between =>
    match operand with
    | .array [low, high] => do
      -- The bounds take tokens of their own, numbered like the elements of a list.
      let lowToken ← Naming.bindDocument (path ++ "_0") low
      let highToken ← Naming.bindDocument (path ++ "_1") high
      return .between name lowToken highToken
    | _ => throw (.invalidQuery (.bounds path))
  | .oneOf => compileCandidates path name operand
  | .noneOf => return .not (← compileCandidates path name operand)
  | .contains => return .contains name (← Naming.bindDocument path operand)
  | .exist => return if operand.isTruthy then .present name else .absent name
  | .beginsWith =>
    return .beginsWith name (← Naming.bindDocument path (.string operand.toText))

/-- The predicate of a value in a query document. An object whose only key is an operator key
is an operator document; anything else is a literal to be equal to. -/
def compilePredicate (path : String) (name : Path) : Document → Compile Predicate
  | .object [(key, operand)] =>
    if key = "$not" then
      -- What is negated is a predicate on the same path.
      return .not (← compilePredicate path name operand)
    else if isOperatorKey key then
      match Operator.ofKey? key with
      | some operator => compileOperator path name operand operator
      | none => throw (.unknownOperator key)
    else
      return .compare name .eq (← Naming.bindDocument path (.object [(key, operand)]))
  | literal => return .compare name .eq (← Naming.bindDocument path literal)

mutual

/-- The conditions of the fields of a document, those without a predicate left out. Beside
siblings a chain is put in parentheses. -/
def compileFields (siblings : Bool) : Fields → Compile (List Condition)
  | [] => return []
  | (key, value) :: rest => do
    let part ← compileField key value
    let parts ← compileFields siblings rest
    let placed := if siblings then part.map Condition.besideSiblings else part
    return placed.toList ++ parts

/-- The condition of one field: a chain under its key, or a predicate on a path. -/
def compileField (key : String) (value : Document) : Compile (Option Condition) :=
  match Connective.ofKey? key with
  | some connective =>
    match value with
    | .array [] => throw (.invalidQuery (.noMembers connective))
    | .array members => return Condition.join connective (← compileMembers connective members)
    | _ => throw (.invalidQuery (.membersNotArray connective))
  | none =>
    if isOperatorKey key then
      throw (.unknownOperator key)
    else do
      let name ← Naming.nameText key
      return some (.test (← compilePredicate key name value))

/-- The conditions of the members of a chain, those without a predicate left out. -/
def compileMembers (connective : Connective) : List Document → Compile (List Condition)
  | [] => return []
  | .object fields :: rest => do
    let part := Condition.join .and (← compileFields (fields.length > 1) fields)
    let parts ← compileMembers connective rest
    return (part.map (Condition.memberOf connective)).toList ++ parts
  | _ :: _ => throw (.invalidQuery (.memberNotDocument connective))

end

/-- The condition of a query document, if it holds a predicate. -/
def compileCondition : Document → Compile (Option Condition)
  | .object fields => return Condition.join .and (← compileFields (fields.length > 1) fields)
  | _ => throw (.invalidQuery .notDocument)

/-- A condition that may be missing as a text that may be empty. -/
def Condition.textOrEmpty : Option Condition → String
  | none => ""
  | some condition => condition.text

end DocQuery
