import DocQuery.Compile.Basic
import DocQuery.Expression.Update

/-!
# DocQuery.Compile.Update

Update documents to updates.

An update document has operators for keys, each with a document of paths and operands. Keys
that are no operators are passed over.
-/

namespace DocQuery

inductive UpdateOperator where
  | set
  | unset
  | inc
  | push
  | unshift
  | addToSet
  | removeFromSet
deriving DecidableEq, Repr

def UpdateOperator.ofKey? : String → Option UpdateOperator
  | "$set" => some .set
  | "$unset" => some .unset
  | "$inc" => some .inc
  | "$push" => some .push
  | "$unshift" => some .unshift
  | "$addToSet" => some .addToSet
  | "$removeFromSet" => some .removeFromSet
  | _ => none

/-- The documents listed under `$each`, if the operand is such a list. -/
def each? (path : String) (operand : Document) :
    Except CompileError (Option (List Document)) :=
  match operand.soleField? "$each" with
  | none => .ok none
  | some (.array items) => .ok (some items)
  | some _ => .error (.invalidUpdate (.notArray path))

/-- The list to append: the documents under `$each`, or the operand as the only element. -/
def listOperand (path : String) (operand : Document) : Except CompileError AttributeValue :=
  (each? path operand).map fun items =>
    .list ((items.getD [operand]).map AttributeValue.ofDocument)

def stringMember? : Document → Option String
  | .string text => some text
  | _ => none

/-- A number as a member of a set is its text. -/
def numberMember? : Document → Option String
  | .number value => some value.text
  | _ => none

/-- The set of some members: strings only or numbers only, each text once, in the order of
first occurrence. -/
def setOfMembers (path : String) (members : List Document) :
    Except CompileError AttributeValue :=
  match members with
  | [] => .error (.invalidUpdate (.emptySet path))
  | .string _ :: _ =>
    match members.mapM stringMember? with
    | some texts => .ok (.stringSet texts.eraseDups)
    | none => .error (.invalidUpdate (.mixedSet path))
  | .number _ :: _ =>
    match members.mapM numberMember? with
    | some texts => .ok (.numberSet texts.eraseDups)
    | none => .error (.invalidUpdate (.mixedSet path))
  | _ => .error (.invalidUpdate (.mixedSet path))

/-- The set to add or delete: the documents under `$each`, those of an array, or the operand as
the only member. -/
def setOperand (path : String) (operand : Document) : Except CompileError AttributeValue := do
  match ← each? path operand with
  | some members => setOfMembers path members
  | none =>
    match operand with
    | .array members => setOfMembers path members
    -- An operand that is no list is the only member.
    | member => setOfMembers path [member]

/-- The action of an operator on one path. -/
def compileAction (operator : UpdateOperator) (path : String) (operand : Document) :
    Compile Action := do
  -- The path is named first: it stays named even if the operand is then refused.
  let name ← Naming.nameText path
  match operator with
  | .set =>
    match operand.soleField? "$ifNotExists" with
    | some fallback => return .assignIfMissing name (← Naming.bindDocument path fallback)
    | none => return .assign name (← Naming.bindDocument path operand)
  | .unset => return .remove name
  | .inc =>
    match operand with
    | .number value => return .add name (← Naming.bindDocument path (.number value))
    | _ => throw (.invalidUpdate (.notNumber path))
  | .push => do
    let token ← Naming.bindValue path (← listOperand path operand)
    return .append name token (← Naming.bindEmptyList)
  | .unshift => do
    let token ← Naming.bindValue path (← listOperand path operand)
    return .prepend name token (← Naming.bindEmptyList)
  | .addToSet => return .add name (← Naming.bindValue path (← setOperand path operand))
  | .removeFromSet => return .delete name (← Naming.bindValue path (← setOperand path operand))

/-- The actions of an operator on the fields of its document. -/
def compileActions (operator : UpdateOperator) : Fields → Compile Update
  | [] => return []
  | (path, operand) :: rest => do
    let action ← compileAction operator path operand
    let actions ← compileActions operator rest
    return action :: actions

/-- The actions of the keys of an update document. -/
def compileOperators : Fields → Compile Update
  | [] => return []
  | (key, argument) :: rest =>
    match UpdateOperator.ofKey? key with
    | none => compileOperators rest
    | some operator =>
      match argument with
      | .object fields => do
        let actions ← compileActions operator fields
        let others ← compileOperators rest
        return actions ++ others
      | _ => throw (.invalidUpdate (.fieldsNotDocument key))

/-- The update of an update document. -/
def compileUpdate : Document → Compile Update
  | .object entries => compileOperators entries
  | _ => throw (.invalidUpdate .notDocument)

end DocQuery
