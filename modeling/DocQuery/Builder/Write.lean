import DocQuery.Builder.Error
import DocQuery.Compile.Update
import DocQuery.Request

/-!
# DocQuery.Builder.Write

Updates, inserts and deletes before they are built.

An update holds back unless its item exists, an insert holds back if it does: the request is
guarded by a test of every attribute of the key.
-/

namespace DocQuery

/-- What a write asks of the existence of its item. -/
inductive WriteMode where
  /-- The item must exist. -/
  | update
  /-- The item is created if it is missing. -/
  | upsert
  /-- The item must not exist. -/
  | insert
deriving DecidableEq, Repr

/-- The test of one key attribute that guards a write. -/
def WriteMode.guard : WriteMode → Option (Path → Predicate)
  | .update => some .present
  | .upsert => none
  | .insert => some .absent

/-- Name each key attribute as a whole and test it. -/
def guardAttributes (test : Path → Predicate) : Fields → Naming (List Condition)
  | [] => pure []
  | (name, _) :: rest => do
    let token ← Naming.nameAttribute name
    let tests ← guardAttributes test rest
    return .test (test [⟨token, ""⟩]) :: tests

/-- A change of one item. -/
structure UpdateBuilder where
  table : String
  key : Document
  update : Document
  mode : WriteMode := .update
  filters : List Document := []
  returnValues : ReturnValue := .allNew
deriving Repr

namespace UpdateBuilder

/-- Create the item if it is missing. -/
def upsert (b : UpdateBuilder) : UpdateBuilder :=
  { b with mode := .upsert }

/-- Write only if the stored item matches; several filters must all hold. -/
def filter (b : UpdateBuilder) (query : Document) : UpdateBuilder :=
  { b with filters := b.filters ++ [query] }

def returning (b : UpdateBuilder) (returnValues : ReturnValue) : UpdateBuilder :=
  { b with returnValues }

/-- The tests of the key attributes that the mode asks for. -/
def compileGuard (b : UpdateBuilder) : Naming (List Condition) :=
  match b.mode.guard with
  | none => pure []
  | some test => guardAttributes test (b.key.fields?.getD [])

/-- The guard of the key beside all filters. -/
def condition (guards : List Condition) (filter : Option Condition) : Option Condition :=
  -- Tests of the key need no parentheses; the filter may be a chain and is put in them.
  match guards, filter with
  | [], filter => filter
  | guards, none => Condition.join .and guards
  | guards, some filter => Condition.join .and (guards ++ [.group filter])

/-- Update and condition, in the order in which they take their placeholders. -/
def compile (b : UpdateBuilder) : Compile (Update × Option Condition) := do
  let update ← compileUpdate b.update
  let guards ← b.compileGuard
  let filter ← compileFilters b.filters
  return (update, condition guards filter)

def build (b : UpdateBuilder) : Except RequestError UpdateRequest := do
  let key ← keyOfDocument b.key
  assemble b.compile fun (update, condition) p =>
    { table := b.table
      key
      update := if update.isEmpty then none else some update.text
      condition := condition.map Condition.text
      names := p.names
      values := p.values
      returnValues := some b.returnValues }

end UpdateBuilder

/-- A deletion of one item. -/
structure DeleteBuilder where
  table : String
  key : Document
  filters : List Document := []
  returnValues : Option ReturnValue := none
deriving Repr

namespace DeleteBuilder

/-- Delete only if the stored item matches; several filters must all hold. -/
def filter (b : DeleteBuilder) (query : Document) : DeleteBuilder :=
  { b with filters := b.filters ++ [query] }

def returning (b : DeleteBuilder) (returnValues : ReturnValue) : DeleteBuilder :=
  { b with returnValues := some returnValues }

def build (b : DeleteBuilder) : Except RequestError DeleteRequest := do
  let key ← keyOfDocument b.key
  assemble (compileFilters b.filters) fun condition p =>
    { table := b.table
      key
      condition := condition.map Condition.text
      names := p.names
      values := p.values
      returnValues := b.returnValues }

end DeleteBuilder

end DocQuery
