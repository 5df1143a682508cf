import DocQuery.Compile.Condition
import DocQuery.Compile.Projection
import DocQuery.Document.Printer
import DocQuery.ServiceError

/-!
# DocQuery.Builder.Error

What the builders of reads and writes share: why a request fails, and the filters that are put
on top of each other.
-/

namespace DocQuery

inductive KeyFault where
  | notDocument (key : Document)
  | empty
deriving Repr

def KeyFault.message : KeyFault → String
  | .notDocument key => "a key must be a document, got " ++ key.text
  | .empty => "a key needs at least one attribute"

/-- Why a request cannot be built, or was not answered. -/
inductive RequestError where
  | compile (error : CompileError)
  | invalidKey (fault : KeyFault)
  | store (error : ServiceError)
  /-- An item came back with a number that no document can hold. -/
  | unrepresentable
deriving Repr

namespace RequestError

def message : RequestError → String
  | .compile error => error.message
  | .invalidKey fault => "invalid key: " ++ fault.message
  | .store error => error.text
  | .unrepresentable => "cannot convert item: item holds a number JSON cannot represent"

/-- Whether the store rejected a write because its condition did not hold. -/
def isConditionalCheckFailed : RequestError → Bool
  | .store error => error.isConditionalCheckFailed
  | _ => false

end RequestError

/-- Both of two conditions that may be missing. -/
def Condition.conjoin : Option Condition → Option Condition → Option Condition
  | some first, some second => some (.both first second)
  | some first, none => some first
  | none, second => second

/-- Compile filters on top of an earlier condition. -/
def compileFiltersAfter (previous : Option Condition) :
    List Document → Compile (Option Condition)
  | [] => return previous
  | filter :: rest => do
    let next ← compileCondition filter
    compileFiltersAfter (Condition.conjoin previous next) rest

/-- All filters as one condition; filters that ask for nothing are passed over. -/
def compileFilters (filters : List Document) : Compile (Option Condition) :=
  compileFiltersAfter none filters

/-- The projection of a field list, if it names a field. -/
def compileFieldList : Option String → Compile (Option Projection)
  | none => return none
  | some fields => do
    match ← compileProjection fields with
    | [] => return none
    | projection => return some projection

/-- Compile a request from no placeholders at all. -/
def assemble {α β : Type} (compile : Compile α) (finish : α → Placeholders → β) :
    Except RequestError β :=
  match compile.runFrom {} with
  | (.ok parts, p) => .ok (finish parts p)
  | (.error error, _) => .error (.compile error)

/-- The key of a key document. -/
def keyOfDocument (key : Document) : Except RequestError Item :=
  match Item.ofDocument? key with
  | some item => if item.isEmpty then .error (.invalidKey .empty) else .ok item
  | none => .error (.invalidKey (.notDocument key))

end DocQuery
