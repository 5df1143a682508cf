import DocQuery.Compile.Condition
import DocQuery.Compile.Update
import DocQuery.Compile.Projection

/-!
# DocQuery.Compile.Result

Documents compiled on their own, with what their placeholders stand for.
-/

namespace DocQuery

/-- A condition as text, empty if the query asks for nothing. -/
structure CompiledCondition where
  expression : String := ""
  names : KeyMap String := ∅
  values : Item := ∅
deriving DecidableEq, Repr, Inhabited

/-- An update as text, empty if nothing is changed. -/
structure CompiledUpdate where
  expression : String := ""
  names : KeyMap String := ∅
  values : Item := ∅
deriving DecidableEq, Repr, Inhabited

/-- Compile a query document beside values that are bound already. -/
def CompiledCondition.ofDocument (query : Document) (existing : Item) :
    Except CompileError CompiledCondition :=
  match (compileCondition query).runFrom { values := existing } with
  | (.ok condition, p) => .ok ⟨Condition.textOrEmpty condition, p.names, p.values⟩
  | (.error error, _) => .error error

def CompiledCondition.isEmpty (compiled : CompiledCondition) : Bool :=
  compiled.expression = ""

/-- Compile an update document beside values that are bound already. -/
def CompiledUpdate.ofDocument (update : Document) (existing : Item) :
    Except CompileError CompiledUpdate :=
  match (compileUpdate update).runFrom { values := existing } with
  | (.ok actions, p) => .ok ⟨actions.text, p.names, p.values⟩
  | (.error error, _) => .error error

def CompiledUpdate.isEmpty (compiled : CompiledUpdate) : Bool :=
  compiled.expression = ""

/-- The placeholders of a value: one for the whole of it, or one for each element. -/
inductive ValueTokens where
  | single (token : Token)
  | list (tokens : List Token)
deriving DecidableEq, Repr

/-- Bind a value. Unless `whole` is set, an array is bound element by element. -/
def bindOperand (key : String) (value : Option Document) (whole : Bool) : Compile ValueTokens :=
  match value with
  | none => throw (.missingValue key)
  | some (.array items) =>
    if whole then return .single (← Naming.bindDocument key (.array items))
    else return .list (← Naming.bindEach key items)
  | some document => return .single (← Naming.bindDocument key document)

end DocQuery
