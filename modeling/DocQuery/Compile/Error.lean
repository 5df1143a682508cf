import DocQuery.Expression.Condition

/-!
# DocQuery.Compile.Error

Why a document cannot be compiled.
-/

namespace DocQuery

/-- The key under which a document lists the members of a chain. -/
def Connective.key : Connective → String
  | .and => "$and"
  | .or => "$or"

inductive QueryFault where
  | notDocument
  | membersNotArray (connective : Connective)
  | noMembers (connective : Connective)
  | memberNotDocument (connective : Connective)
  | bounds (path : String)
  | candidates (path : String)
deriving DecidableEq, Repr

def QueryFault.message : QueryFault → String
  | .notDocument => "a query must be a document"
  | .membersNotArray connective => connective.key ++ " requires an array of documents"
  | .noMembers connective => connective.key ++ " requires at least one document"
  | .memberNotDocument connective => connective.key ++ " elements must be documents"
  | .bounds path => "$between on '" ++ path ++ "' requires an array of exactly two values"
  | .candidates path => "$in/$nin on '" ++ path ++ "' requires a non-empty array"

inductive UpdateFault where
  | notDocument
  | fieldsNotDocument (operator : String)
  | notNumber (path : String)
  | notArray (path : String)
  | emptySet (path : String)
  | mixedSet (path : String)
deriving DecidableEq, Repr

def UpdateFault.message : UpdateFault → String
  | .notDocument => "an update must be a document"
  | .fieldsNotDocument operator => operator ++ " requires a document of fields"
  | .notNumber path => "$inc on '" ++ path ++ "' requires a number"
  | .notArray path => "$each on '" ++ path ++ "' requires an array"
  | .emptySet path => "set for '" ++ path ++ "' must not be empty"
  | .mixedSet path => "set members for '" ++ path ++ "' must be all strings or all numbers"

inductive CompileError where
  /-- A value was to be bound for `key` and there is none. -/
  | missingValue (key : String)
  | invalidQuery (fault : QueryFault)
  | unknownOperator (operator : String)
  | invalidUpdate (fault : UpdateFault)
deriving DecidableEq, Repr

def CompileError.message : CompileError → String
  | .missingValue key => "Invalid value for '" ++ key ++ "': a placeholder needs a concrete value"
  | .invalidQuery fault => "Invalid query: " ++ fault.message
  | .unknownOperator operator => "Unknown operator: " ++ operator
  | .invalidUpdate fault => "Invalid update: " ++ fault.message

end DocQuery
