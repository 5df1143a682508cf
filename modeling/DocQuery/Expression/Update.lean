import DocQuery.Placeholder

/-!
# DocQuery.Expression.Update

Updates of an item and their text.

An update is a list of actions. The text sorts them into four clauses in a fixed order and
keeps their order inside each clause; a clause without actions is left out.
-/

namespace DocQuery

/-- The clauses of an update, in the order in which they are written. -/
inductive Clause where
  | set
  | remove
  | add
  | delete
deriving DecidableEq, Repr

namespace Clause

def all : List Clause := [.set, .remove, .add, .delete]

def keyword : Clause → String
  | .set => "SET"
  | .remove => "REMOVE"
  | .add => "ADD"
  | .delete => "DELETE"

end Clause

/-- One change of one attribute. Paths have tokens for names, operands are value tokens. -/
inductive Action where
  | assign (path : Path) (operand : Token)
  | assignIfMissing (path : Path) (operand : Token)
  /-- Append to a list, starting from `empty` if there is none. -/
  | append (path : Path) (operand empty : Token)
  /-- Put before a list, starting from `empty` if there is none. -/
  | prepend (path : Path) (operand empty : Token)
  | remove (path : Path)
  | add (path : Path) (operand : Token)
  | delete (path : Path) (operand : Token)
deriving DecidableEq, Repr

namespace Action

def clause : Action → Clause
  | .assign .. | .assignIfMissing .. | .append .. | .prepend .. => .set
  | .remove .. => .remove
  | .add .. => .add
  | .delete .. => .delete

/-- What an attribute holds, or `operand` if it is missing. -/
def orElse (path : Path) (operand : Token) : String :=
  "if_not_exists(" ++ path.text ++ ", " ++ operand ++ ")"

def text : Action → String
  | .assign path operand => path.text ++ "=" ++ operand
  | .assignIfMissing path operand => path.text ++ "=" ++ orElse path operand
  | .append path operand empty =>
    path.text ++ "=list_append(" ++ orElse path empty ++ ", " ++ operand ++ ")"
  | .prepend path operand empty =>
    path.text ++ "=list_append(" ++ operand ++ ", " ++ orElse path empty ++ ")"
  | .remove path => path.text
  | .add path operand => path.text ++ " " ++ operand
  | .delete path operand => path.text ++ " " ++ operand

end Action

/-- The actions of an update, in the order in which its document lists them. -/
abbrev Update := List Action

namespace Update

/-- The actions of one clause. -/
def inClause (update : Update) (clause : Clause) : List Action :=
  List.filter (fun action => action.clause = clause) update

/-- A clause with its actions, unless it has none. -/
def clauseText? (update : Update) (clause : Clause) : Option String :=
  match inClause update clause with
  | [] => none
  | actions => some (clause.keyword ++ " " ++ ", ".intercalate (actions.map Action.text))

def text (update : Update) : String :=
  " ".intercalate (Clause.all.filterMap (clauseText? update))

end Update

end DocQuery
