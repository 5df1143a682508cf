import DocQuery.Placeholder

/-!
# DocQuery.Expression.Condition

Conditions over the attributes of an item, and their text.

In the text `NOT` binds tighter than `AND`, and `AND` tighter than `OR`. The text of a condition
adds no parentheses of its own: they are part of the condition, as `Condition.group`.
-/

namespace DocQuery

inductive Comparator where
  | eq
  | ne
  | lt
  | le
  | gt
  | ge
deriving DecidableEq, Repr

def Comparator.text : Comparator → String
  | .eq => "="
  | .ne => "<>"
  | .lt => "<"
  | .le => "<="
  | .gt => ">"
  | .ge => ">="

/-- A test of one attribute. Paths have tokens for names, operands are value tokens. -/
inductive Predicate where
  | compare (path : Path) (comparator : Comparator) (operand : Token)
  | between (path : Path) (low high : Token)
  | oneOf (path : Path) (candidates : List Token)
  | contains (path : Path) (operand : Token)
  | beginsWith (path : Path) (operand : Token)
  | present (path : Path)
  | absent (path : Path)
  | not (predicate : Predicate)
deriving DecidableEq, Repr

def Predicate.text : Predicate → String
  | .compare path comparator operand => path.text ++ comparator.text ++ operand
  | .between path low high => path.text ++ " BETWEEN " ++ low ++ " AND " ++ high
  | .oneOf path candidates => path.text ++ " IN (" ++ ",".intercalate candidates ++ ")"
  | .contains path operand => "contains(" ++ path.text ++ ", " ++ operand ++ ")"
  | .beginsWith path operand => "begins_with(" ++ path.text ++ ", " ++ operand ++ ")"
  | .present path => "attribute_exists(" ++ path.text ++ ")"
  | .absent path => "attribute_not_exists(" ++ path.text ++ ")"
  | .not predicate => "NOT " ++ predicate.text

inductive Connective where
  | and
  | or
deriving DecidableEq, Repr

def Connective.text : Connective → String
  | .and => " AND "
  | .or => " OR "

inductive Condition where
  | test (predicate : Predicate)
  | chain (connective : Connective) (parts : List Condition)
  | group (condition : Condition)
deriving Repr

namespace Condition

mutual

def text : Condition → String
  | .test predicate => predicate.text
  | .chain connective parts => connective.text.intercalate (texts parts)
  | .group condition => "(" ++ condition.text ++ ")"

def texts : List Condition → List String
  | [] => []
  | part :: rest => part.text :: texts rest

end

/-- Parts side by side. No parts are no condition, and a single part is not a chain. -/
def join (connective : Connective) : List Condition → Option Condition
  | [] => none
  | [part] => some part
  | parts => some (.chain connective parts)

/-- A part that stands beside other keys of its document: every chain is put in parentheses. -/
def besideSiblings : Condition → Condition
  | .chain connective parts => .group (.chain connective parts)
  | part => part

/-- A member of a chain: only an `OR` chain inside an `AND` chain needs parentheses. -/
def memberOf : Connective → Condition → Condition
  | .and, .chain .or parts => .group (.chain .or parts)
  | _, part => part

/-- Both conditions, each in parentheses. -/
def both (first second : Condition) : Condition :=
  .chain .and [.group first, .group second]

end Condition

end DocQuery
