import DocQuery.Builder.Error
import DocQuery.Request

/-!
# DocQuery.Builder.Read

Queries and scans before they are built. A builder only records what is asked for, so building
it again gives the same request.
-/

namespace DocQuery

/-- The direction in which a query walks the sort key. -/
inductive Order where
  | ascending
  | descending
deriving DecidableEq, Repr

/-- A read of the items that match a key condition. -/
structure QueryBuilder where
  table : String
  keyCondition : Document
  filters : List Document := []
  index : Option String := none
  fields : Option String := none
  limit : Option Int32 := none
  order : Option Order := none
  consistent : Bool := false
deriving Repr

namespace QueryBuilder

def onIndex (b : QueryBuilder) (index : String) : QueryBuilder :=
  { b with index := some index }

/-- Filter the matches; several filters must all hold. -/
def filter (b : QueryBuilder) (query : Document) : QueryBuilder :=
  { b with filters := b.filters ++ [query] }

/-- Return only the fields of a list separated by blanks or commas. -/
def select (b : QueryBuilder) (fields : String) : QueryBuilder :=
  { b with fields := some fields }

def limitTo (b : QueryBuilder) (limit : Int32) : QueryBuilder :=
  { b with limit := some limit }

def sort (b : QueryBuilder) (order : Order) : QueryBuilder :=
  { b with order := some order }

def consistently (b : QueryBuilder) : QueryBuilder :=
  { b with consistent := true }

/-- Key condition, filter and projection, in the order in which they take their placeholders. A
count has no projection. -/
def compile (b : QueryBuilder) (select : Option Select) :
    Compile (Option Condition × Option Condition × Option Projection) := do
  let keyCondition ← compileCondition b.keyCondition
  let filter ← compileFilters b.filters
  let projection ← compileFieldList (if select = some .count then none else b.fields)
  return (keyCondition, filter, projection)

def buildWith (b : QueryBuilder) (select : Option Select) : Except RequestError QueryRequest :=
  assemble (b.compile select) fun (keyCondition, filter, projection) p =>
    { table := b.table
      index := b.index
      keyCondition := keyCondition.map Condition.text
      filter := filter.map Condition.text
      projection := projection.map Projection.text
      names := p.names
      values := p.values
      forward := b.order.map fun order => order = .ascending
      limit := b.limit
      select
      consistent := if b.consistent then some true else none }

/-- The request for the matches. -/
def build (b : QueryBuilder) : Except RequestError QueryRequest :=
  b.buildWith none

/-- The request for the number of matches. -/
def buildCount (b : QueryBuilder) : Except RequestError QueryRequest :=
  b.buildWith (some .count)

end QueryBuilder

/-- A read of all items. -/
structure ScanBuilder where
  table : String
  filters : List Document := []
  index : Option String := none
  fields : Option String := none
  limit : Option Int32 := none
  consistent : Bool := false
deriving Repr

namespace ScanBuilder

def onIndex (b : ScanBuilder) (index : String) : ScanBuilder :=
  { b with index := some index }

/-- Filter the items; several filters must all hold. -/
def filter (b : ScanBuilder) (query : Document) : ScanBuilder :=
  { b with filters := b.filters ++ [query] }

/-- Return only the fields of a list separated by blanks or commas. -/
def select (b : ScanBuilder) (fields : String) : ScanBuilder :=
  { b with fields := some fields }

def limitTo (b : ScanBuilder) (limit : Int32) : ScanBuilder :=
  { b with limit := some limit }

def consistently (b : ScanBuilder) : ScanBuilder :=
  { b with consistent := true }

/-- Filter and projection, in the order in which they take their placeholders. A count has no
projection. -/
def compile (b : ScanBuilder) (select : Option Select) :
    Compile (Option Condition × Option Projection) := do
  let filter ← compileFilters b.filters
  let projection ← compileFieldList (if select = some .count then none else b.fields)
  return (filter, projection)

def buildWith (b : ScanBuilder) (select : Option Select) : Except RequestError ScanRequest :=
  assemble (b.compile select) fun (filter, projection) p =>
    { table := b.table
      index := b.index
      filter := filter.map Condition.text
      projection := projection.map Projection.text
      names := p.names
      values := p.values
      limit := b.limit
      select
      consistent := if b.consistent then some true else none }

/-- The request for the items. -/
def build (b : ScanBuilder) : Except RequestError ScanRequest :=
  b.buildWith none

/-- The request for the number of items. -/
def buildCount (b : ScanBuilder) : Except RequestError ScanRequest :=
  b.buildWith (some .count)

end ScanBuilder

end DocQuery
