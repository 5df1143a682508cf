import DocQuery.Expression.Projection

/-!
# DocQuery.Compile.Projection

Field lists to projections.
-/

namespace DocQuery

/-- The paths in a list separated by blanks or commas. -/
def fieldList (fields : String) : List String :=
  ((fields.toList.splitOnP fun c => c = ' ' || c = ',').filter (· ≠ [])).map String.ofList

/-- Name every attribute on each path. -/
def nameTexts : List String → Naming (List Path)
  | [] => pure []
  | path :: rest => do
    let name ← Naming.nameText path
    let names ← nameTexts rest
    return name :: names

/-- The projection of a field list. -/
def compileProjection (fields : String) : Naming Projection :=
  nameTexts (fieldList fields)

end DocQuery
