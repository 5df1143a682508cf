import DocQuery.Placeholder

/-!
# DocQuery.Expression.Projection

The attributes a read returns.
-/

namespace DocQuery

/-- The paths to return; their names are tokens. -/
abbrev Projection := List Path

def Projection.text (projection : Projection) : String :=
  ", ".intercalate (projection.map Path.text)

end DocQuery
