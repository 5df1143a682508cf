/-!
# DocQuery.Config

How the names of tables are formed.
-/

namespace DocQuery

structure Config where
  /-- What stands before the names of tables, if anything does. -/
  qualifier : Option String := none
  /-- What stands between the qualifier and the name. -/
  delimiter : String := "."
deriving DecidableEq, Repr, Inhabited

namespace Config

def withQualifier (config : Config) (qualifier : String) : Config :=
  { config with qualifier := some qualifier }

def withDelimiter (config : Config) (delimiter : String) : Config :=
  { config with delimiter }

/-- The configuration of an environment in which each setting may be missing. An empty
qualifier counts as missing, an empty delimiter does not. -/
def ofSettings (qualifier delimiter : Option String) : Config where
  qualifier := qualifier.filter (· ≠ "")
  delimiter := delimiter.getD "."

/-- The name under which the store knows a table. -/
def tableName (config : Config) (name : String) : String :=
  match config.qualifier with
  | some qualifier => qualifier ++ config.delimiter ++ name
  | none => name

end Config

end DocQuery
