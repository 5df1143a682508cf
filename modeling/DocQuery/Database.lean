import DocQuery.Builder.Read
import DocQuery.Builder.Write
import DocQuery.Config
import DocQuery.Text.Shown

/-!
# DocQuery.Database

Databases and tables, where reads and writes begin.
-/

namespace DocQuery

/-- The tables that share one configuration. -/
structure Database where
  config : Config := {}
deriving DecidableEq, Repr

/-- A table by the name under which the store knows it. -/
structure Table where
  name : String
deriving DecidableEq, Repr

/-- The settings as they are shown in a log. -/
def Config.describe (config : Config) : String :=
  let qualifier :=
    match config.qualifier with
    | some qualifier => "Some(" ++ shown qualifier ++ ")"
    | none => "None"
  "DatabaseConfig \x7b table_prefix: " ++ qualifier ++ ", prefix_delimiter: " ++
    shown config.delimiter ++ " \x7d"

namespace Database

/-- A table under the name that the configuration gives it. -/
def table (db : Database) (name : String) : Table :=
  ⟨db.config.tableName name⟩

/-- A table under exactly this name. -/
def rawTable (_ : Database) (name : String) : Table :=
  ⟨name⟩

/-- A database as it is shown in a log; the dots stand for its store. -/
def describe (db : Database) : String :=
  "Database \x7b config: " ++ db.config.describe ++ ", .. \x7d"

end Database

/-- The fields of an insert that are not part of the key. -/
def withoutKey (key data : Document) : Document :=
  match data, key with
  | .object fields, .object keyFields =>
    .object (fields.filter fun field => (Document.field? keyFields field.1).isNone)
  | data, _ => data

namespace Table

/-- Read the items that match a key condition. -/
def find (t : Table) (query : Document) : QueryBuilder :=
  { table := t.name, keyCondition := query }

/-- Read one item that matches a key condition. -/
def findOne (t : Table) (query : Document) : QueryBuilder :=
  (t.find query).limitTo 1

/-- Read all items. -/
def scan (t : Table) : ScanBuilder :=
  { table := t.name }

/-- Change an item that exists. -/
def update (t : Table) (key update : Document) : UpdateBuilder :=
  { table := t.name, key, update }

/-- Create an item that does not exist. The key is no part of what is set. -/
def insert (t : Table) (key data : Document) : UpdateBuilder :=
  { table := t.name
    key
    update := .object [("$set", withoutKey key data)]
    mode := .insert }

/-- Delete an item. -/
def remove (t : Table) (key : Document) : DeleteBuilder :=
  { table := t.name, key }

/-- Delete an item and return what it was. -/
def findOneAndRemove (t : Table) (key : Document) : DeleteBuilder :=
  (t.remove key).returning .allOld

/-- A table as it is shown in a log; the dots stand for its store. -/
def describe (t : Table) : String :=
  "Table \x7b name: " ++ shown t.name ++ ", .. \x7d"

end Table

end DocQuery
