import Staging.Session
import Staging.Sql.Dialect

/-!
# Defining the loading table

The statements that create a loading table, describe it, grant access to it and index it. The
identifier comes first, then the inferred columns, the document and the tenant.
-/

namespace Staging.Sql

open Schema

/-- The column of the whole document. -/
def documentColumn : String := "data"

/-- The column of the tenant. -/
def tenantColumn : String := "tenant_id"

/-- What the statements depend on. -/
structure Definer where
  dialect : Dialect
  settings : Settings

namespace Definer

def loadingTable (d : Definer) (t : Table) : String := d.settings.loadingTable t.name

/-- An identifier between double quotes. -/
def quoted (name : String) : String := "\"" ++ name ++ "\""

/-- The declarations of all columns. -/
def declarations (d : Definer) (t : Table) : List String :=
  "id VARCHAR(36) NOT NULL"
    :: (t.columns.filter (·.type != .id)).map (fun c => quoted c.name ++ " " ++ c.type.sql)
    ++ [documentColumn ++ " " ++ d.dialect.jsonType, tenantColumn ++ " SMALLINT NOT NULL"]

/-- The statement that creates the table. -/
def create (d : Definer) (t : Table) : String :=
  "CREATE TABLE " ++ d.loadingTable t ++ " (\n"
    ++ ",\n".intercalate ((d.declarations t).map ("    " ++ ·))
    ++ "\n)" ++ d.dialect.distribution "id" "id" ++ ";"

/-- The statement that says what the table holds and where that is documented. -/
def comment (d : Definer) (t : Table) : String :=
  let url := d.settings.apiReferenceUrl ++ t.moduleName
  let text := t.sourcePath ++ " in " ++ t.moduleName ++ ": " ++ url
  "COMMENT ON TABLE " ++ d.loadingTable t ++ "\n    IS " ++ d.dialect.literal text ++ ";"

/-- The statements that let the readers select. -/
def grants (d : Definer) (t : Table) : List String :=
  [d.settings.configUser, d.settings.readUser].map fun role =>
    "GRANT SELECT ON " ++ d.loadingTable t ++ "\n    TO " ++ role ++ ";"

/-- The statement for the primary key. -/
def primaryKey (d : Definer) (t : Table) : String :=
  "ALTER TABLE " ++ d.loadingTable t ++ "\n    ADD PRIMARY KEY (id);"

/-- The statement that indexes a column. -/
def columnIndex (d : Definer) (t : Table) (c : Column) : String :=
  "CREATE INDEX ON\n    " ++ d.loadingTable t ++ "\n    (" ++ quoted c.name ++ ");"

/-- The statements that index the table: the primary key, first unless a column is the identifier,
and an index for each column other than the document where the dialect has them. -/
def indexes (d : Definer) (t : Table) : List String :=
  (if t.idColumn?.isNone then [d.primaryKey t] else []) ++ t.columns.flatMap fun c =>
    if c.type = .id then [d.primaryKey t]
    else if d.dialect.hasSecondaryIndexes && c.name != documentColumn then [d.columnIndex t c]
    else []

/-! ## Execution -/

/-- The channel of the records of definition. -/
def channel : String := "jsonstage.ingest.ddl_generator"

/-- Whether a table's module has documentation that a comment can refer to. -/
def isDescribed (d : Definer) (t : Table) : Bool :=
  !d.settings.commentExemptModules.contains t.moduleName

variable {σ : Type}

/-- Executes a statement, and shows it before. -/
def execute (executor : Executor) (sql : String) : Run σ Unit := do
  Run.log channel Log.Level.detail sql []
  Run.execute executor sql

/-- Creates the loading table, describes it and grants access to it. -/
def createTable (d : Definer) (executor : Executor) (t : Table) : Run σ Unit := do
  execute executor (d.create t)
  if d.isDescribed t then
    Run.log channel Log.Level.detail ("Setting comment on table: " ++ t.name) []
    execute executor (d.comment t)
  (d.grants t).forM (execute executor)

/-- Indexes the loading table. -/
def indexTable (d : Definer) (executor : Executor) (t : Table) : Run σ Unit := do
  Run.log channel Log.Level.trace ("Creating indexes on table: " ++ t.name) []
  (d.indexes t).forM (execute executor)

end Definer

end Staging.Sql
