import Mathlib.Logic.Function.Basic

/-!
# `EdgeSentinel.Persistence.Migrations`: the schema of the database file

`migrate` is `_migrate` of `persistence/database.py` on a SQLite file, and `migrations` is
`MIGRATIONS` of `persistence/migrations.py`. The connection is in autocommit, so each statement
is on disk before the next one begins. `migrateUpTo` is a run that ends after so many statements:
the process crashes, or a statement fails for a reason that is not in its text.

A statement reads names and columns. The rows of an application are in `ρ`. Names are written in
lower case.
-/

set_option autoImplicit false

namespace EdgeSentinel.Persistence

/-- A row of a table: a row of `schema_migrations`, or one of the application. -/
inductive Row (ρ : Type) where
  | applied (version : Int) (name : String)
  | data (row : ρ)
  deriving DecidableEq, Repr

structure Table (ρ : Type) where
  columns : List String
  rows : List (Row ρ) := []
  deriving DecidableEq, Repr

structure Index where
  table : String
  columns : List String
  deriving DecidableEq, Repr

/-- The tables and the indexes of a database file. -/
structure SqliteFile (ρ : Type) where
  tables : String → Option (Table ρ)
  indexes : String → Option Index

/-- `sqlite3.OperationalError`, and `sqlite3.IntegrityError` of a primary key. -/
inductive SqliteError where
  | thereIsAlreadyAnIndexNamed (name : String)
  | thereIsAlreadyATableNamed (name : String)
  | noSuchTable (name : String)
  | noSuchColumn (table : String)
  | uniqueConstraintFailed
  deriving DecidableEq, Repr

/-- `CREATE TABLE IF NOT EXISTS` and `CREATE INDEX IF NOT EXISTS`. -/
inductive Create where
  | table (name : String) (columns : List String)
  | index (name table : String) (columns : List String)
  deriving DecidableEq, Repr

/-- A versioned schema change. The script is split into its statements. -/
structure Migration where
  version : Int
  name : String
  sql : List Create
  deriving DecidableEq, Repr

/-- A statement of `_migrate` that writes. -/
inductive SqlStatement where
  | create (statement : Create)
  /-- `INSERT INTO schema_migrations (version, name)`. -/
  | record (version : Int) (name : String)
  deriving DecidableEq, Repr

def schemaMigrations : String := "schema_migrations"

/-- The first statement of `_migrate`. -/
def createSchemaMigrations : Create := .table schemaMigrations ["version", "name", "applied_at"]

namespace SqliteFile

variable {ρ : Type} (db : SqliteFile ρ)

/-- A new file. -/
def empty : SqliteFile ρ := ⟨fun _ => none, fun _ => none⟩

def setTable (name : String) (t : Table ρ) : SqliteFile ρ :=
  { db with tables := Function.update db.tables name (some t) }

def setIndex (name : String) (i : Index) : SqliteFile ρ :=
  { db with indexes := Function.update db.indexes name (some i) }

/-- `SELECT version FROM schema_migrations`. -/
def versions : List Int :=
  match db.tables schemaMigrations with
  | none => []
  | some t => t.rows.filterMap fun
    | .applied version _ => some version
    | .data _ => none

/-- Create a table or an index, unless it exists. SQLite looks for the table of an index first. -/
def create : Create → Except SqliteError (SqliteFile ρ)
  | .table name columns =>
    if (db.tables name).isSome then .ok db
    else if (db.indexes name).isSome then .error (.thereIsAlreadyAnIndexNamed name)
    else .ok (db.setTable name { columns := columns })
  | .index name table columns =>
    match db.tables table with
    | none => .error (.noSuchTable table)
    | some t =>
      if (db.tables name).isSome then .error (.thereIsAlreadyATableNamed name)
      else if (db.indexes name).isSome then .ok db
      else if ¬ ∀ c ∈ columns, c ∈ t.columns then .error (.noSuchColumn table)
      else .ok (db.setIndex name { table := table, columns := columns })

/-- Insert a row into `schema_migrations`, whose primary key is the version. -/
def record (version : Int) (name : String) : Except SqliteError (SqliteFile ρ) :=
  match db.tables schemaMigrations with
  | none => .error (.noSuchTable schemaMigrations)
  | some t =>
    if version ∈ db.versions then .error .uniqueConstraintFailed
    else .ok (db.setTable schemaMigrations { t with rows := t.rows ++ [.applied version name] })

def execute : SqlStatement → Except SqliteError (SqliteFile ρ)
  | .create statement => db.create statement
  | .record version name => db.record version name

/-- Statement after statement, up to the first error. -/
def executeAll : List SqlStatement → SqliteFile ρ → SqliteFile ρ × Option SqliteError
  | [], db => (db, none)
  | s :: statements, db =>
    match db.execute s with
    | .ok db => executeAll statements db
    | .error e => (db, some e)

end SqliteFile

/-- The statements of a migration: its script, and the row that records it. -/
def Migration.statements (m : Migration) : List SqlStatement :=
  m.sql.map .create ++ [.record m.version m.name]

/-- The statements of the loop. `applied` was read before it. -/
def pending (ms : List Migration) (applied : List Int) : List SqlStatement :=
  ms.flatMap fun m => if m.version ∈ applied then [] else m.statements

namespace SqliteFile

variable {ρ : Type} (db : SqliteFile ρ)

/-- `_migrate` over a list of migrations. -/
def migrate (ms : List Migration) : SqliteFile ρ × Option SqliteError :=
  match db.create createSchemaMigrations with
  | .error e => (db, some e)
  | .ok db => executeAll (pending ms db.versions) db

/-- `_migrate`, cut short after so many of its statements. -/
def migrateUpTo (ms : List Migration) : Nat → SqliteFile ρ × Option SqliteError
  | 0 => (db, none)
  | limit + 1 =>
    match db.create createSchemaMigrations with
    | .error e => (db, some e)
    | .ok db => executeAll ((pending ms db.versions).take limit) db

/-- The application replaces the rows of one of its tables. -/
def write (table : String) (rows : List ρ) : SqliteFile ρ :=
  match db.tables table with
  | none => db
  | some t =>
    if table = schemaMigrations then db
    else db.setTable table { t with rows := rows.map .data }

/-- What happens to the file over the boots of the device. -/
inductive FileEvent (ρ : Type) where
  /-- A run of `_migrate` that gets to at most so many statements. -/
  | migrates (limit : Nat)
  | writes (table : String) (rows : List ρ)

/-- The file after an event. -/
def after (ms : List Migration) (db : SqliteFile ρ) : FileEvent ρ → SqliteFile ρ
  | .migrates limit => (db.migrateUpTo ms limit).1
  | .writes table rows => db.write table rows

/-- The object of a `CREATE` statement exists. -/
def Present (db : SqliteFile ρ) : Create → Prop
  | .table name _ => (db.tables name).isSome
  | .index name _ _ => (db.indexes name).isSome

end SqliteFile

/-- `MIGRATIONS`. -/
def migrations : List Migration :=
  [ { version := 1
      name := "initial_schema"
      sql := [.table "runtime_state" ["id", "name", "state", "updated_at"]] },
    { version := 2
      name := "circuit_breaker_state"
      sql := [.table "circuit_breaker_state"
        ["name", "state", "failure_count", "opened_at", "updated_at"]] },
    { version := 3
      name := "intents"
      sql := [.table "intents" ["id", "operation", "payload", "status", "attempts", "last_error",
          "created_at", "updated_at"],
        .index "idx_intents_status" "intents" ["status"]] },
    { version := 4
      name := "events"
      sql := [.table "events" ["id", "type", "component", "severity", "timestamp", "metadata"],
        .index "idx_events_timestamp" "events" ["timestamp"],
        .index "idx_events_component" "events" ["component"]] } ]

end EdgeSentinel.Persistence
