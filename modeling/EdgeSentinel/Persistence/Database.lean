import EdgeSentinel.Core.Events
import EdgeSentinel.Library.Proc

/-!
# `EdgeSentinel.Persistence.Database`: the SQLite connection

`connect`, `close`, `execute` and `migrate` as the runtime calls them, one after the other. The
connection is in autocommit, or inside one open transaction with its uncommitted writes. `disk`
is what a crash leaves. The type `ω` is the type of writes.

Every statement runs as a job of `asyncio.to_thread`. `Await` says what becomes of one such
await: it waits for the job, or it is cancelled. A cancelled await does not stop a job that
has begun, so the job may still take effect; a job that has not begun is dropped. The await of a
job and the job are over together here. `Persistence.Transactions` has them apart, and has the
blocks of `transaction`.
-/

set_option autoImplicit false

namespace EdgeSentinel.Persistence

open Async EdgeSentinel.Core

/-- How SQLite ends a job. A failed job has no effect. -/
inductive Job where
  | ok
  | fails
  deriving DecidableEq, Repr

/-- What becomes of `await asyncio.to_thread(job)`. `cancelled none` drops the job. -/
inductive Await where
  | waits (job : Job)
  | cancelled (job : Option Job)
  deriving DecidableEq, Repr

/-- The job takes effect. -/
def Await.runs : Await → Bool
  | waits .ok => true
  | cancelled (some .ok) => true
  | _ => false

/-- The state of the `sqlite3.Connection`. -/
inductive Connection (ω : Type) where
  | autocommit
  | transaction (uncommitted : List ω)
  deriving DecidableEq, Repr

/-- `Database`: the open connection, if any, the lock, and the file. -/
structure Database (ω : Type) where
  conn : Option (Connection ω) := none
  locked : Bool := false
  disk : List ω := []
  deriving DecidableEq, Repr

variable {ω : Type}

/-- A procedure of the database. -/
abbrev DbProc (ω α : Type) : Type := Proc Exn (Database ω) α

/-- An exception of SQLite. -/
def sqliteError : Exn := .other 0

/-- `await asyncio.to_thread(job)`. -/
def Await.toThread (job : DbProc ω Unit) : Await → DbProc ω Unit
  | waits .ok => job
  | waits .fails => Proc.raise sqliteError
  | cancelled (some .ok) => ⟨fun db => (.cancelled, (job.run db).2)⟩
  | cancelled _ => Proc.exit .cancelled

/-! ### Jobs on the connection -/

/-- A statement. In autocommit its write is on disk at once. `none` is a query. -/
def statementJob (write : Option ω) : DbProc ω Unit := ⟨fun db =>
  match db.conn with
  | none => (.raised sqliteError, db)
  | some .autocommit => (.returned (), { db with disk := db.disk ++ write.toList })
  | some (.transaction uncommitted) =>
    (.returned (), { db with conn := some (.transaction (uncommitted ++ write.toList)) })⟩

namespace Database

/-- `async with self._lock`. The lock is released on every exit. -/
def withLock (body : DbProc ω Unit) : DbProc ω Unit := do
  Proc.modify fun db => { db with locked := true }
  Proc.tryFinally body (Proc.modify fun db => { db with locked := false })

/-- `_require_conn`. -/
def requireConn : DbProc ω Unit := ⟨fun db =>
  match db.conn with
  | none => (.raised .notConnected, db)
  | some _ => (.returned (), db)⟩

/-- `connect`. A connected database stays as it is. -/
def connect (a : Await) : DbProc ω Unit := do
  let db ← Proc.read
  if db.conn.isSome then
    return
  else
    match a with
    | .waits .ok => Proc.modify fun db => { db with conn := some .autocommit }
    -- The new connection is assigned only when the await returns.
    | .waits .fails => Proc.raise sqliteError
    | .cancelled _ => Proc.exit .cancelled

/-- `close`. The attribute is reset before the await. -/
def close (a : Await) : DbProc ω Unit := do
  let db ← Proc.read
  if db.conn.isSome then
    Proc.modify fun db => { db with conn := none }
    a.toThread (pure ())

/-- `execute` and the fetches: one standalone statement. -/
def execute (write : Option ω) (a : Await) : DbProc ω Unit := do
  requireConn
  withLock (a.toThread (statementJob write))

/-- `migrate`. The scripts are one job. -/
def migrate (a : Await) : DbProc ω Unit := do
  requireConn
  withLock (a.toThread (pure ()))

end Database

end EdgeSentinel.Persistence
