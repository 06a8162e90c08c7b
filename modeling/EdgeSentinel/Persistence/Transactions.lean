import EdgeSentinel.Persistence.Database

/-!
# `EdgeSentinel.Persistence.Transactions`: the lock and the threads

`Database.transaction` and the standalone statements, await by await. A statement is a job of
`asyncio.to_thread`, and the task that holds the lock awaits it. A cancelled await gives the
lock back at once. Its job stays under way, and may find the lock in other hands when it takes
effect. A job that the executor drops is one that never does.

The body of a block is any coroutine: it hands statements to threads (`DbEvent.statement`), awaits
them or not, and ends at any time in one of the three ways (`DbEvent.leave`).

`Shared` is the state of the connection, the file, the lock and the threads. Its last fields
record what has happened: the writes that took effect, the blocks that are over, and the
standalone statements that have returned. A write carries the number of its call.
-/

set_option autoImplicit false

namespace EdgeSentinel.Persistence

open Async EdgeSentinel.Core

variable {ω : Type}

/-- What a thread is asked to do. The rows are the writes of `execute` or `executemany`; a fetch
has none. -/
inductive Request (ω : Type) where
  /-- A standalone statement. -/
  | execute (rows : List ω)
  | begin_
  /-- A statement of a block. -/
  | statement (rows : List ω)
  | rollback
  | commit
  deriving DecidableEq, Repr

/-- How SQLite ends a request. A failed `executemany` keeps the rows before the failing one. -/
inductive Result where
  | done
  | fails (kept : Nat)
  /-- The request fails and ends the open transaction with it: an OR ROLLBACK, a full disk. -/
  | aborts (kept : Nat)
  deriving DecidableEq, Repr

/-- Writes with the number of their call. -/
def stamp (i : Nat) (rows : List ω) : List (Nat × ω) := rows.map (i, ·)

/-- The rows of a request. -/
def Request.rows : Request ω → List ω
  | execute rows | statement rows => rows
  | begin_ | rollback | commit => []

/-- The rows that take effect. -/
def Result.keeps (rows : List ω) : Result → List ω
  | done => rows
  | fails kept | aborts kept => rows.take kept

/-- The writes of a request of call `i` that take effect. -/
def Request.landed (i : Nat) (request : Request ω) (result : Result) : List (Nat × ω) :=
  stamp i (result.keeps request.rows)

/-- The `sqlite3.Connection`, `none` when it is closed, and the file. -/
structure Sqlite (ω : Type) where
  conn : Option (Connection (Nat × ω)) := none
  disk : List (Nat × ω) := []
  deriving DecidableEq, Repr

namespace Sqlite

/-- `conn.in_transaction`. -/
def inTransaction (q : Sqlite ω) : Bool :=
  match q.conn with
  | some (.transaction _) => true
  | _ => false

/-- Writes join the open transaction. In autocommit they are in the file at once. -/
def write (q : Sqlite ω) (writes : List (Nat × ω)) : Sqlite ω :=
  match q.conn with
  | some (.transaction uncommitted) =>
    { q with conn := some (.transaction (uncommitted ++ writes)) }
  | _ => { q with disk := q.disk ++ writes }

/-- The open transaction ends without its writes. -/
def abort (q : Sqlite ω) : Sqlite ω :=
  match q.conn with
  | some (.transaction _) => { q with conn := some .autocommit }
  | _ => q

/-- The open transaction ends with its writes. -/
def commit (q : Sqlite ω) : Sqlite ω :=
  match q.conn with
  | some (.transaction uncommitted) => ⟨some .autocommit, q.disk ++ uncommitted⟩
  | _ => q

/-- `conn.close`. An open transaction is lost, as it is when the process dies. -/
def close (q : Sqlite ω) : Sqlite ω := { q with conn := none }

/-- The request of call `i` ends with this result. It is `none` where it cannot end so. -/
def finish (q : Sqlite ω) (i : Nat) (request : Request ω) (result : Result) :
    Option (Sqlite ω) :=
  -- A closed connection raises.
  if q.conn = none ∧ result ≠ .fails 0 then none
  else match result, request with
    | .done, .execute _ | .done, .statement _ => some (q.write (request.landed i result))
    -- SQLite has no transaction inside a transaction.
    | .done, .begin_ =>
      if q.inTransaction then none else some { q with conn := some (.transaction []) }
    | .done, .rollback => some q.abort
    | .done, .commit => some q.commit
    | .fails _, _ => some (q.write (request.landed i result))
    | .aborts _, _ => some (q.write (request.landed i result)).abort

end Sqlite

/-- Where the task stands that holds the lock. `result` says whether the job that it awaits has
succeeded; it is `none` while the job is under way. -/
inductive Stage (ω : Type) where
  | execute (rows : List ω) (result : Option Bool)
  | begin_ (result : Option Bool)
  | body
  | rollback (result : Option Bool)
  | commit (result : Option Bool)
  deriving DecidableEq, Repr

namespace Stage

/-- The task is in `Database.transaction`. -/
def isBlock : Stage ω → Bool
  | execute _ _ => false
  | _ => true

/-- The request under way that the task awaits. -/
def awaits : Stage ω → Option (Request ω)
  | execute rows none => some (.execute rows)
  | begin_ none => some .begin_
  | rollback none => some .rollback
  | commit none => some .commit
  | _ => none

/-- The awaited job is over. -/
def told (ok : Bool) : Stage ω → Stage ω
  | execute rows _ => execute rows (some ok)
  | begin_ _ => begin_ (some ok)
  | body => body
  | rollback _ => rollback (some ok)
  | commit _ => commit (some ok)

end Stage

/-- The connection and the file, the call that holds the lock, and the jobs in threads other
than the one that it awaits. `next` is the number of the next call. -/
structure Shared (ω : Type) where
  sqlite : Sqlite ω := {}
  holder : Option (Nat × Stage ω) := none
  jobs : List (Nat × Request ω) := []
  next : Nat := 0
  /-- The writes that took effect. -/
  log : List (Nat × ω) := []
  /-- The blocks that are over, and whether they ended normally. -/
  ended : List (Nat × Bool) := []
  /-- The standalone statements that have returned, with their rows. -/
  returned : List (Nat × List ω) := []
  deriving DecidableEq, Repr

/-- What can happen next. -/
inductive DbEvent (ω : Type) where
  | connect
  /-- A standalone statement takes the lock. -/
  | execute (rows : List ω)
  /-- A block takes the lock. -/
  | transaction
  /-- The job is over that the holder awaits. -/
  | finish (result : Result)
  /-- The holder goes on after its await. -/
  | resume
  /-- The holder's await is cancelled, whether its job is over or not. -/
  | cancel
  /-- The body of the block hands a statement to a thread. -/
  | statement (rows : List ω)
  /-- The body of the block ends. -/
  | leave (ending : Outcome Exn Unit)
  /-- The `k`-th of the other jobs is over. -/
  | job (k : Nat) (result : Result)
  | close
  /-- The process dies. -/
  | crash
  deriving DecidableEq, Repr

namespace Shared

/-- `async with self._lock`, on a connected database. On a closed connection the call would raise
and leave no trace. -/
def acquire (s : Shared ω) (stage : Stage ω) : Option (Shared ω) :=
  if s.sqlite.conn ≠ none ∧ s.holder = none then
    some { s with holder := some (s.next, stage), next := s.next + 1 }
  else
    none

/-- The lock is given back. A block is over. -/
def release (s : Shared ω) (i : Nat) (stage : Stage ω) (normal : Bool) : Shared ω :=
  { s with holder := none, ended := s.ended ++ if stage.isBlock then [(i, normal)] else [] }

/-- SQLite ends a request of call `i`. -/
def settle (s : Shared ω) (i : Nat) (request : Request ω) (result : Result) :
    Option (Shared ω) :=
  (s.sqlite.finish i request result).map fun q =>
    { s with sqlite := q, log := s.log ++ request.landed i result }

/-- The holder goes on after its await. -/
def proceed (s : Shared ω) (i : Nat) : Stage ω → Option (Shared ω)
  | .execute rows (some true) =>
    some { s.release i (.execute rows (some true)) true with
      returned := s.returned ++ [(i, rows)] }
  | .execute rows (some false) => some (s.release i (.execute rows (some false)) false)
  | .begin_ (some true) => some { s with holder := some (i, .body) }
  -- BEGIN is not in the `try`.
  | .begin_ (some false) => some (s.release i (.begin_ (some false)) false)
  -- The exception of the body goes on, or the one of the ROLLBACK.
  | .rollback (some ok) => some (s.release i (.rollback (some ok)) false)
  | .commit (some ok) => some (s.release i (.commit (some ok)) ok)
  | _ => none

/-- The step function. -/
def step (s : Shared ω) : DbEvent ω → Option (Shared ω)
  | .connect =>
    -- The jobs of an earlier connection can only fail. A call that still has it keeps the lock
    -- from all others, so `connect` is taken after that call.
    if s.sqlite.conn = none ∧ s.holder = none then
      some { s with sqlite := { s.sqlite with conn := some .autocommit }, jobs := [] }
    else
      none
  | .execute rows => s.acquire (.execute rows none)
  | .transaction => s.acquire (.begin_ none)
  | .finish result =>
    s.holder.bind fun (i, stage) => stage.awaits.bind fun request =>
      (s.settle i request result).map fun s' =>
        { s' with holder := some (i, stage.told (result = .done)) }
  | .resume => s.holder.bind fun (i, stage) => s.proceed i stage
  | .cancel =>
    match s.holder with
    | some (_, .body) | none => none
    | some (i, stage) => some { s.release i stage false with
        jobs := s.jobs ++ stage.awaits.toList.map (i, ·) }
  | .statement rows =>
    match s.holder with
    | some (i, .body) => some { s with jobs := s.jobs ++ [(i, .statement rows)] }
    | _ => none
  | .leave ending =>
    match s.holder, ending with
    | some (i, .body), .returned _ => some { s with holder := some (i, .commit none) }
    | some (i, .body), .raised _ => some { s with holder := some (i, .rollback none) }
    -- `except Exception` does not catch a cancellation.
    | some (i, .body), .cancelled => some (s.release i .body false)
    | _, _ => none
  | .job k result =>
    s.jobs[k]?.bind fun (i, request) =>
      ({ s with jobs := s.jobs.eraseIdx k } : Shared ω).settle i request result
  | .close => some { s with sqlite := s.sqlite.close }
  | .crash => some { s with sqlite := s.sqlite.close, holder := none, jobs := [] }

end Shared

end EdgeSentinel.Persistence
