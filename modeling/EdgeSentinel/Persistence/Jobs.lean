import EdgeSentinel.Library.Keyed
import EdgeSentinel.Library.Run

/-!
# `EdgeSentinel.Persistence.Jobs`: the jobs on the connection

The operations of `Database` in `persistence/database.py`, called concurrently. Each
`asyncio.to_thread` dispatches a job. The job starts at once and runs to its end in its thread,
also when the task that awaits it is cancelled.

An operation first captures the connection, then waits for the lock, and holds it from its
first job to its end. The lock is first come, first served. It is free as soon as the task has
left the `async with`, also by a `CancelledError`.

A statement of a transaction block talks to the connection without taking the lock. It is an
operation of its own here, because a block may run several statements as tasks. `close` takes
the connection and dispatches its job without the lock. A database has one connection here:
`connect` was called before.
-/

set_option autoImplicit false

namespace EdgeSentinel.Persistence

/-- The operations of a database. -/
inductive Operation where
  | execute
  | executemany
  | fetchone
  | fetchall
  | migrate
  | pruneCompletedIntents
  | pruneEventsOlderThan
  | transaction
  /-- A method of `Transaction`. -/
  | statement
  | close
  deriving DecidableEq, Repr

/-- The operations that begin with `_require_conn` and `async with self._lock`. -/
def Operation.takesLock : Operation → Bool
  | statement | close => false
  | _ => true

/-- What a job does on the connection. -/
inductive JobKind where
  /-- The one job of an operation. -/
  | whole
  | begin
  | commit
  | rollback
  | close
  deriving DecidableEq, Repr

/-- A dispatched job. -/
structure ThreadJob where
  serial : Nat
  kind : JobKind
  deriving DecidableEq, Repr

/-- Where the task of an operation stands. -/
inductive OpPoint where
  /-- It has captured the connection and waits for the lock. -/
  | waiting
  | awaiting (job : ThreadJob)
  /-- It is inside the transaction block. -/
  | block
  deriving DecidableEq, Repr

/-- The job that is awaited. -/
def OpPoint.job : OpPoint → Option ThreadJob
  | awaiting job => some job
  | waiting | block => none

/-- An operation in progress. -/
structure Op where
  id : Nat
  operation : Operation
  point : OpPoint
  deriving DecidableEq, Repr

/-- A connected database with its operations and jobs. -/
structure Jobs where
  /-- `_conn` is not None. -/
  connected : Bool := true
  /-- The job of `close` has ended. -/
  closed : Bool := false
  /-- The operation that holds the lock. -/
  lock : Option Nat := none
  ops : List Op := []
  running : List ThreadJob := []
  /-- The number of jobs that were dispatched. -/
  dispatched : Nat := 0
  deriving DecidableEq, Repr

/-- What happens next. -/
inductive JobStep where
  /-- An operation is called. -/
  | call (id : Nat) (operation : Operation)
  /-- The first waiting operation gets the lock. -/
  | acquire
  /-- A block calls a statement. -/
  | statement (block id : Nat)
  /-- A block ends, normally or by an `Exception`. -/
  | leave (id : Nat) (raised : Bool)
  /-- A block ends by a `CancelledError`. -/
  | abandon (id : Nat)
  /-- A job ends in its thread. -/
  | jobEnds (serial : Nat)
  /-- A task resumes after its job, which has returned or raised. -/
  | resume (id : Nat) (raised : Bool)
  /-- A task is cancelled at its await. -/
  | cancel (id : Nat)
  | close (id : Nat)
  deriving DecidableEq, Repr

namespace Jobs

/-- The operation `o` dispatches a job and awaits it. -/
def dispatch (w : Jobs) (o : Op) (kind : JobKind) : Jobs :=
  let job : ThreadJob := ⟨w.dispatched, kind⟩
  { w with
    ops := Keyed.replace (·.id) o.id { o with point := .awaiting job } w.ops
    running := job :: w.running
    dispatched := w.dispatched + 1 }

/-- The task of an operation ends. If it holds the lock, it lets go of it. -/
def finish (w : Jobs) (o : Op) : Jobs :=
  { w with
    ops := w.ops.filter (·.id ≠ o.id)
    lock := if w.lock = some o.id then none else w.lock }

/-- The task is inside its block. -/
def enterBlock (w : Jobs) (o : Op) : Jobs :=
  { w with ops := Keyed.replace (·.id) o.id { o with point := .block } w.ops }

/-- The lock is taken, and the first job dispatched. -/
def acquire (w : Jobs) (o : Op) : Jobs :=
  dispatch { w with lock := some o.id } o
    (if o.operation = .transaction then .begin else .whole)

/-- The new operation is in progress. -/
def add (w : Jobs) (o : Op) : Jobs := { w with ops := w.ops ++ [o] }

/-- An operation, up to its first await. A free lock without waiters is taken at once. -/
def call (w : Jobs) (id : Nat) (operation : Operation) : Jobs :=
  let o : Op := ⟨id, operation, .waiting⟩
  -- `_require_conn` raises.
  if !w.connected then w
  else if w.lock = none ∧ ∀ x ∈ w.ops, x.point ≠ .waiting then (w.add o).acquire o
  else w.add o

/-- A new operation dispatches its job without the lock. -/
def launch (w : Jobs) (id : Nat) (operation : Operation) (kind : JobKind) : Jobs :=
  let job : ThreadJob := ⟨w.dispatched, kind⟩
  { w with
    ops := w.ops ++ [⟨id, operation, .awaiting job⟩]
    running := job :: w.running
    dispatched := w.dispatched + 1 }

/-- A method of `Transaction`, up to the await of its job. -/
def statement (w : Jobs) (id : Nat) : Jobs := w.launch id .statement .whole

/-- The await of a job is over. -/
def resume (w : Jobs) (o : Op) (job : ThreadJob) (raised : Bool) : Jobs :=
  if job.kind = .begin ∧ !raised then w.enterBlock o else w.finish o

/-- The await at which the task stands raises a `CancelledError`. -/
def cancel (w : Jobs) (o : Op) : Jobs :=
  -- Inside a block it is for the block to let it through.
  if o.point = .block then w else w.finish o

/-- `close`, up to the await of its job. -/
def close (w : Jobs) (id : Nat) : Jobs :=
  if w.connected then launch { w with connected := false } id .close .close else w

/-- A job ends. -/
def jobEnds (w : Jobs) (serial : Nat) : Jobs :=
  { w with
    closed := w.closed || w.running.any fun job => job.serial = serial && job.kind = .close
    running := w.running.filter (·.serial ≠ serial) }

/-- When a step can happen. -/
def Enabled (w : Jobs) : JobStep → Prop
  | .call id operation => id ∉ w.ops.map (·.id) ∧ operation.takesLock
  | .acquire => w.lock = none ∧ ∃ o ∈ w.ops, o.point = .waiting
  | .statement block id =>
    id ∉ w.ops.map (·.id) ∧ ∃ o ∈ w.ops, o.id = block ∧ o.point = .block
  | .leave id _ | .abandon id => ∃ o ∈ w.ops, o.id = id ∧ o.point = .block
  | .jobEnds serial => ∃ job ∈ w.running, job.serial = serial
  | .resume id _ => ∃ o ∈ w.ops, o.id = id ∧ ∃ job ∈ o.point.job, job ∉ w.running
  | .cancel id => ∃ o ∈ w.ops, o.id = id
  | .close id => id ∉ w.ops.map (·.id)

instance (w : Jobs) : ∀ e, Decidable (w.Enabled e)
  | .call id operation =>
    inferInstanceAs (Decidable (id ∉ w.ops.map (·.id) ∧ operation.takesLock))
  | .acquire => inferInstanceAs (Decidable (w.lock = none ∧ ∃ o ∈ w.ops, o.point = .waiting))
  | .statement block id => inferInstanceAs (Decidable
      (id ∉ w.ops.map (·.id) ∧ ∃ o ∈ w.ops, o.id = block ∧ o.point = .block))
  | .leave id _ | .abandon id =>
    inferInstanceAs (Decidable (∃ o ∈ w.ops, o.id = id ∧ o.point = .block))
  | .jobEnds serial => inferInstanceAs (Decidable (∃ job ∈ w.running, job.serial = serial))
  | .resume id _ => inferInstanceAs (Decidable
      (∃ o ∈ w.ops, o.id = id ∧ ∃ job ∈ o.point.job, job ∉ w.running))
  | .cancel id => inferInstanceAs (Decidable (∃ o ∈ w.ops, o.id = id))
  | .close id => inferInstanceAs (Decidable (id ∉ w.ops.map (·.id)))

/-- What the operation with a number does. -/
def withOp (w : Jobs) (id : Nat) (act : Op → Jobs) : Jobs :=
  (w.ops.find? (·.id = id)).elim w act

/-- What a step does. -/
def next (w : Jobs) : JobStep → Jobs
  | .call id operation => w.call id operation
  | .acquire => (w.ops.find? (·.point = .waiting)).elim w w.acquire
  | .statement _ id => w.statement id
  | .leave id raised =>
    w.withOp id fun o => w.dispatch o (if raised then .rollback else .commit)
  | .abandon id => w.withOp id w.finish
  | .jobEnds serial => w.jobEnds serial
  | .resume id raised =>
    w.withOp id fun o => o.point.job.elim w fun job => w.resume o job raised
  | .cancel id => w.withOp id w.cancel
  | .close id => w.close id

/-- The step function. -/
def step : Jobs → JobStep → Option Jobs :=
  Run.guarded Enabled next

end Jobs

end EdgeSentinel.Persistence
