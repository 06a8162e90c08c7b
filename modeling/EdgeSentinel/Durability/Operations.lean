import EdgeSentinel.Durability.Journal
import EdgeSentinel.Library.Run

/-!
# `EdgeSentinel.Durability.Operations`: durable calls, replay, and crashes

`execute`, `wrapper` and the loop of `replay_pending` are `durability/operations.py`.

`System` is a process together with its database. Any number of durable calls execute at
the same time, and each event advances one of them by one operation. A crash drops all
executions and keeps the store. The next start reads the replay set, replays one intent
after the other, and accepts durable calls when it has gone through the set.

Here no report of an event raises: the handlers on the bus return awaitables
(`Audience.Awaitables`), and `str` returns for the exceptions of the functions. `Recovery.lean` has
the reports that raise.
-/

set_option autoImplicit false

namespace EdgeSentinel.Durability

open Coroutine EdgeSentinel.Core

variable {π ρ : Type}

/-- A decorated function, as far as the journal sees it. -/
structure Operation where
  maxAttempts : Option Nat
  maxAttempts_pos : ∀ m ∈ maxAttempts, 1 ≤ m

/-- The check of `build_durable_decorator`. -/
def Operation.build (maxAttempts : Option Nat) : Except String Operation :=
  if h : ∀ m ∈ maxAttempts, 1 ≤ m then .ok ⟨maxAttempts, h⟩
  else .error s!"max_attempts must be >= 1, got {maxAttempts.getD 0}"

/-- `max_attempts is not None and attempts >= max_attempts`. -/
def Operation.exhausted (op : Operation) (attempts : Nat) : Bool :=
  op.maxAttempts.any fun m => m ≤ attempts

/-- What the durable layer is built with: the codec, the name of the runtime, and the
registered operations. -/
structure Config (π : Type) where
  codec : JsonCodec π
  component : String
  registry : String → Option Operation

variable (cfg : Config π)

/-- One attempt of an intent. An exception of `publish`, or of `str(exc)`, ends it where it
stands. -/
def execute (operation : String) (op : Operation) (intent : Intent π) : Execution π ρ ρ := do
  let updated ← IntentJournal.markInProgress cfg.codec intent.id
  Op.ask (.publish intent.id "durable_operation_started" cfg.component .info
    [("operation", .str operation), ("intent_id", .str intent.id),
      ("attempt", .num updated.attempts)])
  Op.ask (.call intent.id intent.payload)
  let result : Except String ρ ← Op.ask (.outcome intent.id intent.payload)
  match result with
  | .error exc =>
    if op.exhausted updated.attempts then
      IntentJournal.markFailed cfg.codec intent.id exc
      Op.ask (.publish intent.id "durable_operation_exhausted" cfg.component .error
        [("operation", .str operation), ("intent_id", .str intent.id),
          ("attempt", .num updated.attempts), ("error", .str exc)])
      Prog.fail (.durableOperationExhausted operation intent.id updated.attempts)
    else
      IntentJournal.markPendingForRetry cfg.codec intent.id exc
      Op.ask (.publish intent.id "durable_operation_retry_pending" cfg.component .warning
        [("operation", .str operation), ("intent_id", .str intent.id),
          ("attempt", .num updated.attempts), ("error", .str exc)])
      Prog.fail (.function exc)
  | .ok value =>
    IntentJournal.markCompleted cfg.codec intent.id
    Op.ask (.publish intent.id "durable_operation_completed" cfg.component .info
      [("operation", .str operation), ("intent_id", .str intent.id)])
    return value

/-- A durable call. `started` is the answer of `is_started`, `id` the fresh UUID, and
`arguments` are the bound arguments. -/
def wrapper (operation : String) (op : Operation) (started : Bool) (id : IntentId)
    (arguments : π) : Execution π ρ ρ := do
  if started then
    let intent ← IntentJournal.record cfg.codec id operation arguments
    execute cfg operation op intent
  else
    Prog.fail (.runtimeNotStarted operation)

/-! ### The process and its database -/

/-- Where the process is. `replaying` is the loop of `replay_pending`: the intent it awaits
and the intents still to come. -/
inductive Mode (π : Type) where
  | down
  | replaying (current : Option IntentId) (queue : List (Intent π))
  | started

/-- A process and its database. -/
structure System (π ρ : Type) where
  store : Store π := {}
  executing : IntentId → Option (Execution π ρ ρ) := fun _ => none
  mode : Mode π := .down

/-- One step of the process or of its surroundings. -/
inductive Event (π ρ : Type) where
  /-- A durable function is called. -/
  | call (id : IntentId) (operation : String) (arguments : π)
  /-- The execution of an intent makes its next operation. -/
  | advance (id : IntentId) (x : Answer ρ)
  /-- The process dies. -/
  | crash
  /-- A process starts and reads the replay set. -/
  | start
  /-- `replay_pending` goes on with the next intent, at the given time. -/
  | replay (now : String)
  /-- `replay_pending` is done and the runtime is started. -/
  | ready

/-- The event is a crash. -/
def Event.isCrash : Event π ρ → Bool
  | .crash => true
  | _ => false

namespace Mode

/-- `is_started()`. -/
def isStarted : Mode π → Bool
  | started => true
  | _ => false

/-- The process runs. -/
def isUp : Mode π → Bool
  | down => false
  | _ => true

end Mode

namespace System

variable (s : System π ρ)

/-- The intent that the loop of `replay_pending` awaits is still executing. -/
def replayAwaits : Option IntentId → Bool
  | none => false
  | some id => (s.executing id).isSome

/-- The loop of `replay_pending` is about to take the next intent. -/
def replaysNext : Bool :=
  match s.mode with
  | .replaying current (_ :: _) => !s.replayAwaits current
  | _ => false

/-- The loop of `replay_pending` has come to its end. -/
def replayedAll : Bool :=
  match s.mode with
  | .replaying current [] => !s.replayAwaits current
  | _ => false

/-- Go on with an execution, or forget it when it has ended. -/
def put (id : IntentId) (p : Execution π ρ ρ) : System π ρ :=
  { s with executing :=
      Function.update s.executing id (if p.isFinished then none else some p) }

/-- When an event can happen. The id of a call is fresh. -/
def Enabled : Event π ρ → Prop
  | .call id operation _ => s.mode.isUp = true ∧ (cfg.registry operation).isSome ∧
      loadIntent s.store.intents id = none ∧ (s.executing id).isNone
  | .advance id _ => (s.executing id).isSome
  | .crash => s.mode.isUp = true
  | .start => s.mode.isUp = false
  | .replay _ => s.replaysNext = true
  | .ready => s.replayedAll = true

instance : DecidablePred (s.Enabled cfg)
  | .call .. => inferInstanceAs (Decidable (_ ∧ _))
  | .advance .. => inferInstanceAs (Decidable (_ = _))
  | .crash => inferInstanceAs (Decidable (_ = _))
  | .start => inferInstanceAs (Decidable (_ = _))
  | .replay _ => inferInstanceAs (Decidable (_ = _))
  | .ready => inferInstanceAs (Decidable (_ = _))

/-- The execution of `id` performs its next operation. -/
def advance (id : IntentId) (x : Answer ρ) : System π ρ :=
  match s.executing id with
  | some (.ask o k) =>
    { s with store := (s.store.perform o x).2 }.put id (k (s.store.perform o x).1)
  | _ => s

/-- One round of the loop of `replay_pending`. An intent of an operation that is not
registered is reported and left pending. The report does not raise. -/
def replay (intent : Intent π) (queue : List (Intent π)) (now : String) : System π ρ :=
  match cfg.registry intent.operation with
  | none =>
    { s with
      store := (s.store.perform (ρ := Unit) (.publish intent.id "durable_operation_unhandled"
        cfg.component .warning [("operation", .str intent.operation),
          ("intent_id", .str intent.id)]) ⟨now, .ok ()⟩).2
      mode := .replaying none queue }
  | some op =>
    { s with mode := .replaying (some intent.id) queue }.put intent.id
      (execute cfg intent.operation op intent)

/-- What an event does. -/
def next : Event π ρ → System π ρ
  | .call id operation arguments => match cfg.registry operation with
    | none => s
    | some op => s.put id (wrapper cfg operation op s.mode.isStarted id arguments)
  | .advance id x => s.advance id x
  | .crash => { s with executing := fun _ => none, mode := .down }
  | .start => { s with mode := .replaying none (IntentJournal.pending cfg.codec s.store.intents) }
  | .replay now => match s.mode with
    | .replaying _ (intent :: queue) => s.replay cfg intent queue now
    | _ => s
  | .ready => { s with mode := .started }

end System

/-- The step function of a process and its database. -/
def step : System π ρ → Event π ρ → Option (System π ρ) :=
  Run.guarded (fun s e => s.Enabled cfg e) (fun s e => s.next cfg e)

end EdgeSentinel.Durability
