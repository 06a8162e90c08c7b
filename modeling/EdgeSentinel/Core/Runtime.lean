import EdgeSentinel.Core.Lifecycle
import EdgeSentinel.Persistence.Database

/-!
# `EdgeSentinel.Core.Runtime`: `start` and `stop`

`start`, `stop`, `_on_init` and `_on_stop` are `core/runtime.py`, written over the lifecycle
manager and the database. The host holds what they touch: the database, whether the timeline
and the incident tracker are attached to the bus, the tasks of the registered subsystems,
and the two flags.

`Surroundings` is what a call meets: the registered subsystems and handlers, the points where it
is interrupted, by an exception or by a cancellation, and what the subsystems do to the shared
state while the call is going on. A `Script` interrupts the call at one point at most.
-/

set_option autoImplicit false

namespace EdgeSentinel.Core

open Async EdgeSentinel.Persistence

/-- A point of `start` or `stop` that can fail. -/
inductive Point where
  | mkdir
  | connect
  | migrate
  /-- The state-change handler at a position, on the change to the target. -/
  | handler (target : RuntimeState) (i : Nat)
  /-- The `state_change` event of the change to the target. -/
  | publish (target : RuntimeState)
  | replay
  /-- The start or the stop of the subsystem at a position. -/
  | start (i : Nat)
  | stop (i : Nat)
  | save
  | close
  deriving DecidableEq, Repr

/-- How a point fails. `job` is what becomes of the job when the point is a statement. -/
inductive Interruption where
  | raises (e : Exn)
  | cancelled (job : Option Job)
  deriving DecidableEq, Repr

def Interruption.outcome : Interruption → Outcome Exn Unit
  | raises e => .raised e
  | cancelled _ => .cancelled

/-- The interruption of a point on a bus whose handlers answer a call with an awaitable
(`Awaitables`). The bus logs what these raise, so its publish can only be cancelled. -/
def Interruption.onQuietBus : Point → Interruption → Option Interruption
  | .publish _, raises _ => none
  | _, how => some how

/-- A registered subsystem during one call of `start`. -/
structure Subsystem where
  /-- While it starts, its first check or the loop of an earlier subsystem escalates. -/
  escalates : Bool
  /-- Its task has ended by itself when the call is over. -/
  exits : Bool
  deriving DecidableEq, Repr

/-- A move of the shared state by a running subsystem. A monitor asks for the states that it
manages. -/
inductive Move where
  | escalate
  | network (target : { target // target ∈ RuntimeState.managedByNetwork })
  | pressure (target : { target // target ∈ RuntimeState.managedByPressure })
  deriving DecidableEq, Repr

def Move.act (current : RuntimeState) : Move → RuntimeState
  | escalate => StateMachine.escalate current
  | network target => StateMachine.applyToRuntime RuntimeState.managedByNetwork current target
  | pressure target => StateMachine.applyToRuntime RuntimeState.managedByPressure current target

/-- What one call of `start` or `stop` meets. -/
structure Surroundings where
  name : String
  recovery : Bool := true
  subsystems : List Subsystem := []
  handlers : Nat := 0
  /-- How a point fails, when it does. -/
  at? : Point → Option Interruption := fun _ => none
  /-- The moves of the subsystems after the state has become HEALTHY and before it is saved, or
  before the call is over when it is not saved. -/
  drift : List Move := []
  /-- The moves of the subsystems while the state is saved. -/
  inSave : List Move := []

/-- A call with one interruption at most, on a bus whose publish does not raise. -/
structure Script extends Surroundings where
  failure : Option (Point × Interruption) := none
  at? := fun p => failure.bind fun (q, how) => if q = p then how.onQuietBus q else none
  /-- No other point fails. -/
  at?_eq : at? = fun p =>
    failure.bind fun (q, how) => if q = p then how.onQuietBus q else none := by rfl

instance : Coe Script Surroundings := ⟨Script.toSurroundings⟩

/-- What `start` and `stop` work on. `running i` says that the subsystem at position `i` has
a task. -/
structure Host where
  database : Database (String × String)
  timelineAttached : Bool
  incidentsAttached : Bool
  running : Nat → Bool
  started : Bool
  stopped : Bool

variable {τ : Type}

/-- A procedure of the database. -/
def onDatabase (p : DbProc (String × String) Unit) : CoreProc τ Host Unit := ⟨fun w =>
  ((p.run w.host.database).1,
    { w with host := { w.host with database := (p.run w.host.database).2 } })⟩

namespace Surroundings

variable (s : Surroundings)

/-- The outcome of an await that does nothing else. -/
def outcomeAt (p : Point) : Outcome Exn Unit :=
  match s.at? p with
  | none => .returned ()
  | some how => how.outcome

/-- What becomes of the await of a statement. -/
def await (p : Point) : Await :=
  match s.at? p with
  | none => .waits .ok
  | some (.raises _) => .waits .fails
  | some (.cancelled job) => .cancelled job

/-- An await that does nothing else. -/
def meet (p : Point) : CoreProc τ Host Unit := Proc.exit (s.outcomeAt p)

/-- The state after the subsystems have moved it, once it is HEALTHY. Without a subsystem
nothing moves it. -/
def drifted : RuntimeState :=
  if s.subsystems.isEmpty then .healthy else s.drift.foldl Move.act .healthy

/-- What the subsystems do while a change is notified. They are running in HEALTHY only. -/
def background : CoreProc τ Host Unit :=
  Proc.modify fun w => if w.current = .healthy then { w with current := s.drifted } else w

/-- The state-change handler at a position. -/
def handler (i : Nat) (change : StateChangeEvent τ) : CoreProc τ Host Unit :=
  match s.at? (.handler change.current i) with
  | none => pure ()
  | some how => do
    s.background
    Proc.exit how.outcome

/-- `EventBus.publish`. What its handlers raise when they run is logged. It raises when a handler
does not answer its call with an awaitable. -/
def publish (_ : Event τ) : CoreProc τ Host Unit := do
  let w ← Proc.read
  s.background
  s.meet (.publish w.current)

/-- The handlers and the bus. The background acts at the await that ends a notification. -/
def manager : LifecycleManager τ Host where
  stateChangeHandlers := (List.range s.handlers).map s.handler
  publish := s.publish

/-- `subsystem.start()`. The task exists once the first check is done. -/
def startSubsystem (i : Nat) (subsystem : Subsystem) : CoreProc τ Host Unit := do
  let w ← Proc.read
  -- Safe to call more than once: a live task is kept.
  if w.host.running i then
    return
  else
    if subsystem.escalates then
      Proc.modify fun w => { w with current := StateMachine.escalate w.current }
    s.meet (.start i)
    modifyHost fun h => { h with running := fun j => if j = i then true else h.running j }

/-- `subsystem.stop()`. The task is forgotten and cancelled, and then awaited. -/
def stopSubsystem (i : Nat) : CoreProc τ Host Unit := do
  let w ← Proc.read
  if w.host.running i then
    modifyHost fun h => { h with running := fun j => if j = i then false else h.running j }
    -- A cancellation is suppressed together with that of the task.
    match s.at? (.stop i) with
    | some (.raises e) => Proc.raise e
    | _ => return

/-- `_on_init`: the replay, and then every subsystem in registration order. -/
def onInit : CoreProc τ Host Unit := do
  if s.recovery then
    s.meet .replay
  Proc.forEach s.subsystems.zipIdx fun entry => s.startSubsystem entry.2 entry.1

/-- `_on_stop`: every subsystem in reverse order. What it raises is logged. -/
def onStop : CoreProc τ Host Unit :=
  Proc.forEach (List.range s.subsystems.length).reverse fun i =>
    Proc.tryExcept (s.stopSubsystem i) fun _ => return

/-- Attach or detach the timeline and the incident tracker. -/
def setAttached (attached : Bool) : CoreProc τ Host Unit :=
  modifyHost fun h => { h with timelineAttached := attached, incidentsAttached := attached }

/-- What the subsystems do while the state is saved. -/
def meanwhile : CoreProc τ Host Unit :=
  Proc.modify fun w =>
    if s.subsystems.isEmpty then w else { w with current := s.inSave.foldl Move.act w.current }

/-- `save_runtime_state` with the current state. It is read before the await, in which the
subsystems may move it on. -/
def saveRuntimeState : CoreProc τ Host Unit := do
  let w ← Proc.read
  s.meanwhile
  onDatabase (Database.execute (some (s.name, w.current.value)) (s.await .save))

/-- `mkdir` on the data directory. It is no await, so it can only raise. -/
def mkdir : CoreProc τ Host Unit :=
  match s.at? .mkdir with
  | some (.raises e) => Proc.raise e
  | _ => return

/-- `start`. -/
def start : CoreProc τ Host Unit := do
  let w ← Proc.read
  if w.host.started && !w.host.stopped then
    Proc.raise (.runtimeAlreadyStarted s.name)
  else
    s.mkdir
    onDatabase (Database.connect (s.await .connect))
    Proc.tryExcept (do
      onDatabase (Database.migrate (s.await .migrate))
      setAttached true
      s.manager.boot s.onInit "runtime") fun e => do
        -- The subsystems that have been started are not stopped.
        setAttached false
        onDatabase (Database.close (s.await .close))
        Proc.raise e
    -- The save stands outside of the try block.
    s.saveRuntimeState
    modifyHost fun h => { h with started := true, stopped := false }

/-- `stop`. -/
def stop : CoreProc τ Host Unit := do
  let w ← Proc.read
  if !w.host.started then
    Proc.raise (.runtimeNotStarted s.name)
  else if w.host.stopped then
    return
  else
    s.manager.shutdown s.onStop "runtime"
    setAttached false
    s.saveRuntimeState
    onDatabase (Database.close (s.await .close))
    -- The flag is set last, when the machine has long been STOPPED.
    modifyHost fun h => { h with stopped := true }

end Surroundings

end EdgeSentinel.Core
