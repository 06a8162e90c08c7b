import EdgeSentinel.Core.EventBus
import EdgeSentinel.Library.Keyed
import EdgeSentinel.Library.Run
import EdgeSentinel.Resilience.Backoff

/-!
# `EdgeSentinel.Process.Supervisor`: the supervise loop

`Supervisor` is `process/supervisor.py`, with the tasks of its loops. `start` and `stop` have
no suspension before they have set `_task`, so each is one step. A loop goes from one of its
awaits to the next in one step, and the await is in `LoopPoint`.

`stop` requests the cancellation of the task, and the `CancelledError` is delivered when the
loop resumes next. Delivered to the supervised function, it is for the function to let it
through, to return, to raise another exception, or to go on. Everywhere else it ends the loop.

An exception of `publish`, or of the `str` of the exception that an event tells, ends the loop,
and `_task` keeps it. Moving the runtime to FAILED may be refused or may fail in a handler; both
are logged.
-/

set_option autoImplicit false

namespace EdgeSentinel.Process

open EdgeSentinel.Core
open EdgeSentinel.Resilience (Backoff BackoffError Draw)

/-- The parameters of a supervisor that its constructor accepts. -/
structure SupervisorSettings where
  name : String
  maxCrashes : Nat := 3
  window : ℚ := 60
  backoff : Backoff
  /-- Whether `events` was given. -/
  hasEvents : Bool
  component : String := "process"
  /-- Whether `set_state` and `get_state` were given. -/
  hasSetState : Bool
  crashes_pos : 1 ≤ maxCrashes
  window_pos : 0 < window

/-- How the supervised function ends. -/
inductive FuncEnd where
  | returned
  | raised (error : String)
  /-- It raises an exception whose `str` raises. -/
  | unprintable
  | cancelled
  deriving DecidableEq, Repr

/-- How the task of a loop ends. -/
inductive LoopEnd where
  | cancelled
  /-- The crash-loop threshold was reached. -/
  | gaveUp
  | died (error : BackoffError)
  /-- A publication has raised, or the `str` of an exception. -/
  | raised
  deriving DecidableEq, Repr

/-- The await at which a loop stands. -/
inductive LoopPoint where
  /-- The task has not run yet. -/
  | created
  /-- The supervised function is awaited. -/
  | running
  /-- `task_crashed` or `task_exited` is being published. -/
  | reporting
  /-- `task_crash_loop_detected` is being published. -/
  | detecting
  /-- The move to FAILED is awaited. -/
  | escalating
  /-- `task_restarting` is being published. -/
  | restarting
  | sleeping
  | ended (how : LoopEnd)
  deriving DecidableEq, Repr

/-- The cancellation of a task. -/
inductive Cancellation where
  | none
  | requested
  /-- The function has received the `CancelledError`. -/
  | delivered
  deriving DecidableEq, Repr

/-- The task of a loop. -/
structure Loop where
  id : Nat
  attempt : Nat := 0
  point : LoopPoint := .created
  cancellation : Cancellation := .none
  deriving DecidableEq, Repr

/-- The loop has not ended. -/
def Loop.isAlive (l : Loop) : Bool :=
  match l.point with
  | .ended _ => false
  | _ => true

/-- What a supervisor does, as far as its user sees it. -/
inductive Action where
  | started (id : Nat)
  | stopped (id : Nat)
  /-- The supervised function is invoked. -/
  | invoked (id : Nat)
  /-- The loop has decided to restart the function. -/
  | restarted (id : Nat)
  /-- The loop calls `set_state(FAILED)`. -/
  | escalated (id : Nat)
  deriving DecidableEq, Repr

/-- A supervisor and the runtime it is wired to. `task` is the attribute `_task`. -/
structure Supervisor (τ : Type) where
  current : RuntimeState
  failureTimes : List ℚ := []
  crashed : Bool := false
  task : Option Nat := none
  loops : List Loop := []
  published : List (Event τ) := []
  history : List Action := []

/-- What the surroundings answer to a loop that resumes: how the function ends, the reading of
`now`, the draw of the jitter, the time of an event, and what its publication meets. -/
structure LoopAnswer (τ : Type) where
  outcome : FuncEnd := .returned
  now : ℚ
  draw : Draw
  stamp : τ
  audience : Audience String := {}

namespace Supervisor

variable {τ : Type} (cfg : SupervisorSettings)

/-- The property `is_running`. -/
def isRunning (w : Supervisor τ) : Bool := w.task.isSome

/-- The loop `l` stands at another point, after the actions it has taken. -/
def goTo (w : Supervisor τ) (l : Loop) (point : LoopPoint) (actions : List Action := []) :
    Supervisor τ :=
  { w with
    loops := Keyed.replace (·.id) l.id { l with point := point } w.loops
    history := w.history ++ actions }

/-- The loop publishes an event, and stands at the await of `publish` unless that raises. -/
def publish (w : Supervisor τ) (l : Loop) (e : Event τ) (a : LoopAnswer τ) (point : LoopPoint)
    (actions : List Action := []) : Supervisor τ :=
  match a.audience.raised e with
  | some _ => w.goTo l (.ended .raised)
  | none => { w.goTo l point actions with published := w.published ++ [e] }

/-- The next round of the loop: `attempt` grows, and the function is invoked. -/
def invoke (w : Supervisor τ) (l : Loop) : Supervisor τ :=
  w.goTo { l with attempt := l.attempt + 1 } .running [.invoked l.id]

/-- The `task_crashed` or `task_exited` event. -/
def exitEvent (l : Loop) (error : Option String) (stamp : τ) : Event τ where
  type := if error.isSome then "task_crashed" else "task_exited"
  component := cfg.component
  severity := if error.isSome then .error else .warning
  timestamp := stamp
  metadata := [("task", .str cfg.name), ("attempt", .num l.attempt),
    ("error", error.elim .null .str)]

/-- The `task_crash_loop_detected` event. -/
def crashLoopEvent (crashes : Nat) (stamp : τ) : Event τ where
  type := "task_crash_loop_detected"
  component := cfg.component
  severity := .critical
  timestamp := stamp
  metadata := [("task", .str cfg.name), ("crashes", .num crashes), ("window", .num cfg.window)]

/-- The `task_restarting` event. -/
def restartEvent (l : Loop) (delay : ℚ) (stamp : τ) : Event τ where
  type := "task_restarting"
  component := cfg.component
  timestamp := stamp
  metadata := [("task", .str cfg.name), ("attempt", .num l.attempt), ("delay", .num delay)]

/-- The end of `_register_failure` at the threshold. -/
def giveUp (w : Supervisor τ) (l : Loop) (actions : List Action := []) : Supervisor τ :=
  { w.goTo l (.ended .gaveUp) actions with crashed := true, task := none }

/-- `_escalate`, and the end of `_register_failure` when it has nothing to await. -/
def escalate (w : Supervisor τ) (l : Loop) : Supervisor τ :=
  if !cfg.hasSetState then w.giveUp l
  else if w.current ∈ RuntimeState.unsafeToEscalate then w.giveUp l
  else
    let current := StateMachine.ask w.current .failed
    -- A move that is refused, or to the current state, awaits no handler.
    if current = w.current then w.giveUp l [.escalated l.id]
    else { w.goTo l .escalating [.escalated l.id] with current := current }

/-- The way from a failure below the threshold to the sleep. -/
def restart (w : Supervisor τ) (l : Loop) (a : LoopAnswer τ) : Supervisor τ :=
  match cfg.backoff.computeDelay l.attempt a.draw with
  | .error e => w.goTo l (.ended (.died e))
  | .ok delay =>
    if cfg.hasEvents then
      w.publish l (restartEvent cfg l delay a.stamp) a .restarting [.restarted l.id]
    else w.goTo l .sleeping [.restarted l.id]

/-- The failure times in the window, after a failure at `now`. -/
def failuresAt (w : Supervisor τ) (now : ℚ) : List ℚ :=
  (w.failureTimes ++ [now]).dropWhile fun t => cfg.window < now - t

/-- `_register_failure`, and what the loop does next when it returns False. -/
def registerFailure (w : Supervisor τ) (l : Loop) (a : LoopAnswer τ) : Supervisor τ :=
  let times := failuresAt cfg w a.now
  let w := { w with failureTimes := times }
  if times.length < cfg.maxCrashes then restart cfg w l a
  else if cfg.hasEvents then w.publish l (crashLoopEvent cfg times.length a.stamp) a .detecting
  else escalate cfg w l

/-- The function has returned (`error` is `none`) or raised an `Exception`. -/
def report (w : Supervisor τ) (l : Loop) (error : Option String) (a : LoopAnswer τ) :
    Supervisor τ :=
  if cfg.hasEvents then w.publish l (exitEvent cfg l error a.stamp) a .reporting
  else registerFailure cfg w l a

/-- The function that the loop awaits ends. -/
def exit (w : Supervisor τ) (l : Loop) (a : LoopAnswer τ) : Supervisor τ :=
  match a.outcome with
  | .cancelled => w.goTo l (.ended .cancelled)
  | .raised error => report cfg w l (some error) a
  | .unprintable =>
    -- Only the event asks for the text.
    if cfg.hasEvents then w.goTo l (.ended .raised) else registerFailure cfg w l a
  | .returned => report cfg w l none a

/-- `_run`, from the await at which the loop stands to the next one. -/
def proceed (w : Supervisor τ) (l : Loop) (a : LoopAnswer τ) : Supervisor τ :=
  match l.point with
  | .created => w.invoke l
  | .running => exit cfg w l a
  | .reporting => registerFailure cfg w l a
  | .detecting => escalate cfg w l
  | .escalating => w.giveUp l
  | .restarting => w.goTo l .sleeping
  | .sleeping => w.invoke l
  | .ended _ => w

/-- The `CancelledError` is delivered at the await at which the loop stands. -/
def deliver (w : Supervisor τ) (l : Loop) : Supervisor τ :=
  if l.point = .running then w.goTo { l with cancellation := .delivered } .running
  else w.goTo l (.ended .cancelled)

/-- The loop resumes. -/
def resume (w : Supervisor τ) (l : Loop) (a : LoopAnswer τ) : Supervisor τ :=
  if l.cancellation = .requested then w.deliver l else proceed cfg w l a

/-- `start`. The new task gets the number `id`. -/
def start (w : Supervisor τ) (id : Nat) : Supervisor τ :=
  if w.task.isSome then w
  else
    { w with
      crashed := false
      failureTimes := []
      task := some id
      loops := w.loops ++ [{ id := id }]
      history := w.history ++ [.started id] }

/-- `stop`, up to the await of the task. A task that has ended takes no cancellation. -/
def stop (w : Supervisor τ) : Supervisor τ :=
  match w.task with
  | none => w
  | some id =>
    { w with
      task := none
      loops := w.loops.map fun l =>
        if l.id = id ∧ l.isAlive then { l with cancellation := .requested } else l
      history := w.history ++ [.stopped id] }

end Supervisor

/-- What happens next around a supervisor. -/
inductive SupervisorStep (τ : Type) where
  | start (id : Nat)
  | stop
  /-- The loop with a number resumes. -/
  | resume (id : Nat) (a : LoopAnswer τ)
  /-- Another part of the runtime moves the state. -/
  | moved (current : RuntimeState)

namespace Supervisor

variable {τ : Type} (cfg : SupervisorSettings)

/-- A supervisor that was never started. -/
def new (current : RuntimeState) : Supervisor τ := { current := current }

/-- When a step can happen. -/
def Enabled (w : Supervisor τ) : SupervisorStep τ → Prop
  | .start id => id ∉ w.loops.map (·.id)
  | .resume id _ => ∃ l ∈ w.loops, l.id = id ∧ l.isAlive
  | .stop | .moved _ => True

instance (w : Supervisor τ) : ∀ e, Decidable (w.Enabled e)
  | .start id => inferInstanceAs (Decidable (id ∉ w.loops.map (·.id)))
  | .resume id _ => inferInstanceAs (Decidable (∃ l ∈ w.loops, l.id = id ∧ l.isAlive))
  | .stop => isTrue trivial
  | .moved _ => isTrue trivial

/-- What a step does. -/
def next (w : Supervisor τ) : SupervisorStep τ → Supervisor τ
  | .start id => w.start id
  | .stop => w.stop
  | .resume id a =>
    match w.loops.find? (·.id = id) with
    | none => w
    | some l => resume cfg w l a
  | .moved current => { w with current := current }

/-- The step function. -/
def step : Supervisor τ → SupervisorStep τ → Option (Supervisor τ) :=
  Run.guarded Enabled (next cfg)

end Supervisor

end EdgeSentinel.Process
