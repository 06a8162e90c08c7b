import EdgeSentinel.Core.EventBus
import EdgeSentinel.Library.Keyed
import EdgeSentinel.Library.Run
import EdgeSentinel.Library.Slots

/-!
# `EdgeSentinel.Process.Watchdog`: checks of the watched targets

`Watchdog` is `process/watchdog.py`, with its calls of `check_once`. A check iterates over the
live dictionary of targets, one `turn` of the loop at a time. It is suspended while it
publishes an event and while it awaits `set_state`; the other calls run there. While a check
iterates, nothing else runs.

An exception of `publish` ends the check, and what `set_state` raises is logged. A check is not
cancelled here.
-/

set_option autoImplicit false

namespace EdgeSentinel.Process

open EdgeSentinel.Core
open Slots (Cursor)

/-- A `_Watch`, with its key in the dictionary. -/
structure Watch where
  name : String
  timeout : ℚ
  lastSeen : ℚ
  stale : Bool := false
  deriving DecidableEq, Repr

/-- `is_stale` at the clock reading `now`. -/
def Watch.isOverdue (x : Watch) (now : ℚ) : Bool := x.timeout < now - x.lastSeen

/-- The parameters of a watchdog. -/
structure WatchdogSettings where
  /-- Whether `events` was given. -/
  hasEvents : Bool
  component : String := "process"
  /-- Whether `set_state` and `get_state` were given. -/
  hasSetState : Bool
  deriving DecidableEq, Repr

/-- Where a check stands. -/
inductive CheckPoint where
  /-- It runs, and its next turn of the loop comes. -/
  | iterating
  /-- An event is being published. -/
  | publishing
  /-- `set_state(FAILED)` is awaited. -/
  | escalating
  | returned
  /-- The iteration over the dictionary has raised a `RuntimeError`, or a publication has raised. -/
  | failed
  deriving DecidableEq, Repr

/-- A call of `check_once`. -/
structure Check where
  id : Nat
  /-- The clock reading. -/
  now : ℚ
  cursor : Cursor
  newlyStale : List String := []
  point : CheckPoint := .iterating
  /-- Bookkeeping: the targets that were overdue with a clear flag when the check began, and
  have been registered since. -/
  due : List String
  /-- Bookkeeping: the state of the runtime when the check left the loop. -/
  leftAt : Option RuntimeState := none
  /-- The check has called `set_state(FAILED)`. -/
  attempted : Bool := false
  deriving DecidableEq, Repr

/-- A watchdog and the runtime it is wired to. -/
structure Watchdog (τ : Type) where
  current : RuntimeState
  watches : List (Option Watch) := []
  checks : List Check := []
  published : List (Event τ) := []

/-- What happens next around a watchdog. -/
inductive WatchdogStep (τ : Type) where
  /-- `register` at the clock reading `now`. -/
  | register (name : String) (timeout now : ℚ) (compacts : Bool)
  | unregister (name : String)
  | heartbeat (name : String) (now : ℚ)
  /-- `check_once` is called. -/
  | check (id : Nat) (now : ℚ)
  /-- A turn of the loop of a check, with what its publication meets. -/
  | turn (id : Nat) (stamp : τ) (audience : Audience String := {})
  /-- What a check awaits is over. -/
  | resume (id : Nat)
  /-- Another part of the runtime moves the state. -/
  | moved (current : RuntimeState)

namespace Watchdog

variable {τ : Type}

/-- The names in the dictionary. -/
def names (w : Watchdog τ) : List String := (Slots.live w.watches).map (·.name)

/-- The record of one target is changed in place. -/
def adjust (w : Watchdog τ) (name : String) (f : Watch → Watch) : Watchdog τ :=
  { w with watches := Slots.adjust (fun x => if x.name = name then f x else x) w.watches }

/-- `register`. A `timeout` that is not positive raises a `ValueError`. -/
def register (w : Watchdog τ) (name : String) (timeout now : ℚ) (compacts : Bool) :
    Watchdog τ :=
  let x : Watch := { name := name, timeout := timeout, lastSeen := now }
  if timeout ≤ 0 then w
  else if name ∈ w.names then w.adjust name fun _ => x
  else { w with watches := Slots.insert compacts x w.watches }

/-- `unregister`. -/
def unregister (w : Watchdog τ) (name : String) : Watchdog τ :=
  { w with
    watches := Slots.erase (·.name) name w.watches
    checks := w.checks.map fun c =>
      if c.leftAt.isNone then { c with due := c.due.filter (· ≠ name) } else c }

/-- `heartbeat`. An unknown name raises an `UnknownWatchTargetError`. -/
def heartbeat (w : Watchdog τ) (name : String) (now : ℚ) : Watchdog τ :=
  w.adjust name fun x => { x with lastSeen := now }

/-- The targets that a check at `now` has to report. -/
def due (w : Watchdog τ) (now : ℚ) : List String :=
  ((Slots.live w.watches).filter fun x => x.isOverdue now && !x.stale).map (·.name)

/-- `check_once`, up to the first turn of its loop. -/
def check (w : Watchdog τ) (id : Nat) (now : ℚ) : Watchdog τ :=
  let c : Check := { id := id, now := now, cursor := .new w.watches, due := w.due now }
  { w with checks := w.checks ++ [c] }

/-- The check `c` goes on. -/
def put (w : Watchdog τ) (c : Check) : Watchdog τ :=
  { w with checks := Keyed.replace (·.id) c.id c w.checks }

variable (cfg : WatchdogSettings)

/-- The `watchdog_target_stale` event. -/
def staleEvent (x : Watch) (stamp : τ) : Event τ where
  type := "watchdog_target_stale"
  component := cfg.component
  severity := .error
  timestamp := stamp
  metadata := [("name", .str x.name), ("timeout", .num x.timeout)]

/-- The `watchdog_target_recovered` event. -/
def recoveredEvent (x : Watch) (stamp : τ) : Event τ where
  type := "watchdog_target_recovered"
  component := cfg.component
  timestamp := stamp
  metadata := [("name", .str x.name)]

/-- The check `c` ends with an exception. -/
def fail (w : Watchdog τ) (c : Check) : Watchdog τ :=
  w.put { c with point := .failed, leftAt := some w.current }

/-- The check `c` publishes an event, when the watchdog has a bus. -/
def publish (w : Watchdog τ) (c : Check) (e : Event τ) (audience : Audience String) : Watchdog τ :=
  if cfg.hasEvents then
    match audience.raised e with
    | some _ => w.fail c
    | none => { w.put { c with point := .publishing } with published := w.published ++ [e] }
  else w.put c

/-- The body of the loop. `c` is past the target `x`. -/
def visit (w : Watchdog τ) (c : Check) (x : Watch) (stamp : τ) (audience : Audience String) :
    Watchdog τ :=
  if x.isOverdue c.now && !x.stale then
    publish cfg (w.adjust x.name fun y => { y with stale := true })
      { c with newlyStale := c.newlyStale ++ [x.name] } (staleEvent cfg x stamp) audience
  else if !x.isOverdue c.now && x.stale then
    publish cfg (w.adjust x.name fun y => { y with stale := false }) c
      (recoveredEvent cfg x stamp) audience
  else w.put c

/-- The end of the loop, and `_escalate`. -/
def leaveLoop (w : Watchdog τ) (c : Check) : Watchdog τ :=
  let c := { c with leftAt := some w.current }
  if c.newlyStale ≠ [] ∧ cfg.hasSetState ∧ w.current ∉ RuntimeState.unsafeToEscalate then
    { w.put { c with point := .escalating, attempted := true } with
      current := StateMachine.ask w.current .failed }
  else w.put { c with point := .returned }

/-- A turn of the loop. The iterator raises when the dictionary has changed. -/
def turn (w : Watchdog τ) (c : Check) (stamp : τ) (audience : Audience String) : Watchdog τ :=
  match c.cursor.find w.watches with
  | .changed => w.fail c
  | .exhausted => leaveLoop cfg w c
  | .gap => w.put { c with cursor := c.cursor.skip }
  | .record x => visit cfg w { c with cursor := c.cursor.yielded } x stamp audience

/-- The await of a check is over. -/
def resume (w : Watchdog τ) (c : Check) : Watchdog τ :=
  if c.point = .publishing then w.put { c with point := .iterating }
  else w.put { c with point := .returned }

/-- No check iterates. -/
def Idle (w : Watchdog τ) : Prop := ∀ c ∈ w.checks, c.point ≠ .iterating

instance (w : Watchdog τ) : Decidable w.Idle :=
  inferInstanceAs (Decidable (∀ c ∈ w.checks, c.point ≠ .iterating))

/-- When a step can happen. -/
def Enabled (w : Watchdog τ) : WatchdogStep τ → Prop
  | .register _ _ _ _ | .unregister _ | .heartbeat _ _ | .moved _ => w.Idle
  | .check id _ => w.Idle ∧ id ∉ w.checks.map (·.id)
  | .turn id _ _ => ∃ c ∈ w.checks, c.id = id ∧ c.point = .iterating
  | .resume id => w.Idle ∧ ∃ c ∈ w.checks, c.id = id ∧ c.point ∈ [.publishing, .escalating]

instance (w : Watchdog τ) : ∀ e, Decidable (w.Enabled e)
  | .register _ _ _ _ | .unregister _ | .heartbeat _ _ | .moved _ =>
    inferInstanceAs (Decidable w.Idle)
  | .check id _ => inferInstanceAs (Decidable (w.Idle ∧ id ∉ w.checks.map (·.id)))
  | .turn id _ _ =>
    inferInstanceAs (Decidable (∃ c ∈ w.checks, c.id = id ∧ c.point = .iterating))
  | .resume id => inferInstanceAs (Decidable
      (w.Idle ∧ ∃ c ∈ w.checks, c.id = id ∧ c.point ∈ [.publishing, .escalating]))

/-- What a step does. -/
def next (w : Watchdog τ) : WatchdogStep τ → Watchdog τ
  | .register name timeout now compacts => w.register name timeout now compacts
  | .unregister name => w.unregister name
  | .heartbeat name now => w.heartbeat name now
  | .check id now => w.check id now
  | .turn id stamp audience =>
    (w.checks.find? (·.id = id)).elim w fun c => turn cfg w c stamp audience
  | .resume id => (w.checks.find? (·.id = id)).elim w w.resume
  | .moved current => { w with current := current }

/-- The step function. -/
def step : Watchdog τ → WatchdogStep τ → Option (Watchdog τ) :=
  Run.guarded Enabled (next cfg)

/-- A watchdog without targets. -/
def new (current : RuntimeState) : Watchdog τ := { current := current }

end Watchdog

end EdgeSentinel.Process
