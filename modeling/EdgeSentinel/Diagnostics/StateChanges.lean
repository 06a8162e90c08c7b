import EdgeSentinel.Diagnostics.Incidents
import EdgeSentinel.Library.Run

/-!
# `EdgeSentinel.Diagnostics.StateChanges`: concurrent calls of `set_state`

`StateChanges` is a state machine with any number of `set_state` calls going on, on a bus to
which an incident tracker is attached. The state moves, and the call comes to its first
suspension, in one step: the lock of the machine is never held across a suspension. Then the
call awaits its handlers one after the other, each for any time. When the last one returns,
the call publishes its event in the same step, and awaits the delivery.

`_set_state` with one call at a time is `LifecycleManager.setState` of `Core.Lifecycle`.
-/

set_option autoImplicit false

namespace EdgeSentinel.Diagnostics

open EdgeSentinel.Core

/-- A call of `set_state` that has moved the machine. It awaits the handler at a position. -/
structure Change where
  id : Nat
  component : String
  previous : RuntimeState
  target : RuntimeState
  handler : Nat
  deriving DecidableEq, Repr

/-- A machine with its calls. -/
structure StateChanges (τ : Type) where
  current : RuntimeState
  /-- The calls whose event is not published, in the order of their moves. -/
  pending : List Change := []
  /-- The calls that await the delivery of their event. -/
  delivering : List Nat := []
  published : List (Event τ) := []
  tracker : IncidentTracker τ

/-- What happens next. -/
inductive ChangeStep (τ : Type) where
  /-- A subsystem calls `set_state`. -/
  | setState (id : Nat) (target : RuntimeState) (component : String) (now : τ)
  /-- The handler that a call awaits returns. -/
  | handled (id : Nat) (now : τ)
  /-- The event of a call is delivered, and the call returns. -/
  | delivered (id : Nat)

namespace StateChanges

variable {τ : Type}

/-- A new machine, with a new tracker on its bus. -/
def start (initial : RuntimeState) (maxHistory : Nat) (h : 1 ≤ maxHistory) : StateChanges τ :=
  { current := initial, tracker := { maxHistory := maxHistory, history_pos := h } }

/-- No call of `set_state` is going on. -/
def Quiet (w : StateChanges τ) : Prop := w.pending = [] ∧ w.delivering = []

/-- When a step can happen. -/
def Enabled (w : StateChanges τ) : ChangeStep τ → Prop
  | .setState id _ _ _ => id ∉ w.pending.map (·.id) ∧ id ∉ w.delivering
  | .handled id _ => id ∈ w.pending.map (·.id)
  | .delivered id => id ∈ w.delivering

instance (w : StateChanges τ) : ∀ e, Decidable (w.Enabled e)
  | .setState id _ _ _ =>
    inferInstanceAs (Decidable (id ∉ w.pending.map (·.id) ∧ id ∉ w.delivering))
  | .handled id _ => inferInstanceAs (Decidable (id ∈ w.pending.map (·.id)))
  | .delivered id => inferInstanceAs (Decidable (id ∈ w.delivering))

/-- The call publishes its event. The tracker hears of it. -/
def publish (w : StateChanges τ) (c : Change) (now : τ) : StateChanges τ :=
  let event := Event.stateChange c.component c.previous c.target now
  { w with
    pending := w.pending.filter (·.id ≠ c.id)
    delivering := c.id :: w.delivering
    published := w.published ++ [event]
    tracker := w.tracker.onEvent event }

/-- What a step does, with `handlers` registered state-change handlers. -/
def next (handlers : Nat) (w : StateChanges τ) : ChangeStep τ → StateChanges τ
  | .setState id target component now =>
    match StateMachine.transition w.current target with
    | .ok (previous, current) =>
      if previous = target then w
      else
        let c : Change := ⟨id, component, previous, target, 0⟩
        let moved := { w with current := current, pending := w.pending ++ [c] }
        if handlers = 0 then moved.publish c now else moved
    -- An illegal move raises out of the call.
    | .error _ => w
  | .handled id now =>
    match w.pending.find? (·.id = id) with
    | none => w
    | some c =>
      if c.handler + 1 < handlers then
        { w with
          pending := w.pending.map fun d =>
            if d.id = id then { d with handler := d.handler + 1 } else d }
      else w.publish c now
  | .delivered id => { w with delivering := w.delivering.filter (· ≠ id) }

/-- The step function. -/
def step (handlers : Nat) : StateChanges τ → ChangeStep τ → Option (StateChanges τ) :=
  Run.guarded Enabled (next handlers)

end StateChanges

end EdgeSentinel.Diagnostics
