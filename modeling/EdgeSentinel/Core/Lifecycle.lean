import EdgeSentinel.Core.Events
import EdgeSentinel.Library.Proc

/-!
# `EdgeSentinel.Core.Lifecycle`: boot, shutdown and state changes in between

`LifecycleManager` is `core/lifecycle.py`. Its procedures work on a `World`: the current
state of the machine, a clock for the timestamps, and a `host` that stands for whatever
else the handlers, the event bus and the hooks of boot and shutdown work on.

A state-change handler, the bus and a hook are procedures over the same world. So a
handler may raise, may be cancelled, and may change the world while it is awaited.
-/

set_option autoImplicit false

namespace EdgeSentinel.Core

open Async

/-- What the procedures of the core work on. -/
structure World (τ ρ : Type) where
  current : RuntimeState
  clock : τ
  host : ρ

variable {τ ρ : Type}

/-- A procedure of the core. -/
abbrev CoreProc (τ ρ α : Type) : Type := Proc Exn (World τ ρ) α

/-- Update the host. -/
def modifyHost (f : ρ → ρ) : CoreProc τ ρ Unit :=
  Proc.modify fun w => { w with host := f w.host }

@[simp] theorem run_modifyHost (f : ρ → ρ) (w : World τ ρ) :
    (modifyHost f).run w = (.returned (), { w with host := f w.host }) := rfl

/-- `StateMachine.transition` on the world: returns the state moved from. -/
def transition (target : RuntimeState) : CoreProc τ ρ RuntimeState := ⟨fun w =>
  match StateMachine.transition w.current target with
  | .ok (previous, current) => (.returned previous, { w with current := current })
  | .error e => (.raised (.invalidStateTransition e), w)⟩

/-- The registered `on_state_change` handlers, and `EventBus.publish`. -/
structure LifecycleManager (τ ρ : Type) where
  stateChangeHandlers : List (StateChangeEvent τ → CoreProc τ ρ Unit)
  publish : Event τ → CoreProc τ ρ Unit

namespace LifecycleManager

variable (m : LifecycleManager τ ρ)

/-- What `_set_state` does after the machine moved: await every handler in registration
order, then publish the `state_change` event. -/
def notify (component : String) (previous target : RuntimeState) : CoreProc τ ρ Unit := do
  let w ← Proc.read
  Proc.forEach m.stateChangeHandlers fun handler => handler ⟨previous, target, w.clock⟩
  let w' ← Proc.read
  m.publish (.stateChange component previous target w'.clock)

/-- `_set_state`, and `set_state` for subsystems. -/
def setState (target : RuntimeState) (component : String) : CoreProc τ ρ Unit := do
  let previous ← transition target
  if previous = target then
    return
  m.notify component previous target

/-- `boot`: BOOTING, INITIALIZING, the hook, HEALTHY. When the hook raises, FAILED. -/
def boot (onInit : CoreProc τ ρ Unit) (component : String) : CoreProc τ ρ Unit := do
  m.setState .booting component
  m.setState .initializing component
  Proc.tryExcept onInit fun e => do
    m.setState .failed component
    Proc.raise e
  m.setState .healthy component

/-- `shutdown`: STOPPING, the hook, and STOPPED on every exit of the hook. -/
def shutdown (onStop : CoreProc τ ρ Unit) (component : String) : CoreProc τ ρ Unit := do
  m.setState .stopping component
  Proc.tryFinally onStop (m.setState .stopped component)

end LifecycleManager

/-- A legal target moves the world's machine. -/
theorem run_transition_of_mem {w : World τ ρ} {target : RuntimeState}
    (h : target ∈ w.current.transitions) :
    (transition target).run w = (.returned w.current, { w with current := target }) := by
  simp [transition, StateMachine.transition_of_mem h]

theorem run_transition_self (w : World τ ρ) :
    (transition w.current).run w = (.returned w.current, w) := by
  simp [transition, StateMachine.transition_self]

/-- Any other target raises and changes nothing. -/
theorem run_transition_of_not_mem {w : World τ ρ} {target : RuntimeState}
    (hne : target ≠ w.current) (h : target ∉ w.current.transitions) :
    (transition target).run w
      = (.raised (.invalidStateTransition ⟨w.current, target⟩), w) := by
  simp [transition, StateMachine.transition_of_not_mem hne h]

namespace LifecycleManager

variable (m : LifecycleManager τ ρ)

/-- `setState` to a legal target is `notify` after the move. -/
theorem run_setState_of_mem {w : World τ ρ} {target : RuntimeState} {component : String}
    (h : target ∈ w.current.transitions) :
    (m.setState target component).run w
      = (m.notify component w.current target).run { w with current := target } := by
  have hne : w.current ≠ target := by
    intro heq
    rw [← heq] at h
    exact RuntimeState.not_mem_transitions_self _ h
  rw [setState, Proc.run_bind_of_returned (run_transition_of_mem h), if_neg hne]

/-- `setState` to the current state does nothing. -/
theorem run_setState_self (w : World τ ρ) (component : String) :
    (m.setState w.current component).run w = (.returned (), w) := by
  rw [setState, Proc.run_bind_of_returned (run_transition_self w), if_pos rfl]
  rfl

/-- `setState` to any other target raises and awaits nothing. -/
theorem run_setState_of_not_mem {w : World τ ρ} {target : RuntimeState}
    {component : String} (hne : target ≠ w.current) (h : target ∉ w.current.transitions) :
    (m.setState target component).run w
      = (.raised (.invalidStateTransition ⟨w.current, target⟩), w) := by
  rw [setState, Proc.run_bind_of_raised (run_transition_of_not_mem hne h)]

end LifecycleManager

end EdgeSentinel.Core
