import Mathlib.Tactic.TypeStar

/-!
# `EdgeSentinel.Core.State`: the lifecycle state machine

`RuntimeState` and the graph `transitions` are `core/state.py`. `StateMachine.transition`
answers with the state it left and the state it is in, or with the
`InvalidStateTransitionError` of the pair.

The three groups of states that the subsystems test before they touch the runtime are the
frozensets of their modules: `managedByNetwork` (`network/monitor.py`), `managedByPressure`
(`storage/monitor.py`, `metrics/monitor.py`) and `unsafeToEscalate` (all four).
-/

set_option autoImplicit false

namespace EdgeSentinel.Core

/-- Lifecycle states of a runtime. -/
inductive RuntimeState where
  | booting
  | initializing
  | healthy
  | degraded
  | offline
  | recovering
  | failed
  | stopping
  | stopped
  deriving DecidableEq, Repr

namespace RuntimeState

/-- The enum's value, as it is persisted and as it stands in event metadata. -/
def value : RuntimeState → String
  | booting => "booting"
  | initializing => "initializing"
  | healthy => "healthy"
  | degraded => "degraded"
  | offline => "offline"
  | recovering => "recovering"
  | failed => "failed"
  | stopping => "stopping"
  | stopped => "stopped"

/-- `_TRANSITIONS`: the states that each state may move to. -/
def transitions : RuntimeState → List RuntimeState
  | booting => [initializing, failed]
  | initializing => [healthy, degraded, failed]
  | healthy => [degraded, offline, recovering, stopping, failed]
  | degraded => [healthy, offline, recovering, stopping, failed]
  | offline => [recovering, degraded, stopping, failed]
  | recovering => [healthy, degraded, offline, failed, stopping]
  | failed => [recovering, stopping]
  | stopping => [stopped]
  | stopped => []

/-- `_MANAGED_STATES` of the network monitor. -/
def managedByNetwork : List RuntimeState := [healthy, degraded, offline]

/-- `_MANAGED_STATES` of the storage and the hardware monitor. -/
def managedByPressure : List RuntimeState := [healthy, degraded]

/-- `_UNSAFE_TO_ESCALATE`: no subsystem moves the runtime to FAILED from here. -/
def unsafeToEscalate : List RuntimeState := [stopping, stopped]

/-- No state of the graph lists itself. -/
theorem not_mem_transitions_self (s : RuntimeState) : s ∉ s.transitions := by
  cases s <;> decide

end RuntimeState

/-- `InvalidStateTransitionError`: the target is not reachable from the current state. -/
structure InvalidStateTransitionError where
  current : RuntimeState
  target : RuntimeState
  deriving DecidableEq, Repr

namespace StateMachine

/-- `transition` on the current state: the state moved from, and the new current state.
Moving to the current state is a no-op. The lock of the source makes this one step. -/
def transition (current target : RuntimeState) :
    Except InvalidStateTransitionError (RuntimeState × RuntimeState) :=
  if target = current then .ok (current, current)
  else if target ∈ current.transitions then .ok (current, target)
  else .error ⟨current, target⟩

theorem transition_self (s : RuntimeState) : transition s s = .ok (s, s) := by
  simp [transition]

/-- A legal target moves the machine. -/
theorem transition_of_mem {current target : RuntimeState} (h : target ∈ current.transitions) :
    transition current target = .ok (current, target) := by
  have hne : target ≠ current := by
    rintro rfl
    exact RuntimeState.not_mem_transitions_self _ h
  simp [transition, hne, h]

/-- Another target that the graph does not list is refused. -/
theorem transition_of_not_mem {current target : RuntimeState} (hne : target ≠ current)
    (h : target ∉ current.transitions) :
    transition current target = .error ⟨current, target⟩ := by
  simp [transition, hne, h]

/-! ### How subsystems move the state

A subsystem logs the error of a refused move, so a refused move leaves the state. -/

/-- The state after a subsystem has asked for `target`. -/
def ask (current target : RuntimeState) : RuntimeState :=
  match transition current target with
  | .ok (_, next) => next
  | .error _ => current

/-- `_escalate`: FAILED, out of every state that is not unsafe to escalate. -/
def escalate (current : RuntimeState) : RuntimeState :=
  if current ∈ RuntimeState.unsafeToEscalate then current else ask current .failed

/-- `_apply_to_runtime`, of a monitor that manages the states `managed`. -/
def applyToRuntime (managed : List RuntimeState) (current target : RuntimeState) :
    RuntimeState :=
  if current ∉ managed ∨ target = current then current else ask current target

end StateMachine

end EdgeSentinel.Core
