import EdgeSentinel.Monitoring.Fleet
import EdgeSentinel.Subsystems.Crew

/-!
# `EdgeSentinel.Subsystems.Ensemble`: all subsystems at work on one runtime

An ensemble is a started runtime with its monitors, supervisors and watchdogs, each as its own
module models it. A step is a step of one of them, from one of its awaits to the next, and they
interleave there in any order. The state is the runtime's: a step begins with it and leaves it to
the others.
-/

set_option autoImplicit false

namespace EdgeSentinel.Subsystems

open EdgeSentinel.Core
open EdgeSentinel.Monitoring (Answer Member)
open EdgeSentinel.Process

variable {τ : Type}

/-- A subsystem as it is between two of its steps. -/
inductive Subsystem (τ : Type) where
  | monitor (m : Member)
  | supervisor (cfg : SupervisorSettings) (s : Supervisor τ)
  | watchdog (cfg : WatchdogSettings) (s : Watchdog τ)

/-- A step of a subsystem. -/
inductive SubsystemStep (τ : Type) where
  | poll (now : τ) (a : Answer)
  | supervise (e : SupervisorStep τ)
  | watch (e : WatchdogStep τ)

/-- The step moves the state for no other part of the runtime. -/
def SubsystemStep.IsOwn : SubsystemStep τ → Prop
  | .supervise (.moved _) | .watch (.moved _) => False
  | _ => True

instance : ∀ e : SubsystemStep τ, Decidable e.IsOwn
  | .poll _ _ => isTrue trivial
  | .supervise (.start _) | .supervise .stop | .supervise (.resume _ _) => isTrue trivial
  | .supervise (.moved _) => isFalse id
  | .watch (.register _ _ _ _) | .watch (.unregister _) | .watch (.heartbeat _ _)
  | .watch (.check _ _) | .watch (.turn _ _ _) | .watch (.resume _) => isTrue trivial
  | .watch (.moved _) => isFalse id

/-- The subsystem takes a step while the runtime is in a state. -/
def Subsystem.step (state : RuntimeState) :
    Subsystem τ → SubsystemStep τ → Option (RuntimeState × Subsystem τ)
  | .monitor m, .poll now a =>
    let t := m.turn now a state
    some (t.current, .monitor t.member)
  | .supervisor cfg s, .supervise e =>
    (Supervisor.step cfg { s with current := state } e).map fun s => (s.current, .supervisor cfg s)
  | .watchdog cfg s, .watch e =>
    (Watchdog.step cfg { s with current := state } e).map fun s => (s.current, .watchdog cfg s)
  | _, _ => none

/-- A started runtime with its subsystems. -/
structure Ensemble (τ : Type) where
  current : RuntimeState
  subsystems : List (Subsystem τ)

namespace Ensemble

/-- The step function. The subsystem at a position takes a step of its own. -/
def step (w : Ensemble τ) (e : Nat × SubsystemStep τ) : Option (Ensemble τ) :=
  if e.2.IsOwn then
    (w.subsystems[e.1]?.bind fun s => s.step w.current e.2).map fun (current, s) =>
      { current := current, subsystems := w.subsystems.set e.1 s }
  else none

end Ensemble

end EdgeSentinel.Subsystems
