import EdgeSentinel.Core.State
import Mathlib.Data.Rat.Defs

/-!
# `EdgeSentinel.Core.Events`: events and exceptions

`Event` and `StateChangeEvent` are the two records of `core/events.py`. Both are generic in
the type `τ` of timestamps. `Exn` holds the exceptions that the modelled code raises or
lets through. It does not hold `CancelledError`, which is a way to end and not an
`Exception`.
-/

set_option autoImplicit false

namespace EdgeSentinel.Core

/-- Severity of a recorded event. -/
inductive Severity where
  | info
  | warning
  | error
  | critical
  deriving DecidableEq, Repr

/-- A metadata value: a JSON scalar. -/
inductive MetadataValue where
  | str (s : String)
  | num (q : ℚ)
  | bool (b : Bool)
  | null
  deriving DecidableEq, Repr

/-- A point-in-time occurrence on the event bus. -/
structure Event (τ : Type) where
  type : String
  component : String
  severity : Severity := .info
  timestamp : τ
  metadata : List (String × MetadataValue) := []
  deriving DecidableEq, Repr

/-- What the `on_state_change` handlers receive. -/
structure StateChangeEvent (τ : Type) where
  previous : RuntimeState
  current : RuntimeState
  timestamp : τ
  deriving DecidableEq, Repr

/-- The `state_change` event of a transition. -/
def Event.stateChange {τ : Type} (component : String) (previous current : RuntimeState)
    (timestamp : τ) : Event τ where
  type := "state_change"
  component := component
  severity := .info
  timestamp := timestamp
  metadata := [("previous", .str previous.value), ("current", .str current.value)]

/-- The exceptions of the modelled code. -/
inductive Exn where
  | invalidStateTransition (error : InvalidStateTransitionError)
  | runtimeAlreadyStarted (name : String)
  | runtimeNotStarted (name : String)
  /-- `RuntimeError` of a database that is not connected. -/
  | notConnected
  /-- An exception of the application, of the operating system or of SQLite. -/
  | other (code : Nat)
  deriving DecidableEq, Repr

end EdgeSentinel.Core
