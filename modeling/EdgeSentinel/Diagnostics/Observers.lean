import EdgeSentinel.Core.EventBus
import Mathlib.Logic.Function.Basic

/-!
# `EdgeSentinel.Diagnostics.Observers`: what attaches to a bus

`EventLog`, `IncidentTracker`, `HttpEventPublisher` and `MqttPublisher` attach themselves to a bus
and detach from it with the same code. `attach` and `detach` are this code. The handler that an
observer subscribes is its bound method `_on_event`, which is equal to itself only.

`Watching` is any number of buses and observers, beside the handlers of the application. A
publication calls the handlers of a copy of the list, so an observer hears an event as often as it
stands in the list. A `publish` of a run is one that its handlers answer with awaitables
(`Awaitables`). One that raises is no event of a run. What the observers make of an event, and their
other methods, are parameters.
-/

set_option autoImplicit false

namespace EdgeSentinel.Diagnostics

open EdgeSentinel.Core

/-- A handler on a bus: `_on_event` of an observer, or a callable of the application. -/
inductive BusHandler (ι κ : Type) where
  | onEvent (observer : ι)
  | callable (f : κ)
  deriving DecidableEq, Repr

variable {ι κ β ε γ σ : Type} [DecidableEq ι] [DecidableEq κ] [DecidableEq β]

/-- `attach`, of the observer whose handler is `onEvent`. The attribute is `_handler`. -/
def attach (onEvent : BusHandler ι κ) (handler : Option (BusHandler ι κ))
    (events : EventBus (BusHandler ι κ)) :
    Option (BusHandler ι κ) × EventBus (BusHandler ι κ) :=
  match handler with
  | some handler => (some handler, events)
  | none => (some onEvent, events.subscribe onEvent)

/-- `detach`. -/
def detach (handler : Option (BusHandler ι κ)) (events : EventBus (BusHandler ι κ)) :
    Option (BusHandler ι κ) × EventBus (BusHandler ι κ) :=
  match handler with
  | none => (none, events)
  | some handler => (none, events.unsubscribe handler)

/-! The classes that attach themselves. -/

def EventLog.attach (i : ι) : Option (BusHandler ι κ) → EventBus (BusHandler ι κ) →
    Option (BusHandler ι κ) × EventBus (BusHandler ι κ) := Diagnostics.attach (.onEvent i)

def EventLog.detach : Option (BusHandler ι κ) → EventBus (BusHandler ι κ) →
    Option (BusHandler ι κ) × EventBus (BusHandler ι κ) := Diagnostics.detach

def IncidentTracker.attach (i : ι) : Option (BusHandler ι κ) → EventBus (BusHandler ι κ) →
    Option (BusHandler ι κ) × EventBus (BusHandler ι κ) := Diagnostics.attach (.onEvent i)

def IncidentTracker.detach : Option (BusHandler ι κ) → EventBus (BusHandler ι κ) →
    Option (BusHandler ι κ) × EventBus (BusHandler ι κ) := Diagnostics.detach

def HttpEventPublisher.attach (i : ι) : Option (BusHandler ι κ) → EventBus (BusHandler ι κ) →
    Option (BusHandler ι κ) × EventBus (BusHandler ι κ) := Diagnostics.attach (.onEvent i)

def HttpEventPublisher.detach : Option (BusHandler ι κ) → EventBus (BusHandler ι κ) →
    Option (BusHandler ι κ) × EventBus (BusHandler ι κ) := Diagnostics.detach

def MqttPublisher.attach (i : ι) : Option (BusHandler ι κ) → EventBus (BusHandler ι κ) →
    Option (BusHandler ι κ) × EventBus (BusHandler ι κ) := Diagnostics.attach (.onEvent i)

def MqttPublisher.detach : Option (BusHandler ι κ) → EventBus (BusHandler ι κ) →
    Option (BusHandler ι κ) × EventBus (BusHandler ι κ) := Diagnostics.detach

/-- Buses and observers. -/
structure Watching (ι κ β σ : Type) where
  bus : β → EventBus (BusHandler ι κ) := fun _ => {}
  /-- The attribute `_handler` of each observer. -/
  handler : ι → Option (BusHandler ι κ) := fun _ => none
  observer : ι → σ

/-- What happens next. -/
inductive WatchEvent (ι κ β ε γ : Type) where
  | attach (i : ι) (b : β)
  | detach (i : ι) (b : β)
  | subscribe (b : β) (f : κ)
  | unsubscribe (b : β) (f : κ)
  | publish (b : β) (event : ε)
  /-- Another method of an observer is called. -/
  | call (i : ι) (method : γ)

/-- What an observer makes of an event, and of a call of another method. -/
structure Behaviour (ι ε γ σ : Type) where
  onEvent : ι → σ → ε → σ
  call : ι → σ → γ → σ

/-- What an observer makes of an event that it hears, or of a call. -/
def Behaviour.take (B : Behaviour ι ε γ σ) (i : ι) (s : σ) : ε ⊕ γ → σ
  | .inl event => B.onEvent i s event
  | .inr method => B.call i s method

namespace Watching

variable (B : Behaviour ι ε γ σ)

/-- A handler is called with an event. -/
def handle (event : ε) (w : Watching ι κ β σ) : BusHandler ι κ → Watching ι κ β σ
  | .onEvent i =>
    { w with observer := Function.update w.observer i (B.onEvent i (w.observer i) event) }
  | .callable _ => w

/-- What an event does. -/
def next (w : Watching ι κ β σ) : WatchEvent ι κ β ε γ → Watching ι κ β σ
  | .attach i b =>
    let (handler, bus) := Diagnostics.attach (.onEvent i) (w.handler i) (w.bus b)
    { w with handler := Function.update w.handler i handler, bus := Function.update w.bus b bus }
  | .detach i b =>
    let (handler, bus) := Diagnostics.detach (w.handler i) (w.bus b)
    { w with handler := Function.update w.handler i handler, bus := Function.update w.bus b bus }
  | .subscribe b f =>
    { w with bus := Function.update w.bus b ((w.bus b).subscribe (.callable f)) }
  | .unsubscribe b f =>
    { w with bus := Function.update w.bus b ((w.bus b).unsubscribe (.callable f)) }
  | .publish b event => (w.bus b).handlers.foldl (handle B event) w
  | .call i method =>
    { w with observer := Function.update w.observer i (B.call i (w.observer i) method) }

/-- The buses and observers after some events. -/
def after (init : ι → σ) (es : List (WatchEvent ι κ β ε γ)) : Watching ι κ β σ :=
  es.foldl (next B) { observer := init }

end Watching

end EdgeSentinel.Diagnostics
