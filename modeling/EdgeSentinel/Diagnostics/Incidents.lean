import EdgeSentinel.Core.Events

/-!
# `EdgeSentinel.Diagnostics.Incidents`: spans of unhealthy time

`IncidentBuilder`, `IncidentTracker` and `buildIncidents` are `diagnostics/incidents.py`.
The builder reads the current state of a `state_change` event from the event's metadata, and
raises when it finds none there.
-/

set_option autoImplicit false

namespace EdgeSentinel.Core

/-- `RuntimeState(value)`: the state with a value. -/
def RuntimeState.ofValue? (value : MetadataValue) : Option RuntimeState :=
  [booting, initializing, healthy, degraded, offline, recovering, failed, stopping,
    stopped].find? fun s => value = .str s.value

theorem RuntimeState.ofValue?_value (s : RuntimeState) : ofValue? (.str s.value) = some s := by
  cases s <;> decide

/-- What reading stored data raises. -/
inductive ReadError where
  /-- `KeyError`: there is no such key. -/
  | keyError (key : String)
  /-- `ValueError`: no member of the enum has this value. -/
  | valueError (value : MetadataValue)
  /-- `OverflowError`: SQLite has no such integer. -/
  | overflowError (n : Int)
  deriving DecidableEq, Repr

variable {τ : Type}

/-- `RuntimeState(event.metadata[key])`. -/
def Event.stateAt (e : Event τ) (key : String) : Except ReadError RuntimeState :=
  match e.metadata.lookup key with
  | none => .error (.keyError key)
  | some value => (RuntimeState.ofValue? value).elim (.error (.valueError value)) .ok

@[simp] theorem Event.stateAt_stateChange_current (component : String)
    (previous current : RuntimeState) (now : τ) :
    (Event.stateChange component previous current now).stateAt "current" = .ok current := by
  cases current <;> rfl

@[simp] theorem Event.stateAt_stateChange_previous (component : String)
    (previous current : RuntimeState) (now : τ) :
    (Event.stateChange component previous current now).stateAt "previous" = .ok previous := by
  cases previous <;> rfl

end EdgeSentinel.Core

namespace EdgeSentinel.Diagnostics

open EdgeSentinel.Core

/-- `_INCIDENT_STATES`. -/
def incidentStates : List RuntimeState := [.degraded, .offline, .recovering, .failed]

variable {τ : Type}

/-- A single span of time that the runtime spent outside HEALTHY. -/
structure Incident (τ : Type) where
  startedAt : τ
  endedAt : Option τ
  states : List RuntimeState
  events : List (Event τ)
  deriving DecidableEq, Repr

/-- The property `is_open`. -/
def Incident.isOpen (x : Incident τ) : Bool := x.endedAt.isNone

/-- `_OpenIncident`. -/
structure OpenIncident (τ : Type) where
  startedAt : τ
  events : List (Event τ)
  states : List RuntimeState := []
  deriving DecidableEq, Repr

namespace OpenIncident

def freeze (o : OpenIncident τ) : Incident τ := ⟨o.startedAt, none, o.states, o.events⟩

def close (o : OpenIncident τ) (endedAt : τ) : Incident τ :=
  ⟨o.startedAt, some endedAt, o.states, o.events⟩

end OpenIncident

/-- `_IncidentBuilder`. `opened` is the attribute `_open`. -/
structure IncidentBuilder (τ : Type) where
  closed : List (Incident τ) := []
  opened : Option (OpenIncident τ) := none
  deriving DecidableEq, Repr

namespace IncidentBuilder

/-- An open incident takes the event. -/
def append (b : IncidentBuilder τ) (e : Event τ) : IncidentBuilder τ :=
  { b with opened := b.opened.map fun o => { o with events := o.events ++ [e] } }

/-- The event is a change to the state `current`. -/
def enter (b : IncidentBuilder τ) (e : Event τ) (current : RuntimeState) : IncidentBuilder τ :=
  if current ∈ incidentStates then
    let o := b.opened.getD { startedAt := e.timestamp, events := [e] }
    { b with opened := some { o with states := o.states ++ [current] } }
  else
    match b.opened with
    | some o => ⟨b.closed ++ [o.close e.timestamp], none⟩
    | none => b

/-- `feed`: the builder after the event, and what it has raised. -/
def feed (b : IncidentBuilder τ) (e : Event τ) : IncidentBuilder τ × Option ReadError :=
  if e.type ≠ "state_change" then (b.append e, none)
  else
    match e.stateAt "current" with
    | .ok current => ((b.append e).enter e current, none)
    | .error err => (b.append e, some err)

/-- The attribute `open_incident`. -/
def openIncident (b : IncidentBuilder τ) : Option (Incident τ) := b.opened.map (·.freeze)

/-- The loop of `build_incidents`. -/
def feedAll : IncidentBuilder τ → List (Event τ) → Except ReadError (IncidentBuilder τ)
  | b, [] => .ok b
  | b, e :: es =>
    match b.feed e with
    | (b', none) => b'.feedAll es
    | (_, some err) => .error err

/-- The closed incidents, and the open one at the end. -/
def result (b : IncidentBuilder τ) : List (Incident τ) := b.closed ++ b.openIncident.toList

end IncidentBuilder

/-- `build_incidents`. -/
def buildIncidents (events : List (Event τ)) : Except ReadError (List (Incident τ)) :=
  (IncidentBuilder.feedAll {} events).map (·.result)

/-- `IncidentTracker`. The constructor rejects an empty history. -/
structure IncidentTracker (τ : Type) where
  maxHistory : Nat
  builder : IncidentBuilder τ := {}
  history_pos : 1 ≤ maxHistory

namespace IncidentTracker

/-- `_on_event`. The bus logs what it raises. -/
def onEvent (t : IncidentTracker τ) (e : Event τ) : IncidentTracker τ :=
  match t.builder.feed e with
  | (b, none) =>
    { t with builder := { b with closed := b.closed.drop (b.closed.length - t.maxHistory) } }
  | (b, some _) => { t with builder := b }

/-- The property `open_incident`. -/
def openIncident (t : IncidentTracker τ) : Option (Incident τ) := t.builder.openIncident

/-- The property `incidents`. -/
def incidents (t : IncidentTracker τ) : List (Incident τ) := t.builder.closed

end IncidentTracker

/-! ### What one event does -/

namespace IncidentBuilder

variable {b : IncidentBuilder τ} {e : Event τ}

/-- An event that is no `state_change` leaves the span open or closed. -/
theorem feed_of_ne (h : e.type ≠ "state_change") : b.feed e = (b.append e, none) := by
  rw [feed, if_pos h]

/-- A `state_change` with a valid state enters it. -/
theorem feed_of_stateAt {current : RuntimeState} (h : e.type = "state_change")
    (hc : e.stateAt "current" = .ok current) :
    b.feed e = ((b.append e).enter e current, none) := by
  simp [feed, h, hc]

/-- After a change an incident is open exactly in the unhealthy states. -/
theorem enter_opened_isSome (current : RuntimeState) :
    (b.enter e current).opened.isSome = decide (current ∈ incidentStates) := by
  by_cases h : current ∈ incidentStates
  · simp [enter, h]
  · rw [enter, if_neg h]
    cases ho : b.opened with
    | none => simp [ho, h]
    | some o => simp [h]

end IncidentBuilder

end EdgeSentinel.Diagnostics
