import EdgeSentinel.Library.Run
import EdgeSentinel.Monitoring.Monitors

/-!
# `EdgeSentinel.Monitoring.Fleet`: monitors that share a runtime

A fleet is the state of a started runtime with its registered monitors. Each monitor has at
most one poll going on. A step starts a poll of one monitor, or resumes it up to its next
await, so the polls of different monitors interleave at every await. Only the monitors move
the state.
-/

set_option autoImplicit false

namespace EdgeSentinel.Monitoring

open EdgeSentinel.Core

/-- What the surroundings answer to a part of a poll: the outcomes of the layer checks, the
readings (`none` when the check raises), whether the handlers of a move return, and what the
publication meets. The handlers of the runtime's bus return awaitables. -/
structure Answer where
  passes : NetworkLayer → Bool := fun _ => false
  usage : Option StorageStatus := none
  metrics : Option HardwareStatus := none
  delivered : Bool := true
  audience : Audience String := {}
  awaitables : audience.Awaitables := by exact Audience.awaitables_default

/-- A registered monitor: its attributes, and its poll when one is going on. -/
inductive Member where
  | network (m : NetworkMonitor) (status : Option NetworkStatus) (poll : Option NetworkPoll)
  | storage (m : StorageMonitor) (g : Gauge StorageStatus) (poll : Option PressurePoll)
  | metrics (m : MetricsMonitor) (g : Gauge HardwareStatus) (poll : Option PressurePoll)

namespace Member

/-- A poll is going on. -/
def isPolling : Member → Bool
  | network _ _ poll => poll.isSome
  | storage _ _ poll => poll.isSome
  | metrics _ _ poll => poll.isSome

/-- The last poll was healthy: `is_fully_connected`, and not `is_low` and not `is_high`. -/
def isHealthy : Member → Bool
  | network m status _ => m.isFullyConnected status
  | storage _ g _ => !g.pressed
  | metrics _ g _ => !g.pressed

end Member

variable {τ : Type}

/-- A member after a part of its poll. -/
structure MemberTurn (τ : Type) where
  current : RuntimeState
  member : Member
  published : List (Event τ)

/-- The part of a network monitor's poll that is next. -/
def NetworkMonitor.turn (m : NetworkMonitor) (now : τ) (a : Answer) (state : RuntimeState)
    (status : Option NetworkStatus) :
    Option NetworkPoll → Turn (Option NetworkStatus) NetworkPoll τ
  | none => m.checkOnce now a.passes state status
  | some poll => m.resume a.delivered state status poll

/-- The part of a pressure monitor's poll that is next. -/
def PressureMonitor.turn {σ : Type} (p : PressureMonitor σ τ) (now : τ) (reading : Option σ)
    (state : RuntimeState) (g : Gauge σ) : Option PressurePoll → Turn (Gauge σ) PressurePoll τ
  | none => p.checkOnce now reading state g
  | some poll => p.resume now reading state g poll

/-- The part of the member's poll that is next. -/
def Member.turn (now : τ) (a : Answer) (state : RuntimeState) : Member → MemberTurn τ
  | network m status poll =>
    let t := (m.turn now a state status poll).met a.audience
    ⟨t.current, network m t.attributes t.poll, t.published⟩
  | storage m g poll =>
    let t := (m.pressure.turn now a.usage state g poll).met a.audience
    ⟨t.current, storage m t.attributes t.poll, t.published⟩
  | metrics m g poll =>
    let t := (m.pressure.turn now a.metrics state g poll).met a.audience
    ⟨t.current, metrics m t.attributes t.poll, t.published⟩

/-- A started runtime with its monitors, and the events they have published. -/
structure Fleet (τ : Type) where
  current : RuntimeState
  members : List Member
  published : List (Event τ) := []

/-- The member at a position makes the next part of its poll. -/
structure Advance (τ : Type) where
  position : Nat
  answer : Answer
  now : τ

namespace Fleet

/-- The fleet after the part of a poll. -/
def advanced (w : Fleet τ) (e : Advance τ) (m : Member) : Fleet τ :=
  let t := m.turn e.now e.answer w.current
  -- The other members keep their attributes and their polls.
  { current := t.current
    members := w.members.set e.position t.member
    published := w.published ++ t.published }

/-- The step function. -/
def step (w : Fleet τ) (e : Advance τ) : Option (Fleet τ) :=
  w.members[e.position]?.map (w.advanced e)

end Fleet

end EdgeSentinel.Monitoring
