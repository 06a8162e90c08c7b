import EdgeSentinel.Core.EventBus

/-!
# `EdgeSentinel.Monitoring.Monitors`: network, storage and hardware

`NetworkMonitor`, `StorageMonitor` and `MetricsMonitor` are `network/monitor.py`,
`storage/monitor.py` and `metrics/monitor.py`, wired to a runtime and to its bus.

A poll is one call of `check_once`. `checkOnce` is its part up to the first await after the
status is stored, and `resume` goes on from an await to the next one. The read of the
runtime state and the move that follows it have no await in between, so both are in one
such part. A part publishes one event at most, as the last thing that it does, and `Turn.met` is
what comes of that.

The storage and the metrics monitor are the same code in other words. `PressureMonitor` is
that code, and each of the two is an instance of it.
-/

set_option autoImplicit false

namespace EdgeSentinel.Monitoring

open EdgeSentinel.Core

/-- What a part of a poll leaves: the runtime state, the attributes `α` of the monitor, the
await in `β` at which the poll stands now, and the events it has published. -/
structure Turn (α β τ : Type) where
  current : RuntimeState
  attributes : α
  poll : Option β := none
  published : List (Event τ) := []

variable {τ : Type}

/-- The part with what its publication meets. An exception of `publish` ends the poll. -/
def Turn.met {α β : Type} (t : Turn α β τ) (audience : Audience String) : Turn α β τ :=
  if t.published.all fun e => (audience.raised e).isNone then t
  else { t with poll := none, published := [] }

/-! ### The network -/

/-- Connectivity layers. -/
inductive NetworkLayer where
  | link
  | gateway
  | dns
  | internet
  deriving DecidableEq, Repr

def NetworkLayer.value : NetworkLayer → String
  | link => "link"
  | gateway => "gateway"
  | dns => "dns"
  | internet => "internet"

/-- `_LAYER_ORDER`. -/
def layerOrder : List NetworkLayer := [.link, .gateway, .dns, .internet]

/-- Result of one poll: the layers that passed, lowest first. -/
structure NetworkStatus where
  reachable : List NetworkLayer := []
  deriving DecidableEq, Repr

def NetworkStatus.highestLayer (s : NetworkStatus) : Option NetworkLayer := s.reachable.getLast?

/-- A network monitor with its configured checks. The constructor rejects an empty mapping. -/
structure NetworkMonitor where
  checks : NetworkLayer → Bool
  component : String := "network"
  checks_nonempty : ∃ layer, checks layer = true

/-- The await at which a poll of the network stands. -/
inductive NetworkPoll where
  /-- `network_status_changed` is being published. -/
  | onChange (current : NetworkStatus)
  /-- The way from OFFLINE to HEALTHY has come to DEGRADED. -/
  | hop
  deriving DecidableEq, Repr

namespace NetworkMonitor

variable (m : NetworkMonitor)

/-- The configured layers in `_LAYER_ORDER`. -/
def layers : List NetworkLayer := layerOrder.filter m.checks

/-- `is_fully_connected`, on the attribute `_status`. -/
def isFullyConnected (status : Option NetworkStatus) : Bool :=
  status.any fun s => s.reachable.length == m.layers.length

/-- The `network_status_changed` event. -/
def statusChanged (now : τ) (current : NetworkStatus) : Event τ where
  type := "network_status_changed"
  component := m.component
  severity := if m.isFullyConnected (some current) then .info else .warning
  timestamp := now
  metadata := [
    ("current_layer", current.highestLayer.elim .null fun layer => .str layer.value),
    ("fully_connected", .bool (m.isFullyConnected (some current)))]

/-- `check_once`. `passes` are the outcomes of the checks; one that raises does not pass. -/
def checkOnce (now : τ) (passes : NetworkLayer → Bool) (state : RuntimeState)
    (status : Option NetworkStatus) : Turn (Option NetworkStatus) NetworkPoll τ :=
  let current : NetworkStatus := ⟨m.layers.takeWhile passes⟩
  if status.all fun previous => previous.highestLayer ≠ current.highestLayer then
    { current := state
      attributes := some current
      poll := some (.onChange current)
      published := [m.statusChanged now current] }
  else
    { current := state, attributes := some current }

/-- The state that `_apply_to_runtime` asks for. -/
def target (status : Option NetworkStatus) (current : NetworkStatus) : RuntimeState :=
  if m.isFullyConnected status then .healthy
  else if current.highestLayer = none then .offline
  else .degraded

/-- `_apply_to_runtime`. The hop stands at the await of the move to DEGRADED. `delivered`
says that no handler has raised there; otherwise the error is logged and the poll is over. -/
def resume (delivered : Bool) (state : RuntimeState) (status : Option NetworkStatus) :
    NetworkPoll → Turn (Option NetworkStatus) NetworkPoll τ
  | .onChange current =>
    -- Boot, shutdown and failure belong to other parts of the runtime.
    if state ∉ RuntimeState.managedByNetwork then { current := state, attributes := status }
    else if m.target status current = state then { current := state, attributes := status }
    -- OFFLINE to HEALTHY is no legal single move.
    else if m.target status current = .healthy ∧ state = .offline then
      { current := StateMachine.ask state .degraded, attributes := status, poll := some .hop }
    else { current := StateMachine.ask state (m.target status current), attributes := status }
  | .hop =>
    { current := if delivered then StateMachine.ask state .healthy else state
      attributes := status }

/-- A check stores the status, and publishes it when the highest layer has changed. -/
theorem checkOnce_cases (now : τ) (passes : NetworkLayer → Bool) (state : RuntimeState)
    (status : Option NetworkStatus) :
    m.checkOnce now passes state status =
        { current := state
          attributes := some ⟨m.layers.takeWhile passes⟩
          poll := some (.onChange ⟨m.layers.takeWhile passes⟩)
          published := [m.statusChanged now ⟨m.layers.takeWhile passes⟩] } ∨
      ∃ previous, status = some previous ∧
        previous.highestLayer = NetworkStatus.highestLayer ⟨m.layers.takeWhile passes⟩ ∧
        m.checkOnce now passes state status =
          { current := state, attributes := some ⟨m.layers.takeWhile passes⟩ } := by
  unfold checkOnce
  dsimp only
  split
  case isTrue => exact Or.inl rfl
  case isFalse hsame =>
    cases status with
    | none => simp at hsame
    | some previous => exact Or.inr ⟨previous, rfl, by simpa using hsame, rfl⟩

/-- The poll of a change is over, it goes to DEGRADED on its way to HEALTHY, or it asks for its
target. -/
theorem resume_cases (delivered : Bool) (state : RuntimeState) (status : Option NetworkStatus)
    (current : NetworkStatus) :
    ((state ∉ RuntimeState.managedByNetwork ∨ m.target status current = state) ∧
        m.resume (τ := τ) delivered state status (.onChange current)
          = { current := state, attributes := status }) ∨
      (m.target status current = .healthy ∧ state = .offline ∧
        m.resume (τ := τ) delivered state status (.onChange current)
          = { current := .degraded, attributes := status, poll := some .hop }) ∨
      (state ∈ RuntimeState.managedByNetwork ∧ m.target status current ≠ state ∧
        ¬ (m.target status current = .healthy ∧ state = .offline) ∧
        m.resume (τ := τ) delivered state status (.onChange current) =
          { current := StateMachine.ask state (m.target status current), attributes := status }) := by
  rw [resume]
  split
  case isTrue hunmanaged => exact Or.inl ⟨Or.inl hunmanaged, rfl⟩
  case isFalse hmanaged =>
    split
    case isTrue hself => exact Or.inl ⟨Or.inr hself, rfl⟩
    case isFalse hne =>
      split
      case isTrue hhop =>
        obtain ⟨hhealthy, rfl⟩ := hhop
        exact Or.inr (Or.inl ⟨hhealthy, rfl, rfl⟩)
      case isFalse hhop => exact Or.inr (Or.inr ⟨not_not.mp hmanaged, hne, hhop, rfl⟩)

end NetworkMonitor

/-! ### Pressure -/

/-- What the storage and the metrics monitor differ in: the predicate of a reading, the
number of actions, and the events. -/
structure PressureMonitor (σ τ : Type) where
  isPressed : σ → Bool
  actions : Nat
  onPressed : τ → σ → Event τ
  onRecovered : τ → σ → Event τ
  onExhausted : τ → σ → Event τ

/-- The attributes `_status` and `_low` (`_high`). -/
structure Gauge (σ : Type) where
  status : Option σ := none
  pressed : Bool := false
  deriving DecidableEq, Repr

/-- The await at which a poll of a pressure monitor stands. -/
inductive PressurePoll where
  /-- `storage_low` (`hardware_metrics_high`) is being published. -/
  | onPressed
  /-- The move to DEGRADED is awaited. -/
  | degrading
  /-- The action at a position is awaited. -/
  | acting (k : Nat)
  /-- The event of `_on_recovered` is being published. -/
  | onRecovered
  /-- The event of `_on_cleanup_exhausted` (`_on_mitigations_exhausted`) is being published. -/
  | onExhausted
  deriving DecidableEq, Repr

namespace PressureMonitor

variable {σ : Type} (p : PressureMonitor σ τ)

/-- `check_once`. The reading is `none` when the check raises: the poll is over. -/
def checkOnce (now : τ) (reading : Option σ) (state : RuntimeState) (g : Gauge σ) :
    Turn (Gauge σ) PressurePoll τ :=
  match reading with
  | none => { current := state, attributes := g }
  | some status =>
    let g' : Gauge σ := ⟨some status, p.isPressed status⟩
    -- Only an edge of the flag is reported.
    if g'.pressed && !g.pressed then
      { current := state
        attributes := g'
        poll := some .onPressed
        published := [p.onPressed now status] }
    else if !g'.pressed && g.pressed then
      { current := state
        attributes := g'
        poll := some .onRecovered
        published := [p.onRecovered now status] }
    else { current := state, attributes := g' }

/-- The loop of `_run_cleanup` (`_run_mitigations`) comes to the action at position `k`, and
`_on_low` (`_on_high`) goes on when the loop is over. -/
def nextAction (now : τ) (state : RuntimeState) (g : Gauge σ) (k : Nat) :
    Turn (Gauge σ) PressurePoll τ :=
  if !g.pressed then
    { current := state
      attributes := g
      poll := some .onRecovered
      published := g.status.toList.map (p.onRecovered now) }
  else if k < p.actions then
    { current := state, attributes := g, poll := some (.acting k) }
  -- Without actions the monitor does not give up.
  else if 0 < p.actions then
    { current := state
      attributes := g
      poll := some .onExhausted
      published := g.status.toList.map (p.onExhausted now) }
  else { current := state, attributes := g }

/-- From an await to the next one. The reading is the one after an action. -/
def resume (now : τ) (reading : Option σ) (state : RuntimeState) (g : Gauge σ) :
    PressurePoll → Turn (Gauge σ) PressurePoll τ
  | .onPressed =>
    let current := StateMachine.applyToRuntime RuntimeState.managedByPressure state .degraded
    -- A state that stays is not moved, and there is nothing to await.
    if current = state then p.nextAction now state g 0
    else { current := current, attributes := g, poll := some .degrading }
  | .degrading => p.nextAction now state g 0
  | .acting k =>
    match reading with
    -- The check has raised out of the loop: `_low` keeps its value, and the poll is over.
    | none => { current := state, attributes := g }
    | some status => p.nextAction now state ⟨some status, p.isPressed status⟩ (k + 1)
  | .onRecovered =>
    { current := StateMachine.applyToRuntime RuntimeState.managedByPressure state .healthy
      attributes := g }
  | .onExhausted => { current := StateMachine.escalate state, attributes := g }

/-- A check that raises is over at once. Any other one stores the reading, and goes on at an edge of
the flag. -/
theorem checkOnce_cases (now : τ) (reading : Option σ) (state : RuntimeState) (g : Gauge σ) :
    (reading = none ∧ p.checkOnce now reading state g = { current := state, attributes := g }) ∨
      ∃ status, reading = some status ∧
        ((p.isPressed status = true ∧ g.pressed = false ∧ p.checkOnce now reading state g =
            { current := state
              attributes := ⟨some status, p.isPressed status⟩
              poll := some .onPressed
              published := [p.onPressed now status] }) ∨
          (p.isPressed status = false ∧ g.pressed = true ∧ p.checkOnce now reading state g =
            { current := state
              attributes := ⟨some status, p.isPressed status⟩
              poll := some .onRecovered
              published := [p.onRecovered now status] }) ∨
          (p.isPressed status = g.pressed ∧ p.checkOnce now reading state g =
            { current := state, attributes := ⟨some status, p.isPressed status⟩ })) := by
  unfold checkOnce
  cases reading with
  | none => exact Or.inl ⟨rfl, rfl⟩
  | some status =>
    refine Or.inr ⟨status, rfl, ?_⟩
    dsimp only
    cases hnew : p.isPressed status <;> cases hold : g.pressed
    · exact Or.inr (Or.inr ⟨rfl, rfl⟩)
    · exact Or.inr (Or.inl ⟨rfl, rfl, rfl⟩)
    · exact Or.inl ⟨rfl, rfl, rfl⟩
    · exact Or.inr (Or.inr ⟨rfl, rfl⟩)

/-- The loop of actions leaves the state and the gauge. It ends in a recovery, at an action, or
with the escalation; or there are no actions. -/
theorem nextAction_cases (now : τ) (state : RuntimeState) (g : Gauge σ) (k : Nat) :
    (g.pressed = false ∧ p.nextAction now state g k =
        { current := state
          attributes := g
          poll := some .onRecovered
          published := g.status.toList.map (p.onRecovered now) }) ∨
      (g.pressed = true ∧ k < p.actions ∧ p.nextAction now state g k =
        { current := state, attributes := g, poll := some (.acting k) }) ∨
      (g.pressed = true ∧ ¬ k < p.actions ∧ 0 < p.actions ∧ p.nextAction now state g k =
        { current := state
          attributes := g
          poll := some .onExhausted
          published := g.status.toList.map (p.onExhausted now) }) ∨
      (g.pressed = true ∧ p.actions = 0 ∧ p.nextAction now state g k =
        { current := state, attributes := g }) := by
  unfold nextAction
  cases hpressed : g.pressed with
  | false => exact Or.inl ⟨rfl, rfl⟩
  | true =>
    rw [if_neg (by decide)]
    split
    case isTrue hlt => exact Or.inr (Or.inl ⟨rfl, hlt, rfl⟩)
    case isFalse hlt =>
      split
      case isTrue hactions => exact Or.inr (Or.inr (Or.inl ⟨rfl, hlt, hactions, rfl⟩))
      case isFalse hnone =>
        exact Or.inr (Or.inr (Or.inr ⟨rfl, Nat.eq_zero_of_not_pos hnone, rfl⟩))

end PressureMonitor

/-! ### Storage -/

/-- Free space and free inodes of a filesystem. -/
structure StorageStatus where
  freeBytes : Int
  freeInodes : Option Int := none
  deriving DecidableEq, Repr

/-- A storage monitor. `cleanup` is the number of its cleanup actions. -/
structure StorageMonitor where
  path : String
  lowWaterBytes : Int
  lowWaterInodes : Option Int := none
  cleanup : Nat := 0
  component : String := "storage"

namespace StorageMonitor

variable (m : StorageMonitor)

/-- `_is_low`. -/
def isLow (status : StorageStatus) : Bool :=
  if status.freeBytes < m.lowWaterBytes then true
  else m.lowWaterInodes.any fun low => status.freeInodes.any fun free => free < low

def metadata (status : StorageStatus) : List (String × MetadataValue) :=
  [("path", .str m.path), ("free_bytes", .num status.freeBytes)]

/-- The storage monitor as a pressure monitor. -/
def pressure : PressureMonitor StorageStatus τ where
  isPressed := m.isLow
  actions := m.cleanup
  onPressed now status :=
    { type := "storage_low", component := m.component, severity := .warning, timestamp := now
      metadata := m.metadata status }
  onRecovered now _ :=
    { type := "storage_recovered", component := m.component, timestamp := now
      metadata := [("path", .str m.path)] }
  onExhausted now status :=
    { type := "storage_cleanup_exhausted", component := m.component, severity := .critical
      timestamp := now, metadata := m.metadata status }

end StorageMonitor

/-! ### Hardware -/

/-- CPU load, memory usage, and the temperature where it is reported. -/
structure HardwareStatus where
  cpuLoadRatio : ℚ
  memoryUsedRatio : ℚ
  temperatureCelsius : Option ℚ := none
  deriving DecidableEq, Repr

/-- A metrics monitor. `mitigations` is the number of its mitigation actions. -/
structure MetricsMonitor where
  cpuHigh : Option ℚ := none
  memoryHigh : Option ℚ := none
  temperatureHighCelsius : Option ℚ := none
  mitigations : Nat := 0
  component : String := "metrics"

namespace MetricsMonitor

variable (m : MetricsMonitor)

/-- `_is_high`. -/
def isHigh (status : HardwareStatus) : Bool :=
  if m.cpuHigh.any fun high => high ≤ status.cpuLoadRatio then true
  else if m.memoryHigh.any fun high => high ≤ status.memoryUsedRatio then true
  else m.temperatureHighCelsius.any fun high =>
    status.temperatureCelsius.any fun celsius => high ≤ celsius

/-- `_metadata`. -/
def metadata (status : HardwareStatus) : List (String × MetadataValue) :=
  [("cpu_load_ratio", .num status.cpuLoadRatio),
    ("memory_used_ratio", .num status.memoryUsedRatio),
    ("temperature_celsius", status.temperatureCelsius.elim .null .num)]

/-- The metrics monitor as a pressure monitor. -/
def pressure : PressureMonitor HardwareStatus τ where
  isPressed := m.isHigh
  actions := m.mitigations
  onPressed now status :=
    { type := "hardware_metrics_high", component := m.component, severity := .warning
      timestamp := now, metadata := MetricsMonitor.metadata status }
  onRecovered now status :=
    { type := "hardware_metrics_recovered", component := m.component, timestamp := now
      metadata := MetricsMonitor.metadata status }
  onExhausted now status :=
    { type := "hardware_metrics_mitigation_exhausted", component := m.component
      severity := .critical, timestamp := now, metadata := MetricsMonitor.metadata status }

end MetricsMonitor

end EdgeSentinel.Monitoring
