import EdgeSentinel.Monitoring.Checks

/-!
# `EdgeSentinel.Monitoring.NetworkChecks`: one `check_once` of a network monitor after the other

Here a check of `network/monitor.py` runs from its first line to its return before the next one
begins. `probe` is its loop over `_LAYER_ORDER`, with the calls of the layer checks.
`Monitors.lean` has the same check cut at its awaits, from the loop on.
-/

set_option autoImplicit false

namespace EdgeSentinel.Monitoring

open EdgeSentinel.Core

variable {τ : Type}

/-- How `await check()` ends. -/
inductive CheckEnd where
  | returned (ok : Bool)
  | raised (exc : String)
  deriving DecidableEq, Repr

/-- `ok`. A check that raises is logged as a failure at its layer. -/
def CheckEnd.ok : CheckEnd → Bool
  | returned ok => ok
  | raised _ => false

/-- What the polls meet: how the check of a layer ends in each poll, whether no state-change handler
raises on the way from OFFLINE to HEALTHY, the times of the events, and what their publications
meet. -/
structure NetworkSurroundings (τ : Type) where
  check : ℕ → NetworkLayer → CheckEnd
  delivered : ℕ → Bool
  clock : ℕ → τ
  audience : ℕ → Audience String := fun _ => {}

/-- A network monitor after some polls: the runtime state, `_status`, the calls of the layer checks
with the number of the poll, and the events handed to `publish`. -/
structure NetworkChecked (τ : Type) where
  current : RuntimeState
  status : Option NetworkStatus := none
  polls : ℕ := 0
  called : List (ℕ × NetworkLayer) := []
  published : List (Event τ) := []

/-- The loop of `check_once`: the checks that it calls, and `reachable`. -/
def NetworkMonitor.probe (m : NetworkMonitor) (check : NetworkLayer → CheckEnd) :
    List NetworkLayer → List NetworkLayer × List NetworkLayer
  | [] => ([], [])
  | layer :: rest =>
    if !m.checks layer then m.probe check rest
    else if (check layer).ok then
      let (called, reachable) := m.probe check rest
      (layer :: called, layer :: reachable)
    else ([layer], [])

namespace NetworkChecked

variable (m : NetworkMonitor) (env : NetworkSurroundings τ) (hooks : Hooks)

/-- `_on_change`, up to the runtime. -/
def publish (current : NetworkStatus) (s : NetworkChecked τ) : NetworkChecked τ :=
  if hooks.events then
    { s with published := s.published ++ [m.statusChanged (env.clock s.published.length) current] }
  else s

/-- `publish` raises. -/
def raises (current : NetworkStatus) (s : NetworkChecked τ) : Bool :=
  hooks.events && ((env.audience s.published.length).raised
    (m.statusChanged (env.clock s.published.length) current)).isSome

/-- `_apply_to_runtime`. `poll` is the number of the poll. -/
def applyToRuntime (current : NetworkStatus) (poll : ℕ) (s : NetworkChecked τ) :
    NetworkChecked τ :=
  let target := m.target s.status current
  if s.current ∉ RuntimeState.managedByNetwork then s
  else if target = s.current then s
  -- OFFLINE to HEALTHY is no legal single move.
  else if target = .healthy ∧ s.current = .offline then
    let hop := StateMachine.ask s.current .degraded
    { s with current := if env.delivered poll then StateMachine.ask hop .healthy else hop }
  else { s with current := StateMachine.ask s.current target }

/-- `check_once`. -/
def checkOnce (s : NetworkChecked τ) : NetworkChecked τ :=
  let (called, reachable) := m.probe (env.check s.polls) layerOrder
  let current : NetworkStatus := ⟨reachable⟩
  let s' : NetworkChecked τ := { s with
    status := some current
    polls := s.polls + 1
    called := s.called ++ called.map (s.polls, ·) }
  if s.status.all fun previous => previous.highestLayer ≠ current.highestLayer then
    -- A `publish` that raises ends the check.
    if s'.raises m env hooks current then s'.publish m env hooks current
    else if hooks.setState then
      (s'.publish m env hooks current).applyToRuntime m env current s.polls
    else s'.publish m env hooks current
  else s'

/-- The monitor after its first `n` polls. -/
def after (current : RuntimeState) : ℕ → NetworkChecked τ
  | 0 => { current := current }
  | n + 1 => (after current n).checkOnce m env hooks

end NetworkChecked

end EdgeSentinel.Monitoring
