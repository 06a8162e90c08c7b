import EdgeSentinel.Monitoring.Fleet

/-!
# `EdgeSentinel.Monitoring.Checks`: one `check_once` of a pressure monitor after the other

`Monitors.lean` cuts a poll at its awaits. Here a check runs from its first line to its return
before the next one begins, as in `storage/monitor.py` and `metrics/monitor.py` when nothing
else happens. `Surroundings` are what a check meets: the readings of `usage_check`
(`metrics_check`) one after the other, how the actions end, the times of the events, and what their
publications meet. An exception of `publish` goes through `check_once`, and `RaisedCheck` has the monitor
as it leaves it.

`Polled.advance` runs the parts of `Monitors.lean` on the same state.
-/

set_option autoImplicit false

namespace EdgeSentinel.Monitoring

open EdgeSentinel.Core

variable {σ τ : Type}

/-- The readings, the ends of the actions, the times of the events and what their publications meet,
in order. An action that raises ends with its `str()`. -/
structure Surroundings (σ τ : Type) where
  reading : ℕ → σ
  action : ℕ → Except String Unit
  clock : ℕ → τ
  audience : ℕ → Audience String := fun _ => {}

/-- Whether `events` was given, and `set_state` with `get_state`. -/
structure Hooks where
  events : Bool
  setState : Bool

/-- A monitor, and what its checks have done: the readings they took, the actions that ran and how
they ended, the number of the calls of `publish`, and the events that were published. -/
structure Checked (σ τ : Type) where
  current : RuntimeState
  gauge : Gauge σ := {}
  reads : ℕ := 0
  ran : List (ℕ × Except String Unit) := []
  announced : ℕ := 0
  published : List (Event τ) := []

/-- An exception of `publish`, and the monitor as it leaves it. -/
structure RaisedCheck (σ τ : Type) where
  exception : PublishError String
  monitor : Checked σ τ

namespace Checked

variable (p : PressureMonitor σ τ) (env : Surroundings σ τ) (hooks : Hooks) (s : Checked σ τ)

/-- `usage_check`, and the flag. -/
def read : Checked σ τ :=
  { s with
    gauge := ⟨some (env.reading s.reads), p.isPressed (env.reading s.reads)⟩
    reads := s.reads + 1 }

/-- An event about the last reading. -/
def publish (event : τ → σ → Event τ) : Except (RaisedCheck σ τ) (Checked σ τ) :=
  match s.gauge.status with
  | some status =>
    if hooks.events then
      let e := event (env.clock s.announced) status
      match (env.audience s.announced).raised e with
      | some exception => .error ⟨exception, { s with announced := s.announced + 1 }⟩
      | none => .ok { s with announced := s.announced + 1, published := s.published ++ [e] }
    else .ok s
  | none => .ok s

/-- `_apply_to_runtime`. -/
def apply (target : RuntimeState) : Checked σ τ :=
  if hooks.setState then
    { s with
      current := StateMachine.applyToRuntime RuntimeState.managedByPressure s.current target }
  else s

/-- `_escalate`. -/
def escalate : Checked σ τ :=
  if hooks.setState then { s with current := StateMachine.escalate s.current } else s

/-- The action at position `k` runs. When it raises, the exception is logged. -/
def act (k : ℕ) : Checked σ τ := { s with ran := s.ran ++ [(k, env.action s.ran.length)] }

/-- `_run_cleanup` (`_run_mitigations`), from some action on. -/
def runActions : List ℕ → Checked σ τ → Checked σ τ
  | [], s => s
  | k :: rest, s => if !s.gauge.pressed then s else runActions rest ((s.act env k).read p env)

/-- `_on_recovered`. -/
def onRecovered : Except (RaisedCheck σ τ) (Checked σ τ) := do
  let s ← s.publish env hooks p.onRecovered
  return s.apply hooks .healthy

/-- `_on_cleanup_exhausted` (`_on_mitigations_exhausted`). -/
def onExhausted : Except (RaisedCheck σ τ) (Checked σ τ) := do
  let s ← s.publish env hooks p.onExhausted
  return s.escalate hooks

/-- `_on_low` (`_on_high`), after the runtime was told. -/
def runAndReport : Except (RaisedCheck σ τ) (Checked σ τ) :=
  let s := s.runActions p env (List.range p.actions)
  if !s.gauge.pressed then s.onRecovered p env hooks
  -- Without actions the monitor does not give up.
  else if 0 < p.actions then s.onExhausted p env hooks
  else .ok s

/-- `_on_low` (`_on_high`). -/
def onPressed : Except (RaisedCheck σ τ) (Checked σ τ) := do
  let s ← s.publish env hooks p.onPressed
  (s.apply hooks .degraded).runAndReport p env hooks

/-- `check_once`, up to its return. -/
def check : Except (RaisedCheck σ τ) (Checked σ τ) :=
  let wasPressed := s.gauge.pressed
  let s := s.read p env
  if s.gauge.pressed && !wasPressed then s.onPressed p env hooks
  else if !s.gauge.pressed && wasPressed then s.onRecovered p env hooks
  else .ok s

/-- `check_once`, and what it returns. -/
def checkOnce : Except (RaisedCheck σ τ) (Option σ × Checked σ τ) := do
  let s ← s.check p env hooks
  return (s.gauge.status, s)

/-- The monitor as a check leaves it, which may have raised. -/
def left : Except (RaisedCheck σ τ) (Checked σ τ) → Checked σ τ
  | .ok s => s
  | .error raised => raised.monitor

/-- The monitor after its first `n` checks. -/
def after (current : RuntimeState) : ℕ → Checked σ τ
  | 0 => { current := current }
  | n + 1 => left (((after current n).checkOnce p env hooks).map Prod.snd)

end Checked

/-! ### The same check, cut at its awaits -/

/-- A monitor with the await at which its poll stands. -/
structure Polled (σ τ : Type) where
  monitor : Checked σ τ
  poll : Option PressurePoll := none

/-- The part of the poll that is next. The first part takes a reading, and the one after an
action. -/
def Polled.advance (p : PressureMonitor σ τ) (env : Surroundings σ τ) (x : Polled σ τ) :
    Polled σ τ :=
  let s := x.monitor
  let part := p.turn (env.clock s.announced) (some (env.reading s.reads)) s.current s.gauge x.poll
  let t := part.met (env.audience s.announced)
  { monitor :=
      { current := t.current
        gauge := t.attributes
        reads := match x.poll with
          | none | some (.acting _) => s.reads + 1
          | some _ => s.reads
        ran := match x.poll with
          | some (.acting k) => s.ran ++ [(k, env.action s.ran.length)]
          | _ => s.ran
        announced := s.announced + part.published.length
        published := s.published ++ t.published }
    poll := t.poll }

/-- The poll comes to its end, and leaves the monitor `s`. -/
inductive Polled.Finishes (p : PressureMonitor σ τ) (env : Surroundings σ τ) :
    Polled σ τ → Checked σ τ → Prop where
  | done (s : Checked σ τ) : Finishes p env ⟨s, none⟩ s
  | more {s s' : Checked σ τ} {poll : PressurePoll}
      (h : Finishes p env (Polled.advance p env ⟨s, some poll⟩) s') :
      Finishes p env ⟨s, some poll⟩ s'

end EdgeSentinel.Monitoring
