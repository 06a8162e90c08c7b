import EdgeSentinel.Library.Keyed
import EdgeSentinel.Library.Run

/-!
# `EdgeSentinel.Monitoring.Polling`: the poll loops of a monitor

`start`, `stop` and `_poll_loop` are the same code in `network/monitor.py`,
`storage/monitor.py`, `metrics/monitor.py` and `process/watchdog.py`. The monitors differ in
whether the initial `check_once` can raise.

`start` looks at `_task`, awaits the initial check, and then fills `_task`. A call of `start`
is in `starting` while it awaits the check. A call of `stop` empties `_task` at once, and is in
`stopping` while it awaits the task. The loop it has cancelled ends at some later step. A loop
has the number of the `start` that created it.
-/

set_option autoImplicit false

namespace EdgeSentinel.Monitoring

/-- What the four monitors differ in. -/
structure Poller where
  /-- The initial `check_once` can raise an `Exception`. -/
  checkRaises : Bool

/-- A check that raises counts as a layer that fails. -/
def NetworkMonitor.poller : Poller := ⟨false⟩

/-- `usage_check` can raise. -/
def StorageMonitor.poller : Poller := ⟨true⟩

/-- `metrics_check` can raise. -/
def MetricsMonitor.poller : Poller := ⟨true⟩

/-- The targets can change during the check. -/
def Watchdog.poller : Poller := ⟨true⟩

/-- A poll-loop task that is alive. -/
structure PollLoop where
  id : Nat
  cancelled : Bool := false
  deriving DecidableEq, Repr

/-- A call of `stop` that awaits a loop. -/
structure StopCall where
  id : Nat
  loop : Nat
  deriving DecidableEq, Repr

/-- A monitor with its loops and the calls of `start` and `stop` that are in progress. -/
structure Polling where
  /-- The attribute `_task`. -/
  task : Option Nat := none
  loops : List PollLoop := []
  starting : List Nat := []
  stopping : List StopCall := []
  /-- The most recent call was a `stop`. -/
  stopped : Bool := false
  deriving DecidableEq, Repr

/-- What happens next. -/
inductive PollingStep where
  | start (id : Nat)
  /-- The initial check of a `start` returns, and the loop is created. -/
  | checked (id : Nat)
  /-- The initial check of a `start` raises, and so does the `start`. -/
  | checkRaised (id : Nat)
  | stop (id : Nat)
  /-- A cancelled loop ends. -/
  | ended (loop : Nat)
  /-- The loop that a `stop` awaits has ended, and the `stop` returns. -/
  | stopReturned (id : Nat)
  deriving DecidableEq, Repr

namespace Polling

variable (m : Poller)

/-- When a step can happen. -/
def Enabled (w : Polling) : PollingStep → Prop
  | .start id =>
    id ∉ w.starting ∧ id ∉ w.loops.map (·.id) ∧ id ∉ w.stopping.map (·.loop)
  | .checked id => id ∈ w.starting
  | .checkRaised id => m.checkRaises ∧ id ∈ w.starting
  | .stop id => id ∉ w.stopping.map (·.id)
  | .ended loop => ∃ l ∈ w.loops, l.id = loop ∧ l.cancelled
  | .stopReturned id => ∃ s ∈ w.stopping, s.id = id ∧ s.loop ∉ w.loops.map (·.id)

instance (w : Polling) : ∀ e, Decidable (w.Enabled m e)
  | .start id => inferInstanceAs (Decidable
      (id ∉ w.starting ∧ id ∉ w.loops.map (·.id) ∧ id ∉ w.stopping.map (·.loop)))
  | .checked id => inferInstanceAs (Decidable (id ∈ w.starting))
  | .checkRaised id => inferInstanceAs (Decidable (m.checkRaises ∧ id ∈ w.starting))
  | .stop id => inferInstanceAs (Decidable (id ∉ w.stopping.map (·.id)))
  | .ended loop => inferInstanceAs (Decidable (∃ l ∈ w.loops, l.id = loop ∧ l.cancelled))
  | .stopReturned id => inferInstanceAs
      (Decidable (∃ s ∈ w.stopping, s.id = id ∧ s.loop ∉ w.loops.map (·.id)))

/-- `start`, up to the await of the initial check. -/
def start (w : Polling) (id : Nat) : Polling :=
  if w.task.isSome then { w with stopped := false }
  else { w with starting := id :: w.starting, stopped := false }

/-- The end of `start`: `_task` is filled, whatever it holds by now. -/
def createLoop (w : Polling) (id : Nat) : Polling :=
  { w with
    task := some id
    loops := { id := id } :: w.loops
    starting := w.starting.filter (· ≠ id) }

/-- `stop`, up to the await of the task. -/
def stop (w : Polling) (id : Nat) : Polling :=
  match w.task with
  | none => { w with stopped := true }
  | some loop =>
    { w with
      task := none
      loops := w.loops.map fun l => if l.id = loop then { l with cancelled := true } else l
      stopping := ⟨id, loop⟩ :: w.stopping
      stopped := true }

/-- What a step does. -/
def next (w : Polling) : PollingStep → Polling
  | .start id => w.start id
  | .checked id => w.createLoop id
  | .checkRaised id => { w with starting := w.starting.filter (· ≠ id) }
  | .stop id => w.stop id
  | .ended loop => { w with loops := w.loops.filter (·.id ≠ loop) }
  | .stopReturned id => { w with stopping := w.stopping.filter (·.id ≠ id) }

/-- The step function. -/
def step : Polling → PollingStep → Option Polling :=
  Run.guarded (Enabled m) next

end Polling

end EdgeSentinel.Monitoring
