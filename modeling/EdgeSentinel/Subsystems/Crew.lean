import EdgeSentinel.Monitoring.Monitors
import EdgeSentinel.Process.Supervisor
import EdgeSentinel.Process.Watchdog

/-!
# `EdgeSentinel.Subsystems.Crew`: a started runtime with its subsystems, and one `stop`

A subsystem reads the state, decides what to ask for, and asks. Here the two are separate
steps, and anything may happen in between. What a subsystem decides is its plan:
`networkPlan`, `pressurePlan` and `escalationPlan` are `_apply_to_runtime` and `_escalate` of
`network/monitor.py`, `storage/monitor.py`, `metrics/monitor.py`, `process/supervisor.py` and
`process/watchdog.py` up to their calls of `set_state`. A `Request` is what they read besides the
state.

`stop` goes from one of its awaits to the next: `shutdown` of `core/lifecycle.py`, `_on_stop` and
`stop` of `core/runtime.py`. The `stop` of a subsystem cancels its task and awaits it. The handlers
of a state change return, and so do the statements of the database.
-/

set_option autoImplicit false

namespace EdgeSentinel.Subsystems

open EdgeSentinel.Core
open EdgeSentinel.Monitoring (NetworkMonitor NetworkStatus StorageMonitor MetricsMonitor)
open EdgeSentinel.Process (SupervisorSettings WatchdogSettings)

/-- A registered subsystem. -/
inductive Kind where
  | network (m : NetworkMonitor)
  | storage (m : StorageMonitor)
  | metrics (m : MetricsMonitor)
  | supervisor (cfg : SupervisorSettings)
  | watchdog (cfg : WatchdogSettings)

/-- `_apply_to_runtime` of a network monitor, before its first `set_state`: the states it will ask
for. The way from OFFLINE to HEALTHY goes over DEGRADED. -/
def networkPlan (m : NetworkMonitor) (status : Option NetworkStatus) (current : NetworkStatus)
    (state : RuntimeState) : List RuntimeState :=
  let target := m.target status current
  if state ∉ RuntimeState.managedByNetwork then []
  else if target = state then []
  else if target = .healthy ∧ state = .offline then [.degraded, target]
  else [target]

/-- `_apply_to_runtime` of a storage or a metrics monitor. -/
def pressurePlan (target state : RuntimeState) : List RuntimeState :=
  if state ∉ RuntimeState.managedByPressure ∨ target = state then [] else [target]

/-- `_escalate`. -/
def escalationPlan (state : RuntimeState) : List RuntimeState :=
  if state ∈ RuntimeState.unsafeToEscalate then [] else [.failed]

/-- Why a subsystem turns to the runtime. -/
inductive Request where
  | connectivity (status : Option NetworkStatus) (current : NetworkStatus)
  | pressed
  | recovered
  | escalate

/-- What a subsystem decides when it reads the state. No subsystem decides otherwise. -/
def Kind.plan : Kind → Request → RuntimeState → List RuntimeState
  | .network m, .connectivity status current, state => networkPlan m status current state
  | .storage _, .pressed, state | .metrics _, .pressed, state => pressurePlan .degraded state
  | .storage _, .recovered, state | .metrics _, .recovered, state => pressurePlan .healthy state
  | .storage _, .escalate, state | .metrics _, .escalate, state => escalationPlan state
  | .supervisor cfg, .escalate, state => if cfg.hasSetState then escalationPlan state else []
  | .watchdog cfg, .escalate, state => if cfg.hasSetState then escalationPlan state else []
  | _, _, _ => []

/-- The task of a subsystem, as its attribute `_task` and the `stop` that awaits it know it. -/
inductive Task where
  | none
  | alive
  | cancelled
  | ended
  deriving DecidableEq, Repr

/-- Where `stop` stands. -/
inductive StopPhase where
  /-- It has not been called. -/
  | running
  /-- STOPPING is being notified. -/
  | notifying
  /-- The loop of `_on_stop` comes to the subsystems at these positions. -/
  | tearing (rest : List ℕ)
  /-- The `stop` of the subsystem at a position is awaited. -/
  | awaiting (i : ℕ) (rest : List ℕ)
  /-- STOPPED is being notified. -/
  | leaving
  | saving
  | closing
  | returned
  /-- A transition was refused. -/
  | raised
  deriving DecidableEq, Repr

/-- A started runtime with its subsystems. -/
structure Crew where
  current : RuntimeState
  /-- What is still to be asked for by each caller that has read the state. -/
  plans : ℕ → List RuntimeState
  tasks : ℕ → Task
  phase : StopPhase := .running
  /-- The states that were entered. -/
  states : List RuntimeState := []
  /-- The subsystems whose `stop` was called. -/
  stopCalls : List ℕ := []
  /-- The subsystems whose `stop` raised, which is logged. -/
  failures : List ℕ := []
  saved : Option RuntimeState := none
  databaseOpen : Bool := true

/-- What happens next. -/
inductive CrewStep where
  /-- The subsystem at position `i` reads the state. -/
  | read (id i : ℕ) (request : Request)
  /-- A caller asks for the next state of its plan. -/
  | ask (id : ℕ)
  /-- A caller is cancelled at an await. -/
  | drop (id : ℕ)
  /-- A task ends. A supervisor that gives up forgets it. -/
  | taskEnds (i : ℕ) (forgets : Bool)
  /-- `stop` is called. -/
  | stop
  | notified
  | stopSubsystem
  | subsystemStopped (raises : Bool)
  | stopped
  | left
  | saved
  | closed

/-- The steps of `stop` itself. -/
def CrewStep.isStop : CrewStep → Bool
  | .read .. | .ask _ | .drop _ | .taskEnds .. => false
  | _ => true

namespace Crew

variable (kinds : List Kind) (w : Crew)

/-- `transition`, and what comes after it. -/
def transition (target : RuntimeState) (after : Crew → Crew) (refused : Crew → Crew) : Crew :=
  match StateMachine.transition w.current target with
  | .error _ => refused w
  | .ok (previous, current) =>
    if previous = current then after w
    else after { w with current := current, states := w.states ++ [current] }

/-- A legal transition. -/
theorem transition_of_mem {w : Crew} {target : RuntimeState}
    (h : target ∈ w.current.transitions)
    (after refused : Crew → Crew) :
    w.transition target after refused
      = after { w with current := target, states := w.states ++ [target] } := by
  have hne : w.current ≠ target := by
    intro heq
    exact RuntimeState.not_mem_transitions_self _ (heq ▸ h)
  simp only [transition, StateMachine.transition_of_mem h]
  rw [if_neg hne]

/-- A transition to the current state. -/
theorem transition_self (after refused : Crew → Crew) :
    w.transition w.current after refused = after w := by
  simp [transition, StateMachine.transition_self]

/-- A refused transition. -/
theorem transition_of_not_mem {w : Crew} {target : RuntimeState} (hne : target ≠ w.current)
    (h : target ∉ w.current.transitions) (after refused : Crew → Crew) :
    w.transition target after refused = refused w := by
  simp [transition, StateMachine.transition_of_not_mem hne h]

/-- The caller `id` goes on with a plan. -/
def plan (id : ℕ) (states : List RuntimeState) : Crew :=
  { w with plans := Function.update w.plans id states }

@[simp] theorem plan_plans (id : ℕ) (states : List RuntimeState) :
    (w.plan id states).plans = Function.update w.plans id states := rfl

/-- `set_state`. A refused transition ends the plan. -/
def ask (id : ℕ) : Crew :=
  match w.plans id with
  | [] => w
  | target :: rest => w.transition target (fun w => w.plan id rest) fun w => w.plan id []

/-- A caller goes on with its plan after a transition, and drops it when it is refused. -/
theorem ask_cases {w : Crew} {id : ℕ} {target : RuntimeState} {rest : List RuntimeState}
    (hplan : w.plans id = target :: rest) :
    (target = w.current ∧ w.ask id = w.plan id rest) ∨
      (target ∈ w.current.transitions ∧
        w.ask id = { w with
          current := target
          states := w.states ++ [target] }.plan id rest) ∨
      (target ≠ w.current ∧ target ∉ w.current.transitions ∧ w.ask id = w.plan id []) := by
  unfold ask
  rw [hplan]
  by_cases hself : target = w.current
  · subst hself
    exact Or.inl ⟨rfl, transition_self w _ _⟩
  · by_cases hmem : target ∈ w.current.transitions
    · exact Or.inr (Or.inl ⟨hmem, transition_of_mem hmem _ _⟩)
    · exact Or.inr (Or.inr ⟨hself, hmem, transition_of_not_mem hself hmem _ _⟩)

/-- The attribute or the task of a subsystem changes. -/
def setTask (i : ℕ) (task : Task) : Crew := { w with tasks := Function.update w.tasks i task }

@[simp] theorem setTask_tasks (i : ℕ) (task : Task) :
    (w.setTask i task).tasks = Function.update w.tasks i task := rfl

/-- A task ends by itself, or by its cancellation. -/
def taskEnds (i : ℕ) (forgets : Bool) : Crew :=
  match w.tasks i with
  | .alive => w.setTask i (if forgets then .none else .ended)
  | .cancelled => w.setTask i .ended
  | _ => w

/-- The `stop` of the next subsystem, up to the await of its task. -/
def stopSubsystem : Crew :=
  match w.phase with
  | .tearing (i :: rest) =>
    { (if w.tasks i = .alive then w.setTask i .cancelled else w) with
      phase := .awaiting i rest
      stopCalls := w.stopCalls ++ [i] }
  | _ => w

/-- The `stop` of a subsystem returns or raises, and the loop goes on. -/
def subsystemStopped (raises : Bool) : Crew :=
  match w.phase with
  | .awaiting i rest =>
    { w.setTask i .none with
      phase := .tearing rest
      failures := if raises then w.failures ++ [i] else w.failures }
  | _ => w

/-- The loop of `_on_stop` is about to take a subsystem. -/
def tearsNext : Bool :=
  match w.phase with
  | .tearing (_ :: _) => true
  | _ => false

/-- The task that the `stop` of a subsystem awaits has ended, or there was none. -/
def awaitIsOver : Bool :=
  match w.phase with
  | .awaiting i _ => w.tasks i = .none || w.tasks i = .ended
  | _ => false

/-- When a step can happen. -/
def Enabled : CrewStep → Prop
  | .read id i _ => w.plans id = [] ∧ i < kinds.length
  | .ask id => w.plans id ≠ []
  | .drop id => w.plans id ≠ []
  | .taskEnds i _ => w.tasks i = .alive ∨ w.tasks i = .cancelled
  | .stop => w.phase = .running
  | .notified => w.phase = .notifying
  | .stopSubsystem => w.tearsNext = true
  | .subsystemStopped _ => w.awaitIsOver = true
  | .stopped => w.phase = .tearing []
  | .left => w.phase = .leaving
  | .saved => w.phase = .saving
  | .closed => w.phase = .closing

instance : ∀ e, Decidable (w.Enabled kinds e)
  | .read id i _ => inferInstanceAs (Decidable (w.plans id = [] ∧ i < kinds.length))
  | .ask id => inferInstanceAs (Decidable (w.plans id ≠ []))
  | .drop id => inferInstanceAs (Decidable (w.plans id ≠ []))
  | .taskEnds i _ => inferInstanceAs (Decidable (w.tasks i = .alive ∨ w.tasks i = .cancelled))
  | .stop => inferInstanceAs (Decidable (w.phase = .running))
  | .notified => inferInstanceAs (Decidable (w.phase = .notifying))
  | .stopSubsystem => inferInstanceAs (Decidable (w.tearsNext = true))
  | .subsystemStopped _ => inferInstanceAs (Decidable (w.awaitIsOver = true))
  | .stopped => inferInstanceAs (Decidable (w.phase = .tearing []))
  | .left => inferInstanceAs (Decidable (w.phase = .leaving))
  | .saved => inferInstanceAs (Decidable (w.phase = .saving))
  | .closed => inferInstanceAs (Decidable (w.phase = .closing))

/-- What a step does. -/
def next : CrewStep → Crew
  | .read id i request => w.plan id ((kinds[i]?).elim [] fun kind => kind.plan request w.current)
  | .ask id => w.ask id
  | .drop id => w.plan id []
  | .taskEnds i forgets => w.taskEnds i forgets
  | .stop => w.transition .stopping (fun w => { w with phase := .notifying })
      fun w => { w with phase := .raised }
  | .notified => { w with phase := .tearing (List.range kinds.length).reverse }
  | .stopSubsystem => w.stopSubsystem
  | .subsystemStopped raises => w.subsystemStopped raises
  | .stopped => w.transition .stopped (fun w => { w with phase := .leaving })
      fun w => { w with phase := .raised }
  | .left => { w with phase := .saving }
  | .saved => { w with phase := .closing, saved := some w.current }
  | .closed => { w with phase := .returned, databaseOpen := false }

/-- The step function. -/
def step : Crew → CrewStep → Option Crew := Run.guarded (Enabled kinds) (next kinds)

/-- `boot` has entered HEALTHY. Before that no subsystem can have read a state from which it asks
for more than FAILED. -/
structure Started : Prop where
  current : w.current = .healthy
  plans : ∀ id, w.plans id = [] ∨ w.plans id = [.failed]
  phase : w.phase = .running
  states : w.states = []
  stopCalls : w.stopCalls = []
  databaseOpen : w.databaseOpen = true

end Crew

end EdgeSentinel.Subsystems
