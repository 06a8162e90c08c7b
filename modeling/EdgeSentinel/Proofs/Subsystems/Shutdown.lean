import EdgeSentinel.Subsystems.Crew

/-!
# `EdgeSentinel.Proofs.Subsystems.Shutdown`: no subsystem fights failure or shutdown

A subsystem asks for HEALTHY, DEGRADED, OFFLINE or FAILED, however old its reading of the state is.
FAILED, STOPPING and STOPPED have no edge to any of these, and STOPPING is reached from each of
them. So the invariant `Orderly` survives every ask (`Orderly.ask`), and `stop` meets no refused
transition.

`left` counts the steps that `stop` still has to make. `crew_shutdown` is about all runs.
-/

set_option autoImplicit false

namespace EdgeSentinel.Proofs.Subsystems

open EdgeSentinel.Core
open EdgeSentinel.Subsystems
open EdgeSentinel.Subsystems.Crew

variable {kinds : List Kind} {n : ℕ} {w : Crew}

/-! ### What subsystems ask for -/

/-- The states that subsystems ask for. A started runtime is in one of them until `stop`. -/
def askable : List RuntimeState := [.healthy, .degraded, .offline, .failed]

theorem mem_askable_of_escalationPlan (state : RuntimeState) :
    ∀ target ∈ escalationPlan state, target ∈ askable := by
  unfold escalationPlan
  split <;> simp [askable]

theorem mem_askable_of_pressurePlan {target : RuntimeState} (h : target ∈ askable)
    (state : RuntimeState) : ∀ x ∈ pressurePlan target state, x ∈ askable := by
  unfold pressurePlan
  split <;> simp [h]

theorem mem_askable_of_networkPlan (m : Monitoring.NetworkMonitor)
    (status : Option Monitoring.NetworkStatus) (current : Monitoring.NetworkStatus)
    (state : RuntimeState) : ∀ x ∈ networkPlan m status current state, x ∈ askable := by
  have htarget : m.target status current ∈ askable := by
    unfold Monitoring.NetworkMonitor.target
    split
    · decide
    · split <;> decide
  have hdegraded : RuntimeState.degraded ∈ askable := by decide
  unfold networkPlan
  dsimp only
  split
  · simp
  · split
    · simp
    · split <;> simp [htarget, hdegraded]

/-- No plan asks for anything else. -/
theorem mem_askable_of_plan (kind : Kind) (request : Request) (state : RuntimeState) :
    ∀ target ∈ kind.plan request state, target ∈ askable := by
  have hescalation := mem_askable_of_escalationPlan state
  have hdegraded := mem_askable_of_pressurePlan (show .degraded ∈ askable by decide) state
  have hhealthy := mem_askable_of_pressurePlan (show .healthy ∈ askable by decide) state
  unfold Kind.plan
  split
  · exact mem_askable_of_networkPlan _ _ _ _
  · exact hdegraded
  · exact hdegraded
  · exact hhealthy
  · exact hhealthy
  · exact hescalation
  · exact hescalation
  -- A supervisor and a watchdog without a runtime ask for nothing.
  · split
    · exact hescalation
    · simp
  · split
    · exact hescalation
    · simp
  · simp

/-- What is asked for is refused in FAILED, in STOPPING and in STOPPED, unless it is FAILED. -/
theorem not_mem_transitions {target : RuntimeState} (h : target ∈ askable) :
    target ∉ RuntimeState.failed.transitions ∧ target ∉ RuntimeState.stopping.transitions ∧
      target ∉ RuntimeState.stopped.transitions := by
  revert h
  cases target <;> decide

/-- A runtime in such a state can be stopped. -/
theorem stopping_mem_transitions {state : RuntimeState} (h : state ∈ askable) :
    .stopping ∈ state.transitions := by
  revert h
  cases state <;> decide

/-! ### The invariant -/

/-- The states that `stop` has entered. -/
def entered : StopPhase → List RuntimeState
  | .running | .raised => []
  | .notifying | .tearing _ | .awaiting .. => [.stopping]
  | .leaving | .saving | .closing | .returned => [.stopping, .stopped]

/-- `stop` enters STOPPING first, and then STOPPED. -/
theorem entered_cases (phase : StopPhase) :
    entered phase = [] ∨ entered phase = [.stopping] ∨ entered phase = [.stopping, .stopped] := by
  cases phase <;> simp [entered]

theorem stopping_mem_entered {phase : StopPhase} (h : phase ≠ .raised) :
    .stopping ∈ entered phase ↔ phase ≠ .running := by
  cases phase <;> simp [entered] at h ⊢

/-- The subsystems that are still to be stopped. -/
def remaining (n : ℕ) : StopPhase → List ℕ
  | .running | .notifying | .raised => (List.range n).reverse
  | .tearing rest | .awaiting _ rest => rest
  | .leaving | .saving | .closing | .returned => []

/-- STOPPED is entered when all of them have been. -/
theorem remaining_of_entered {phase : StopPhase} (h : entered phase = [.stopping, .stopped]) :
    remaining n phase = [] := by
  cases phase <;> simp [entered, remaining] at h ⊢

/-- The steps that `stop` still has to make. -/
def left (n : ℕ) : StopPhase → ℕ
  | .running | .raised => 2 * n + 6
  | .notifying => 2 * n + 5
  | .tearing rest => 2 * rest.length + 4
  | .awaiting _ rest => 2 * rest.length + 5
  | .leaving => 3
  | .saving => 2
  | .closing => 1
  | .returned => 0

/-- The current state is the last one that was entered, and HEALTHY before that. -/
def lastState (states : List RuntimeState) : RuntimeState := states.getLast?.getD .healthy

@[simp] theorem lastState_append_singleton (states : List RuntimeState) (state : RuntimeState) :
    lastState (states ++ [state]) = state := by
  simp [lastState]

/-- The states before STOPPING. -/
structure Ran (states : List RuntimeState) : Prop where
  mem_askable : ∀ state ∈ states, state ∈ askable
  failed : .failed ∈ states → lastState states = .failed

theorem Ran.nil : Ran [] := ⟨by simp, by simp⟩

/-- Another state can follow unless the last one is FAILED. -/
theorem Ran.snoc {states : List RuntimeState} {state : RuntimeState} (h : Ran states)
    (hstate : state ∈ askable) (hlast : lastState states ≠ .failed) : Ran (states ++ [state]) := by
  constructor
  · intro x hx
    rcases List.mem_append.mp hx with hx | hx
    · exact h.mem_askable x hx
    · rw [List.mem_singleton.mp hx]
      exact hstate
  · intro hfailed
    rcases List.mem_append.mp hfailed with hfailed | hfailed
    · exact absurd (h.failed hfailed) hlast
    · rw [lastState_append_singleton, List.mem_singleton.mp hfailed]

theorem Ran.lastState_mem {states : List RuntimeState} (h : Ran states) :
    lastState states ∈ askable := by
  unfold lastState
  cases hlast : states.getLast? with
  | none => decide
  | some state => exact h.mem_askable state (List.mem_of_getLast? hlast)

/-- The invariant of a started runtime with `n` subsystems and its `stop`. -/
structure Orderly (n : ℕ) (w : Crew) : Prop where
  plans : ∀ id, ∀ target ∈ w.plans id, target ∈ askable
  notRaised : w.phase ≠ .raised
  states : ∃ ran, Ran ran ∧ w.states = ran ++ entered w.phase
  current : w.current = lastState w.states
  order : w.stopCalls ++ remaining n w.phase = (List.range n).reverse
  awaited : ∀ i rest, w.phase = .awaiting i rest → w.tasks i ≠ .alive
  saved : w.phase = .closing ∨ w.phase = .returned → w.saved = some .stopped
  database : w.databaseOpen = true ↔ w.phase ≠ .returned

/-- The state in each phase of `stop`. -/
theorem Orderly.current_cases (h : Orderly n w) :
    (w.phase = .running ∧ w.current ∈ askable) ∨
      (entered w.phase = [.stopping] ∧ w.current = .stopping) ∨
      (entered w.phase = [.stopping, .stopped] ∧ w.current = .stopped) := by
  obtain ⟨ran, hran, hstates⟩ := h.states
  have hcurrent : w.current = lastState (ran ++ entered w.phase) := hstates ▸ h.current
  have hstopping : lastState (ran ++ [.stopping]) = .stopping := lastState_append_singleton _ _
  have hstopped : lastState (ran ++ [.stopping, .stopped]) = .stopped := by
    simp [lastState]
  cases hphase : w.phase with
  | running =>
    rw [hphase, entered, List.append_nil] at hcurrent
    exact Or.inl ⟨rfl, hcurrent ▸ hran.lastState_mem⟩
  | raised => exact absurd hphase h.notRaised
  | notifying | tearing _ | awaiting _ _ =>
    rw [hphase] at hcurrent
    exact Or.inr (Or.inl ⟨rfl, hcurrent.trans hstopping⟩)
  | leaving | saving | closing | returned =>
    rw [hphase] at hcurrent
    exact Or.inr (Or.inr ⟨rfl, hcurrent.trans hstopped⟩)

theorem Orderly.current_askable (h : Orderly n w) (hphase : w.phase = .running) :
    w.current ∈ askable := by
  rcases h.current_cases with ⟨_, hcurrent⟩ | ⟨hentered, _⟩ | ⟨hentered, _⟩
  · exact hcurrent
  · simp [hphase, entered] at hentered
  · simp [hphase, entered] at hentered

theorem Orderly.current_stopping (h : Orderly n w) (hphase : entered w.phase = [.stopping]) :
    w.current = .stopping := by
  rcases h.current_cases with ⟨hrunning, _⟩ | ⟨_, hcurrent⟩ | ⟨hentered, _⟩
  · simp [hrunning, entered] at hphase
  · exact hcurrent
  · simp [hphase] at hentered

theorem Orderly.current_stopped (h : Orderly n w)
    (hphase : entered w.phase = [.stopping, .stopped]) : w.current = .stopped := by
  rcases h.current_cases with ⟨hrunning, _⟩ | ⟨hentered, _⟩ | ⟨_, hcurrent⟩
  · simp [hrunning, entered] at hphase
  · simp [hphase] at hentered
  · exact hcurrent

/-! ### Steps that keep the invariant -/

/-- A caller can go on with any plan of askable states. -/
theorem Orderly.plan (h : Orderly n w) (id : ℕ) {states : List RuntimeState}
    (hstates : ∀ target ∈ states, target ∈ askable) : Orderly n (w.plan id states) where
  plans := by
    intro i target ht
    by_cases hi : i = id
    · subst hi
      rw [plan_plans, Function.update_self] at ht
      exact hstates target ht
    · rw [plan_plans, Function.update_of_ne hi] at ht
      exact h.plans i target ht
  notRaised := h.notRaised
  states := h.states
  current := h.current
  order := h.order
  awaited := h.awaited
  saved := h.saved
  database := h.database

/-- A running runtime may move to an askable state, unless it is FAILED. -/
theorem Orderly.move (h : Orderly n w) (hphase : w.phase = .running) {target : RuntimeState}
    (htarget : target ∈ askable) (hfailed : w.current ≠ .failed) :
    Orderly n { w with current := target, states := w.states ++ [target] } where
  plans := h.plans
  notRaised := h.notRaised
  states := by
    obtain ⟨ran, hran, hstates⟩ := h.states
    rw [hphase, entered, List.append_nil] at hstates
    have hlast : lastState ran ≠ .failed := by
      rw [← hstates, ← h.current]
      exact hfailed
    -- No state of `stop` has been entered, so the new one is one of the states before it.
    refine ⟨ran ++ [target], hran.snoc htarget hlast, ?_⟩
    simp [hstates, hphase, entered]
  current := (lastState_append_singleton _ _).symm
  order := h.order
  awaited := h.awaited
  saved := h.saved
  database := h.database

/-- However old its reading of the state is, what a caller asks for does no harm. -/
theorem Orderly.ask (h : Orderly n w) (id : ℕ) : Orderly n (w.ask id) := by
  cases hplan : w.plans id with
  | nil =>
    rw [Crew.ask, hplan]
    exact h
  | cons target rest =>
    have hall : ∀ x ∈ target :: rest, x ∈ askable := hplan ▸ h.plans id
    have htarget : target ∈ askable := hall target List.mem_cons_self
    have hrest : ∀ x ∈ rest, x ∈ askable := fun x hx => hall x (List.mem_cons_of_mem _ hx)
    obtain ⟨hfailed, hstopping, hstopped⟩ := not_mem_transitions htarget
    rcases ask_cases hplan with ⟨_, hask⟩ | ⟨hmem, hask⟩ | ⟨_, _, hask⟩
    · rw [hask]
      exact h.plan id hrest
    · rw [hask]
      -- Only a running runtime that is not FAILED has an edge to what is asked for.
      rcases h.current_cases with ⟨hphase, _⟩ | ⟨_, hcurrent⟩ | ⟨_, hcurrent⟩
      · exact (h.move hphase htarget fun heq => hfailed (heq ▸ hmem)).plan id hrest
      · exact absurd (hcurrent ▸ hmem) hstopping
      · exact absurd (hcurrent ▸ hmem) hstopped
    · rw [hask]
      exact h.plan id (by simp)

/-- A task may change, but it does not come to life again. -/
theorem Orderly.setTask (h : Orderly n w) (i : ℕ) {task : Task} (htask : task ≠ .alive) :
    Orderly n (w.setTask i task) where
  plans := h.plans
  notRaised := h.notRaised
  states := h.states
  current := h.current
  order := h.order
  awaited := by
    intro j rest hphase
    by_cases hj : j = i
    · subst hj
      rw [setTask_tasks, Function.update_self]
      exact htask
    · rw [setTask_tasks, Function.update_of_ne hj]
      exact h.awaited j rest hphase
  saved := h.saved
  database := h.database

/-- `stop` goes on without a move of the state and without another subsystem. -/
theorem Orderly.goOn (h : Orderly n w) {phase : StopPhase} (failures : List ℕ)
    (hentered : entered phase = entered w.phase)
    (hremaining : remaining n phase = remaining n w.phase)
    (hphase : phase ∉ [.raised, .closing, .returned]) (hopen : w.phase ≠ .returned)
    (hawaited : ∀ i rest, phase ≠ .awaiting i rest) :
    Orderly n { w with phase := phase, failures := failures } where
  plans := h.plans
  notRaised := fun heq => hphase (by simp [show phase = .raised from heq])
  states := by
    rw [hentered]
    exact h.states
  current := h.current
  order := by
    rw [hremaining]
    exact h.order
  awaited := fun i rest heq => absurd heq (hawaited i rest)
  saved := by
    -- The two phases after the save are not entered here.
    rintro (heq | heq)
    · exact absurd (show phase = .closing from heq) (by rintro rfl; simp at hphase)
    · exact absurd (show phase = .returned from heq) (by rintro rfl; simp at hphase)
  database := by
    have hne : phase ≠ .returned := by
      rintro rfl
      simp at hphase
    simp [h.database, hopen, hne]

/-- `stop` enters a state. -/
theorem Orderly.enter (h : Orderly n w) {phase : StopPhase} {target : RuntimeState}
    (hentered : entered phase = entered w.phase ++ [target])
    (hremaining : remaining n phase = remaining n w.phase)
    (hphase : phase = .notifying ∨ phase = .leaving) (hopen : w.phase ≠ .returned) :
    Orderly n { w with
      current := target
      states := w.states ++ [target]
      phase := phase } where
  plans := h.plans
  notRaised := by rcases hphase with rfl | rfl <;> simp
  states := by
    obtain ⟨ran, hran, hstates⟩ := h.states
    exact ⟨ran, hran, by simp [hstates, hentered]⟩
  current := (lastState_append_singleton _ _).symm
  order := by
    rw [hremaining]
    exact h.order
  awaited := by rcases hphase with rfl | rfl <;> simp
  saved := by rcases hphase with rfl | rfl <;> simp
  database := by rcases hphase with rfl | rfl <;> simp [h.database, hopen]

/-- The `stop` of the next subsystem has cancelled its task. -/
theorem Orderly.await (h : Orderly n w) {i : ℕ} {rest : List ℕ}
    (hphase : w.phase = .tearing (i :: rest)) (htask : w.tasks i ≠ .alive) :
    Orderly n { w with
      phase := .awaiting i rest
      stopCalls := w.stopCalls ++ [i] } where
  plans := h.plans
  notRaised := by simp
  states := by
    have hstates := h.states
    rw [hphase] at hstates
    exact hstates
  current := h.current
  order := by
    have horder := h.order
    rw [hphase, remaining] at horder
    simp [remaining, horder]
  awaited := by
    intro j rest' heq
    obtain ⟨rfl, rfl⟩ := StopPhase.awaiting.inj heq
    exact htask
  saved := by simp
  database := by simp [h.database, hphase]

/-- `stop` is accepted. -/
theorem Orderly.next_stop (h : Orderly n w) (hphase : w.phase = .running) :
    w.next kinds .stop = { w with
      current := .stopping
      states := w.states ++ [.stopping]
      phase := .notifying } := by
  rw [Crew.next, transition_of_mem (stopping_mem_transitions (h.current_askable hphase))]

/-- So is the move to STOPPED. -/
theorem Orderly.next_stopped (h : Orderly n w) (hphase : w.phase = .tearing []) :
    w.next kinds .stopped = { w with
      current := .stopped
      states := w.states ++ [.stopped]
      phase := .leaving } := by
  have hmem : .stopped ∈ w.current.transitions := by
    rw [h.current_stopping (by rw [hphase, entered])]
    decide
  rw [Crew.next, transition_of_mem hmem]

/-- A task that ends keeps the invariant. -/
theorem Orderly.taskEnds (h : Orderly n w) (i : ℕ) (forgets : Bool) :
    Orderly n (w.taskEnds i forgets) := by
  unfold Crew.taskEnds
  split
  · refine h.setTask i ?_
    split <;> simp
  · exact h.setTask i (by simp)
  · exact h

/-- `stop` comes to the next subsystem. -/
theorem Orderly.stopSubsystem (h : Orderly n w) : Orderly n w.stopSubsystem := by
  unfold Crew.stopSubsystem
  split
  case h_1 i rest hphase =>
    -- A task that has ended, or that was never there, is not cancelled.
    by_cases halive : w.tasks i = .alive
    · rw [if_pos halive]
      have hcancelled : Orderly n (w.setTask i .cancelled) := h.setTask i (by simp)
      exact hcancelled.await hphase (by simp)
    · rw [if_neg halive]
      exact h.await hphase halive
  case h_2 => exact h

/-- The loop goes on however the `stop` of a subsystem ends. -/
theorem Orderly.subsystemStopped (h : Orderly n w) (raises : Bool) :
    Orderly n (w.subsystemStopped raises) := by
  unfold Crew.subsystemStopped
  split
  case h_1 i rest hphase =>
    have hforgotten : Orderly n (w.setTask i .none) := h.setTask i (by simp)
    have hphase' : (w.setTask i .none).phase = .awaiting i rest := hphase
    refine hforgotten.goOn _ ?_ ?_ (by simp) (by simp [hphase']) (by simp)
    · rw [hphase', entered, entered]
    · rw [hphase', remaining, remaining]
  case h_2 => exact h

/-- The step lemma. -/
theorem Orderly.next (h : Orderly kinds.length w) {e : CrewStep} (he : w.Enabled kinds e) :
    Orderly kinds.length (w.next kinds e) := by
  cases e with
  | read id i request =>
    refine h.plan id ?_
    cases kinds[i]? with
    | none => simp
    | some kind => exact mem_askable_of_plan kind request w.current
  | ask id => exact h.ask id
  | drop id => exact h.plan id (by simp)
  | taskEnds i forgets => exact h.taskEnds i forgets
  | stop =>
    have hphase : w.phase = .running := he
    rw [h.next_stop hphase]
    refine h.enter ?_ ?_ (Or.inl rfl) (by simp [hphase])
    · rw [hphase, entered, entered, List.nil_append]
    · rw [hphase, remaining, remaining]
  | notified =>
    have hphase : w.phase = .notifying := he
    refine h.goOn w.failures ?_ ?_ (by simp) (by simp [hphase]) (by simp)
    · rw [hphase, entered, entered]
    · rw [hphase, remaining, remaining]
  | stopSubsystem => exact h.stopSubsystem
  | subsystemStopped raises => exact h.subsystemStopped raises
  | stopped =>
    have hphase : w.phase = .tearing [] := he
    rw [h.next_stopped hphase]
    refine h.enter ?_ ?_ (Or.inr rfl) (by simp [hphase])
    · rw [hphase, entered, entered, List.singleton_append]
    · rw [hphase, remaining, remaining]
  | left =>
    have hphase : w.phase = .leaving := he
    refine h.goOn w.failures ?_ ?_ (by simp) (by simp [hphase]) (by simp)
    · rw [hphase, entered, entered]
    · rw [hphase, remaining, remaining]
  | saved =>
    -- The state that is written is STOPPED: the machine entered it before it saved.
    have hphase : w.phase = .saving := he
    have hcurrent := h.current_stopped (by rw [hphase, entered])
    exact {
      plans := h.plans
      notRaised := by simp [Crew.next]
      states := by simpa [Crew.next, hphase, entered] using h.states
      current := h.current
      order := by simpa [Crew.next, hphase, remaining] using h.order
      awaited := by simp [Crew.next]
      saved := fun _ => congrArg some hcurrent
      database := by simp [Crew.next, h.database, hphase] }
  | closed =>
    have hphase : w.phase = .closing := he
    exact {
      plans := h.plans
      notRaised := by simp [Crew.next]
      states := by simpa [Crew.next, hphase, entered] using h.states
      current := h.current
      order := by simpa [Crew.next, hphase, remaining] using h.order
      awaited := by simp [Crew.next]
      saved := fun _ => h.saved (Or.inl hphase)
      database := by simp [Crew.next] }

/-! ### `stop` comes to its end -/

/-- A step of a subsystem or of a caller leaves `stop` where it is. -/
theorem phase_next {e : CrewStep} (he : e.isStop = false) : (w.next kinds e).phase = w.phase := by
  cases e with
  | read id i request => rfl
  | ask id =>
    show (w.ask id).phase = w.phase
    unfold Crew.ask Crew.transition
    split
    · rfl
    · split
      · rfl
      · split <;> rfl
  | drop id => rfl
  | taskEnds i forgets =>
    show (w.taskEnds i forgets).phase = w.phase
    unfold Crew.taskEnds
    split <;> rfl
  | _ => simp [CrewStep.isStop] at he

/-- Each step of `stop` brings it nearer to its end, and no other step does. -/
theorem Orderly.left_next (h : Orderly kinds.length w) {e : CrewStep} (he : w.Enabled kinds e) :
    left kinds.length (w.next kinds e).phase + (if e.isStop then 1 else 0)
      = left kinds.length w.phase := by
  cases e with
  | read | ask | drop | taskEnds =>
    rw [phase_next rfl]
    rfl
  | stop =>
    have hphase : w.phase = .running := he
    rw [h.next_stop hphase, hphase]
    rfl
  | notified =>
    have hphase : w.phase = .notifying := he
    rw [hphase]
    simp [Crew.next, left, CrewStep.isStop]
  | stopSubsystem =>
    have htears : w.tearsNext = true := he
    unfold tearsNext at htears
    split at htears
    case h_1 i rest hphase =>
      have hnext : (w.next kinds .stopSubsystem).phase = .awaiting i rest := by
        simp [Crew.next, Crew.stopSubsystem, hphase]
      -- The loop makes two steps for each subsystem.
      rw [hnext, hphase]
      simp [left, CrewStep.isStop]
      omega
    case h_2 => simp at htears
  | subsystemStopped raises =>
    have hover : w.awaitIsOver = true := he
    unfold awaitIsOver at hover
    split at hover
    case h_1 i rest hphase =>
      have hnext : (w.next kinds (.subsystemStopped raises)).phase = .tearing rest := by
        simp [Crew.next, Crew.subsystemStopped, hphase]
      rw [hnext, hphase]
      simp [left, CrewStep.isStop]
    case h_2 => simp at hover
  | stopped =>
    have hphase : w.phase = .tearing [] := he
    rw [h.next_stopped hphase, hphase]
    rfl
  | left =>
    have hphase : w.phase = .leaving := he
    rw [hphase]
    rfl
  | saved =>
    have hphase : w.phase = .saving := he
    rw [hphase]
    rfl
  | closed =>
    have hphase : w.phase = .closing := he
    rw [hphase]
    rfl

/-- Only a `stop` that has returned has nothing left to do. -/
theorem left_eq_zero {phase : StopPhase} : left n phase = 0 ↔ phase = .returned := by
  cases phase <;> simp [left]

/-- Until it returns, `stop` makes its next step, or the task that it awaits comes to its end. -/
theorem Orderly.goesOn (h : Orderly kinds.length w) (hphase : w.phase ≠ .returned) :
    (∃ e, e.isStop = true ∧ w.Enabled kinds e) ∨
      ∃ i rest, w.phase = .awaiting i rest ∧ w.tasks i = .cancelled := by
  cases hw : w.phase with
  | running => exact Or.inl ⟨.stop, rfl, hw⟩
  | notifying => exact Or.inl ⟨.notified, rfl, hw⟩
  | tearing rest =>
    cases rest with
    | nil => exact Or.inl ⟨.stopped, rfl, hw⟩
    | cons i rest => exact Or.inl ⟨.stopSubsystem, rfl, by simp [Enabled, tearsNext, hw]⟩
  | awaiting i rest =>
    cases htask : w.tasks i with
    -- It was cancelled before it was awaited.
    | alive => exact absurd htask (h.awaited i rest hw)
    | cancelled => exact Or.inr ⟨i, rest, rfl, htask⟩
    | none =>
      exact Or.inl ⟨.subsystemStopped false, rfl, by simp [Enabled, awaitIsOver, hw, htask]⟩
    | ended =>
      exact Or.inl ⟨.subsystemStopped false, rfl, by simp [Enabled, awaitIsOver, hw, htask]⟩
  | leaving => exact Or.inl ⟨.left, rfl, hw⟩
  | saving => exact Or.inl ⟨.saved, rfl, hw⟩
  | closing => exact Or.inl ⟨.closed, rfl, hw⟩
  | returned => exact absurd hw hphase
  | raised => exact absurd hw h.notRaised

/-- The end of the awaited task ends the await. -/
theorem awaitIsOver_taskEnds {i : ℕ} {rest : List ℕ} (hphase : w.phase = .awaiting i rest)
    (htask : w.tasks i = .cancelled) (forgets : Bool) :
    w.Enabled kinds (.taskEnds i forgets) ∧ ∀ raises,
      (w.next kinds (.taskEnds i forgets)).Enabled kinds (.subsystemStopped raises) := by
  refine ⟨Or.inr htask, fun raises => ?_⟩
  simp [Enabled, Crew.next, Crew.taskEnds, awaitIsOver, setTask, hphase, htask]

/-! ### All runs -/

/-- The invariant of a run, which counts the steps of `stop`. -/
theorem orderly_of_run {w₀ : Crew} (hstarted : Started w₀) {es : List CrewStep}
    (h : Run.exec (step kinds) w₀ es = some w) :
    Orderly kinds.length w ∧
      es.countP CrewStep.isStop + left kinds.length w.phase = 2 * kinds.length + 6 := by
  have hzero : Orderly kinds.length w₀ := by
    exact {
      plans := by
        -- An escalation of the boot may be on its way.
        intro id target ht
        rcases hstarted.plans id with hplan | hplan
        · simp [hplan] at ht
        · rw [hplan, List.mem_singleton] at ht
          rw [ht]
          decide
      notRaised := by simp [hstarted.phase]
      states := ⟨[], Ran.nil, by simp [hstarted.states, hstarted.phase, entered]⟩
      current := by simp [hstarted.current, hstarted.states, lastState]
      order := by simp [hstarted.stopCalls, hstarted.phase, remaining]
      awaited := by simp [hstarted.phase]
      saved := by simp [hstarted.phase]
      database := by simp [hstarted.phase, hstarted.databaseOpen] }
  refine Run.exec_history_of_step (fun past w => Orderly kinds.length w ∧
    past.countP CrewStep.isStop + left kinds.length w.phase = 2 * kinds.length + 6) ?_
    ⟨hzero, by simp [hstarted.phase, left]⟩ h
  rintro past w e w' ⟨horderly, hcount⟩ hstep
  obtain ⟨henabled, rfl⟩ := Run.guarded_eq_some.mp hstep
  refine ⟨horderly.next henabled, ?_⟩
  have hleft := horderly.left_next henabled
  rw [List.countP_append, List.countP_singleton]
  omega

/-- What every run comes to: no subsystem fights failure or shutdown. -/
structure Unfought (kinds : List Kind) (past : List CrewStep) (w : Crew) : Prop where
  /-- The current state is the last one that was entered. -/
  current : w.current = lastState w.states
  /-- FAILED lasts until `stop`. -/
  failed : w.phase = .running → .failed ∈ w.states → w.current = .failed
  /-- `stop` is accepted in every state before it, and so is its move to STOPPED. -/
  stoppable : w.phase = .running → .stopping ∈ w.current.transitions
  accepted : w.phase ≠ .raised
  /-- STOPPING is entered by `stop`, and the only later state is STOPPED. -/
  stopping : .stopping ∈ w.states ↔ w.phase ≠ .running
  final : ∃ ran, .stopping ∉ ran ∧ .stopped ∉ ran ∧
    (w.states = ran ∨ w.states = ran ++ [.stopping] ∨ w.states = ran ++ [.stopping, .stopped])
  /-- The subsystems are stopped in reverse order, none of them twice, and all of them before
  STOPPED. -/
  order : w.stopCalls <+: (List.range kinds.length).reverse
  all : .stopped ∈ w.states → w.stopCalls = (List.range kinds.length).reverse
  /-- `stop` returns in STOPPED, which has been saved, with the database closed. -/
  returned : w.phase = .returned → w.current = .stopped ∧ w.saved = some .stopped ∧
    w.databaseOpen = false ∧ w.stopCalls = (List.range kinds.length).reverse
  /-- Until then it can make a step, or the task that it awaits can end and then it can. -/
  goesOn : w.phase ≠ .returned → (∃ e, e.isStop = true ∧ w.Enabled kinds e) ∨
    ∃ i, ∀ forgets, w.Enabled kinds (.taskEnds i forgets) ∧
      ∀ raises, (w.next kinds (.taskEnds i forgets)).Enabled kinds (.subsystemStopped raises)
  /-- It takes a fixed number of steps. -/
  steps : past.countP CrewStep.isStop ≤ 2 * kinds.length + 6
  last : w.phase = .returned ↔ past.countP CrewStep.isStop = 2 * kinds.length + 6

/-- FAILED, STOPPING and STOPPED are final for every subsystem, and `stop` always works. Here
`Started` is the runtime after `boot`, and a run is any interleaving of the subsystems with one
`stop`. -/
theorem crew_shutdown (kinds : List Kind) (w₀ : Crew) (hstarted : Started w₀)
    (es : List CrewStep) (w : Crew) (hrun : Run.exec (step kinds) w₀ es = some w) :
    Unfought kinds es w := by
  obtain ⟨h, hcount⟩ := orderly_of_run hstarted hrun
  obtain ⟨ran, hran, hstates⟩ := h.states
  -- What was entered before `stop` was asked for by a subsystem.
  have hstopping : .stopping ∉ ran := fun hmem => absurd (hran.mem_askable _ hmem) (by decide)
  have hstopped : .stopped ∉ ran := fun hmem => absurd (hran.mem_askable _ hmem) (by decide)
  have hall (hphase : entered w.phase = [.stopping, .stopped]) :
      w.stopCalls = (List.range kinds.length).reverse := by
    rw [← h.order, remaining_of_entered hphase, List.append_nil]
  constructor
  case current => exact h.current
  case failed =>
    intro hphase hfailed
    rw [hphase, entered, List.append_nil] at hstates
    rw [h.current, hstates]
    exact hran.failed (hstates ▸ hfailed)
  case stoppable =>
    intro hphase
    exact stopping_mem_transitions (h.current_askable hphase)
  case accepted => exact h.notRaised
  case stopping =>
    rw [hstates, List.mem_append, or_iff_right hstopping]
    exact stopping_mem_entered h.notRaised
  case final =>
    refine ⟨ran, hstopping, hstopped, ?_⟩
    rcases entered_cases w.phase with hentered | hentered | hentered
    · exact Or.inl (by rw [hstates, hentered, List.append_nil])
    · exact Or.inr (Or.inl (by rw [hstates, hentered]))
    · exact Or.inr (Or.inr (by rw [hstates, hentered]))
  case order => exact ⟨_, h.order⟩
  case all =>
    intro hmem
    refine hall ?_
    rw [hstates, List.mem_append, or_iff_right hstopped] at hmem
    rcases entered_cases w.phase with hentered | hentered | hentered
    · simp [hentered] at hmem
    · simp [hentered] at hmem
    · exact hentered
  case returned =>
    intro hphase
    have hentered : entered w.phase = [.stopping, .stopped] := by rw [hphase, entered]
    refine ⟨h.current_stopped hentered, h.saved (Or.inr hphase), ?_, hall hentered⟩
    rw [← Bool.not_eq_true, h.database]
    exact not_not_intro hphase
  case goesOn =>
    intro hphase
    rcases h.goesOn hphase with hstep | ⟨i, rest, hawaiting, htask⟩
    · exact Or.inl hstep
    · exact Or.inr ⟨i, awaitIsOver_taskEnds hawaiting htask⟩
  case steps => omega
  case last =>
    rw [← left_eq_zero (n := kinds.length)]
    omega

/-- A metrics monitor and a watchdog. -/
def gatewayKinds : List Kind :=
  [.metrics { cpuHigh := some (9 / 10) }, .watchdog { hasEvents := true, hasSetState := true }]

/-- They are running. -/
def gateway : Crew where
  current := .healthy
  plans _ := []
  tasks i := if i < gatewayKinds.length then .alive else .none

/-- Both read HEALTHY. The watchdog escalates, and then the monitor asks for DEGRADED, which is
refused. The `stop` of the watchdog raises. -/
def lateMonitor : List CrewStep :=
  [.read 0 0 .pressed, .read 1 1 .escalate, .ask 1, .ask 0, .stop, .notified, .stopSubsystem,
    .taskEnds 1 false, .subsystemStopped true, .stopSubsystem, .taskEnds 0 false,
    .subsystemStopped false, .stopped, .left, .saved, .closed]

/-- The runtime stays FAILED, and both are stopped. -/
theorem crew_shutdown_lateMonitor : ∃ w,
    Run.exec (step gatewayKinds) gateway lateMonitor = some w ∧
    w.states = [.failed, .stopping, .stopped] ∧ w.stopCalls = [1, 0] ∧ w.failures = [1] ∧
    w.phase = .returned ∧ Unfought gatewayKinds lateMonitor w := by
  have hstarted : Started gateway :=
    ⟨rfl, fun _ => Or.inl rfl, rfl, rfl, rfl, rfl⟩
  have hrun : (Run.exec (step gatewayKinds) gateway lateMonitor).map
      (fun w => (w.states, w.stopCalls, w.failures, w.phase))
        = some ([.failed, .stopping, .stopped], [1, 0], [1], .returned) := by
    decide +kernel
  obtain ⟨w, hw, heq⟩ := Option.map_eq_some_iff.mp hrun
  simp only [Prod.mk.injEq] at heq
  obtain ⟨hstates, hcalls, hfailures, hphase⟩ := heq
  exact ⟨w, hw, hstates, hcalls, hfailures, hphase,
    crew_shutdown gatewayKinds gateway hstarted lateMonitor w hw⟩

end EdgeSentinel.Proofs.Subsystems
