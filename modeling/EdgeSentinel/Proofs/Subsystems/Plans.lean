import EdgeSentinel.Proofs.Monitoring.Polls
import EdgeSentinel.Subsystems.Ensemble

/-!
# `EdgeSentinel.Proofs.Subsystems.Plans`: a crew does all that its subsystems do

The modules of the subsystems say what a subsystem does from one await to the next. There the read
of the state and the first `set_state` are one step. `Does` is what such a step does to the state
and to the rest of the plan, and a crew matches it by a read, an ask, or both (`exec_of_does`).

`Follows.turn` puts this together for any list of subsystems: every run of a fleet of monitors is
followed by a run of the crew with the same monitors (`exec_of_fleet`), and every run of an ensemble
by one of the crew with the same monitors, supervisors and watchdogs (`exec_of_ensemble`).
-/

set_option autoImplicit false

namespace EdgeSentinel.Proofs.Subsystems

open EdgeSentinel.Core
open EdgeSentinel.Monitoring
open EdgeSentinel.Process
open EdgeSentinel.Subsystems
open EdgeSentinel.Subsystems.Crew

variable {τ : Type} {kinds : List Kind} {c : Crew}

/-! ### Turns of a subsystem -/

/-- What a turn of a subsystem does: the state and the rest of the plan before and after it. -/
inductive Does (kind : Kind) (state : RuntimeState) :
    List RuntimeState → RuntimeState → List RuntimeState → Prop where
  | stays (plan : List RuntimeState) : Does kind state plan state plan
  /-- The state is read, and the first state of the plan is asked for at once. More than one is
  asked for only where the first one is not refused. -/
  | reads (request : Request) {target : RuntimeState} {rest : List RuntimeState}
      (hplan : kind.plan request state = target :: rest)
      (hrest : rest = [] ∨ target ∈ state.transitions) :
      Does kind state [] (StateMachine.ask state target) rest
  | asks (target : RuntimeState) : Does kind state [target] (StateMachine.ask state target) []
  /-- A handler has raised. -/
  | drops (plan : List RuntimeState) : Does kind state plan state []

/-- The state after an ask. -/
theorem ask_current {id : ℕ} {target : RuntimeState} {rest : List RuntimeState}
    (hplan : c.plans id = target :: rest) :
    (c.ask id).current = StateMachine.ask c.current target := by
  unfold StateMachine.ask
  rcases ask_cases hplan with ⟨hself, hask⟩ | ⟨hmem, hask⟩ | ⟨hne, hmem, hask⟩
  · rw [hask, hself, StateMachine.transition_self]
    rfl
  · rw [hask, StateMachine.transition_of_mem hmem]
    rfl
  · rw [hask, StateMachine.transition_of_not_mem hne hmem]
    rfl

/-- The plans after an ask. -/
theorem ask_plans {id : ℕ} {target : RuntimeState} {rest : List RuntimeState}
    (hplan : c.plans id = target :: rest)
    (hrest : rest = [] ∨ target ∈ c.current.transitions) :
    (c.ask id).plans = Function.update c.plans id rest := by
  rcases ask_cases hplan with ⟨_, hask⟩ | ⟨_, hask⟩ | ⟨_, hmem, hask⟩
  · rw [hask, plan_plans]
  · rw [hask, plan_plans]
  · rw [hask, plan_plans, hrest.resolve_right hmem]

/-- A crew does what a turn of one of its subsystems does, and `stop` stays where it is. -/
theorem exec_of_does {i id : ℕ} {kind : Kind} {current : RuntimeState}
    {plan : List RuntimeState} (hkind : kinds[i]? = some kind)
    (h : Does kind c.current (c.plans id) current plan) :
    ∃ es c', Run.exec (step kinds) c es = some c' ∧ (∀ e ∈ es, e.isStop = false) ∧
      c'.current = current ∧ c'.plans = Function.update c.plans id plan := by
  have hask {c : Crew} (hplan : c.plans id ≠ []) :
      Run.exec (step kinds) c [.ask id] = some (c.ask id) :=
    Run.exec_singleton (Run.guarded_eq_some.mpr ⟨hplan, rfl⟩)
  -- What is done depends on what is left of the plan of the caller.
  generalize hbefore : c.plans id = before at h
  cases h with
  | stays => exact ⟨[], c, rfl, by simp, rfl, by rw [← hbefore, Function.update_eq_self]⟩
  | @reads request target _ hplan hrest =>
    have hlt : i < kinds.length := (List.getElem?_eq_some_iff.mp hkind).1
    have hread : Run.exec (step kinds) c [.read id i request]
        = some (c.plan id (target :: plan)) := by
      refine Run.exec_singleton (Run.guarded_eq_some.mpr ⟨⟨hbefore, hlt⟩, ?_⟩)
      simp [Crew.next, hkind, hplan]
    have hplan' : (c.plan id (target :: plan)).plans id = target :: plan := by simp
    refine ⟨_, _, Run.exec_append hread (hask (by simp [hplan'])), by simp [CrewStep.isStop],
      ask_current hplan', ?_⟩
    rw [ask_plans hplan' hrest, plan_plans, Function.update_idem]
  | asks target =>
    exact ⟨_, _, hask (by simp [hbefore]), by simp [CrewStep.isStop], ask_current hbefore,
      ask_plans hbefore (Or.inl rfl)⟩
  | drops =>
    by_cases hempty : before = []
    · refine ⟨[], c, rfl, by simp, rfl, ?_⟩
      rw [← hempty, ← hbefore, Function.update_eq_self]
    · have hdrop : Run.exec (step kinds) c [.drop id] = some (c.plan id []) := by
        refine Run.exec_singleton (Run.guarded_eq_some.mpr ⟨?_, rfl⟩)
        exact fun heq => hempty (hbefore.symm.trans heq)
      exact ⟨_, _, hdrop, by simp [CrewStep.isStop], rfl, rfl⟩

section
variable {π : Type} {kindOf : π → Kind} {planLeft : π → List RuntimeState}

/-- A crew is where its subsystems are. The caller of a subsystem has the number of its position. -/
structure Follows (kindOf : π → Kind) (planLeft : π → List RuntimeState) (kinds : List Kind)
    (current : RuntimeState) (parts : List π) (c : Crew) : Prop where
  current : c.current = current
  kinds : parts.map kindOf = kinds
  plans : ∀ i p, parts[i]? = some p → c.plans i = planLeft p

/-- A turn of one subsystem is a run of the crew. -/
theorem Follows.turn {current current' : RuntimeState} {parts : List π} {i : ℕ} {p p' : π}
    (h : Follows kindOf planLeft kinds current parts c) (hp : parts[i]? = some p)
    (hsame : kindOf p' = kindOf p)
    (hdoes : Does (kindOf p) current (planLeft p) current' (planLeft p')) :
    ∃ es c', Run.exec (step kinds) c es = some c' ∧ (∀ e ∈ es, e.isStop = false) ∧
      Follows kindOf planLeft kinds current' (parts.set i p') c' := by
  have hkind : kinds[i]? = some (kindOf p) := by
    rw [← h.kinds, List.getElem?_map, hp]
    rfl
  rw [← h.current, ← h.plans i p hp] at hdoes
  obtain ⟨es, c', hrun, hstop, hcurrent, hplans⟩ := exec_of_does hkind hdoes
  refine ⟨es, c', hrun, hstop, hcurrent, ?_, ?_⟩
  · obtain ⟨hlt, hget⟩ := List.getElem?_eq_some_iff.mp hkind
    rw [List.map_set, hsame, h.kinds, ← hget, List.set_getElem_self]
  · intro j q hq
    rw [hplans]
    by_cases hj : j = i
    · -- The subsystem that has made its turn.
      subst hj
      have hlt : j < parts.length := (List.getElem?_eq_some_iff.mp hp).1
      rw [List.getElem?_set_self hlt] at hq
      rw [Function.update_self, Option.some.inj hq]
    · rw [List.getElem?_set_ne (Ne.symm hj)] at hq
      rw [Function.update_of_ne hj]
      exact h.plans j q hq

end

/-! ### Monitors -/

/-- `_escalate` in one turn. -/
theorem escalate_does {kind : Kind} {state : RuntimeState}
    (hplan : kind.plan .escalate state = escalationPlan state) :
    Does kind state [] (StateMachine.escalate state) [] := by
  unfold StateMachine.escalate
  split
  case isTrue => exact .stays []
  case isFalse hsafe =>
    refine .reads .escalate ?_ (Or.inl rfl)
    rw [hplan, escalationPlan, if_neg hsafe]

/-- `_apply_to_runtime` of a storage or a metrics monitor in one turn. -/
theorem applyToRuntime_does {kind : Kind} {state target : RuntimeState} (request : Request)
    (hplan : kind.plan request state = pressurePlan target state) :
    Does kind state []
      (StateMachine.applyToRuntime RuntimeState.managedByPressure state target) [] := by
  unfold StateMachine.applyToRuntime
  split
  case isTrue => exact .stays []
  case isFalse hask =>
    refine .reads request ?_ (Or.inl rfl)
    rw [hplan, pressurePlan, if_neg hask]

section
variable {σ : Type} (p : PressureMonitor σ τ) (now : τ) (reading : Option σ)
  (state : RuntimeState) (g : Gauge σ)

/-- A check moves nothing. -/
theorem pressure_checkOnce_current : (p.checkOnce now reading state g).current = state := by
  rcases p.checkOnce_cases now reading state g with ⟨-, heq⟩ | ⟨status, -, ⟨-, -, heq⟩ |
    ⟨-, -, heq⟩ | ⟨-, heq⟩⟩
  all_goals rw [heq]

theorem nextAction_current (k : ℕ) : (p.nextAction now state g k).current = state := by
  rcases p.nextAction_cases now state g k with ⟨-, heq⟩ | ⟨-, -, heq⟩ | ⟨-, -, -, heq⟩ |
    ⟨-, -, heq⟩
  all_goals rw [heq]

/-- A turn of a storage or a metrics monitor. -/
theorem pressure_turn_does {kind : Kind}
    (hpressed : kind.plan .pressed state = pressurePlan .degraded state)
    (hrecovered : kind.plan .recovered state = pressurePlan .healthy state)
    (hescalate : kind.plan .escalate state = escalationPlan state) (poll : Option PressurePoll) :
    Does kind state [] (p.turn now reading state g poll).current [] := by
  cases poll with
  | none =>
    rw [PressureMonitor.turn, pressure_checkOnce_current]
    exact .stays []
  | some poll =>
    cases poll with
    | onPressed =>
      have hdoes := applyToRuntime_does .pressed hpressed
      simp only [PressureMonitor.turn, PressureMonitor.resume]
      split
      case isTrue =>
        rw [nextAction_current]
        exact .stays []
      case isFalse => exact hdoes
    | degrading =>
      rw [PressureMonitor.turn, PressureMonitor.resume, nextAction_current]
      exact .stays []
    | acting k =>
      cases reading with
      | none => exact .stays []
      | some status =>
        simp only [PressureMonitor.turn, PressureMonitor.resume, nextAction_current]
        exact .stays []
    | onRecovered => exact applyToRuntime_does .recovered hrecovered
    | onExhausted => exact escalate_does hescalate

end

/-- The subsystem that a member is. -/
def kindOf : Member → Kind
  | .network m _ _ => .network m
  | .storage m _ _ => .storage m
  | .metrics m _ _ => .metrics m

/-- What a member still has to ask for. -/
def planLeft : Member → List RuntimeState
  | .network _ _ (some .hop) => [.healthy]
  | _ => []

/-- A check of the network moves nothing, and it has nothing to ask for yet. -/
theorem network_checkOnce (m : NetworkMonitor) (now : τ) (passes : NetworkLayer → Bool)
    (state : RuntimeState) (status : Option NetworkStatus) :
    (m.checkOnce now passes state status).current = state ∧
      (m.checkOnce now passes state status).poll ≠ some .hop := by
  rcases m.checkOnce_cases now passes state status with heq | ⟨_, -, -, heq⟩
  · rw [heq]
    exact ⟨rfl, by simp⟩
  · rw [heq]
    exact ⟨rfl, by simp⟩

theorem planLeft_of_ne_hop {m : NetworkMonitor} {status : Option NetworkStatus}
    {poll : Option NetworkPoll} (h : poll ≠ some .hop) :
    planLeft (.network m status poll) = [] := by
  unfold planLeft
  split
  · rename_i heq
    obtain ⟨-, -, rfl⟩ := Member.network.inj heq
    exact absurd rfl h
  · rfl

/-- A turn of a network monitor. -/
theorem network_turn_does (m : NetworkMonitor) (now : τ) (a : Answer) (state : RuntimeState)
    (status : Option NetworkStatus) (poll : Option NetworkPoll) :
    Does (.network m) state (planLeft (.network m status poll))
      (m.turn now a state status poll).current
      (planLeft (.network m (m.turn now a state status poll).attributes
        (m.turn now a state status poll).poll)) := by
  cases poll with
  | none =>
    obtain ⟨hcurrent, hpoll⟩ := network_checkOnce m now a.passes state status
    rw [NetworkMonitor.turn, hcurrent, planLeft_of_ne_hop hpoll]
    exact .stays []
  | some poll =>
    cases poll with
    | onChange current =>
      have hplan : (Kind.network m).plan (.connectivity status current) state
          = networkPlan m status current state := rfl
      simp only [networkPlan] at hplan
      rw [NetworkMonitor.turn]
      rcases m.resume_cases (τ := τ) a.delivered state status current with ⟨-, heq⟩ |
        ⟨hhealthy, rfl, heq⟩ | ⟨hmanaged, hne, hhop, heq⟩
      · rw [heq]
        exact .stays []
      · -- The rest of the plan is the way from DEGRADED to HEALTHY.
        rw [heq]
        rw [hhealthy, if_neg (by decide), if_neg (by decide), if_pos ⟨rfl, rfl⟩] at hplan
        exact .reads _ hplan (Or.inr (by decide))
      · rw [heq]
        rw [if_neg (not_not.mpr hmanaged), if_neg hne, if_neg hhop] at hplan
        exact .reads _ hplan (Or.inl rfl)
    | hop =>
      simp only [NetworkMonitor.turn, NetworkMonitor.resume]
      split
      case isTrue => exact .asks .healthy
      case isFalse => exact .drops _

/-- A turn of a member is a turn of its subsystem. -/
theorem member_turn_does (now : τ) (a : Answer) (state : RuntimeState) (m : Member) :
    kindOf (m.turn now a state).member = kindOf m ∧
      Does (kindOf m) state (planLeft m) (m.turn now a state).current
        (planLeft (m.turn now a state).member) := by
  cases m with
  | network m status poll =>
    rw [Monitoring.turn_network]
    exact ⟨rfl, network_turn_does m now a state status poll⟩
  | storage m g poll =>
    rw [Monitoring.turn_storage]
    exact ⟨rfl, pressure_turn_does m.pressure now a.usage state g rfl rfl rfl poll⟩
  | metrics m g poll =>
    rw [Monitoring.turn_metrics]
    exact ⟨rfl, pressure_turn_does m.pressure now a.metrics state g rfl rfl rfl poll⟩

/-- Every run of the monitors is one of the crew. -/
theorem exec_of_fleet {w w' : Fleet τ} (h : Follows kindOf planLeft kinds w.current w.members c)
    {es : List (Advance τ)} (hrun : Run.exec Fleet.step w es = some w') :
    ∃ es' c', Run.exec (step kinds) c es' = some c' ∧
      Follows kindOf planLeft kinds w'.current w'.members c' :=
  Run.exec_simulation_run
    (fun (w : Fleet τ) => Follows kindOf planLeft kinds w.current w.members)
    (fun w c e w' hfollows hstep => by
      obtain ⟨m, hm, rfl⟩ := Option.map_eq_some_iff.mp hstep
      obtain ⟨hsame, hdoes⟩ := member_turn_does e.now e.answer w.current m
      obtain ⟨es, c', hexec, -, hfollows'⟩ := hfollows.turn hm hsame hdoes
      exact ⟨es, c', hexec, hfollows'⟩) es w c w' h hrun

/-! ### Supervisors and the watchdog -/

section
variable (cfg : SupervisorSettings) (w : Supervisor τ) (l : Loop) (a : LoopAnswer τ)

/-- A supervisor moves the state where it escalates. -/
theorem supervisor_escalate_does :
    Does (.supervisor cfg) w.current [] (Supervisor.escalate cfg w l).current [] := by
  unfold Supervisor.escalate
  split
  case isTrue => exact .stays []
  case isFalse hset =>
    have hplan : (Kind.supervisor cfg).plan .escalate w.current = escalationPlan w.current := by
      simp only [Kind.plan]
      rw [if_pos (by simpa using hset)]
    split
    case isTrue => exact .stays []
    case isFalse hsafe =>
      dsimp only
      split
      case isTrue => exact .stays []
      case isFalse =>
        refine .reads .escalate ?_ (Or.inl rfl)
        rw [hplan, escalationPlan, if_neg hsafe]

/-- Publishing moves nothing, also when it raises. -/
theorem supervisor_publish_current (e : Event τ) (point : LoopPoint) (actions : List Action) :
    (w.publish l e a point actions).current = w.current := by
  unfold Supervisor.publish
  split <;> rfl

theorem registerFailure_does :
    Does (.supervisor cfg) w.current [] (Supervisor.registerFailure cfg w l a).current [] := by
  unfold Supervisor.registerFailure
  dsimp only
  split
  · unfold Supervisor.restart
    split
    · exact .stays []
    · split
      · rw [supervisor_publish_current]
        exact .stays []
      · exact .stays []
  · split
    · rw [supervisor_publish_current]
      exact .stays []
    · exact supervisor_escalate_does cfg
        { w with failureTimes := Supervisor.failuresAt cfg w a.now } l

theorem report_does (error : Option String) :
    Does (.supervisor cfg) w.current [] (Supervisor.report cfg w l error a).current [] := by
  unfold Supervisor.report
  split
  · rw [supervisor_publish_current]
    exact .stays []
  · exact registerFailure_does cfg w l a

/-- From an await to the next one. -/
theorem proceed_does :
    Does (.supervisor cfg) w.current [] (Supervisor.proceed cfg w l a).current [] := by
  unfold Supervisor.proceed
  split
  case h_2 =>
    unfold Supervisor.exit
    split
    · exact .stays []
    · exact report_does cfg w l a _
    · split
      · exact .stays []
      · exact registerFailure_does cfg w l a
    · exact report_does cfg w l a _
  case h_3 => exact registerFailure_does cfg w l a
  case h_4 => exact supervisor_escalate_does cfg w l
  all_goals exact .stays []

/-- What a supervisor does to the state, it does by a plan. -/
theorem supervisor_next_does {e : SupervisorStep τ} (he : ∀ current, e ≠ .moved current) :
    Does (.supervisor cfg) w.current [] (Supervisor.next cfg w e).current [] := by
  cases e with
  | start id =>
    simp only [Supervisor.next, Supervisor.start]
    split <;> exact .stays []
  | stop =>
    simp only [Supervisor.next, Supervisor.stop]
    split <;> exact .stays []
  | moved current => exact absurd rfl (he current)
  | resume id a =>
    simp only [Supervisor.next]
    split
    · exact .stays []
    · unfold Supervisor.resume
      split
      · unfold Supervisor.deliver
        split <;> exact .stays []
      · exact proceed_does cfg w _ a

end

section
variable (cfg : WatchdogSettings) (w : Watchdog τ) (k : Check)

/-- A watchdog moves the state where its check leaves the loop. -/
theorem leaveLoop_does :
    Does (.watchdog cfg) w.current [] (Watchdog.leaveLoop cfg w k).current [] := by
  unfold Watchdog.leaveLoop
  dsimp only
  split
  case isTrue h =>
    obtain ⟨-, hset, hsafe⟩ := h
    refine .reads .escalate ?_ (Or.inl rfl)
    simp only [Kind.plan]
    rw [if_pos hset, escalationPlan, if_neg hsafe]
  case isFalse => exact .stays []

theorem watchdog_publish_current (e : Event τ) (audience : Audience String) :
    (Watchdog.publish cfg w k e audience).current = w.current := by
  unfold Watchdog.publish
  split
  · split <;> rfl
  · rfl

theorem visit_current (x : Watch) (stamp : τ) (audience : Audience String) :
    (Watchdog.visit cfg w k x stamp audience).current = w.current := by
  unfold Watchdog.visit
  split
  · rw [watchdog_publish_current]
    rfl
  · split
    · rw [watchdog_publish_current]
      rfl
    · rfl

theorem watchdog_turn_does (stamp : τ) (audience : Audience String) :
    Does (.watchdog cfg) w.current [] (Watchdog.turn cfg w k stamp audience).current [] := by
  unfold Watchdog.turn
  split
  · exact .stays []
  · exact leaveLoop_does cfg w k
  · exact .stays []
  · rw [visit_current]
    exact .stays []

/-- What a watchdog does to the state, it does by a plan. -/
theorem watchdog_next_does {e : WatchdogStep τ} (he : ∀ current, e ≠ .moved current) :
    Does (.watchdog cfg) w.current [] (Watchdog.next cfg w e).current [] := by
  cases e with
  | register name timeout now compacts =>
    simp only [Watchdog.next, Watchdog.register]
    split
    · exact .stays []
    · split <;> exact .stays []
  | unregister name => exact .stays []
  | heartbeat name now => exact .stays []
  | check id now => exact .stays []
  | turn id stamp audience =>
    simp only [Watchdog.next]
    cases w.checks.find? (·.id = id) with
    | none => exact .stays []
    | some k => exact watchdog_turn_does cfg w k stamp audience
  | resume id =>
    simp only [Watchdog.next]
    cases w.checks.find? (·.id = id) with
    | none => exact .stays []
    | some k =>
      simp only [Option.elim, Watchdog.resume]
      split <;> exact .stays []
  | moved current => exact absurd rfl (he current)

end

/-! ### Ensembles -/

/-- The subsystem of the crew that it is. -/
def subsystemKind : Subsystem τ → Kind
  | .monitor m => kindOf m
  | .supervisor cfg _ => .supervisor cfg
  | .watchdog cfg _ => .watchdog cfg

/-- What it still has to ask for. Supervisors and watchdogs ask as soon as they have read. -/
def subsystemPlan : Subsystem τ → List RuntimeState
  | .monitor m => planLeft m
  | .supervisor _ _ | .watchdog _ _ => []

/-- A step of a subsystem is a turn of it. -/
theorem subsystem_step_does {state state' : RuntimeState} {s s' : Subsystem τ}
    {e : SubsystemStep τ} (hown : e.IsOwn) (hstep : s.step state e = some (state', s')) :
    subsystemKind s' = subsystemKind s ∧
      Does (subsystemKind s) state (subsystemPlan s) state' (subsystemPlan s') := by
  cases s with
  | monitor m =>
    cases e with
    | poll now a =>
      cases hstep
      exact member_turn_does now a state m
    | supervise e => cases hstep
    | watch e => cases hstep
  | supervisor cfg w =>
    cases e with
    | supervise e =>
      obtain ⟨w', hw', heq⟩ := Option.map_eq_some_iff.mp hstep
      obtain ⟨-, rfl⟩ := Run.guarded_eq_some.mp hw'
      cases heq
      refine ⟨rfl, supervisor_next_does cfg { w with current := state } fun current hmoved => ?_⟩
      rw [hmoved] at hown
      exact hown
    | poll now a => cases hstep
    | watch e => cases hstep
  | watchdog cfg w =>
    cases e with
    | watch e =>
      obtain ⟨w', hw', heq⟩ := Option.map_eq_some_iff.mp hstep
      obtain ⟨-, rfl⟩ := Run.guarded_eq_some.mp hw'
      cases heq
      refine ⟨rfl, watchdog_next_does cfg { w with current := state } fun current hmoved => ?_⟩
      rw [hmoved] at hown
      exact hown
    | poll now a => cases hstep
    | supervise e => cases hstep

/-- Every run of the monitors, supervisors and watchdogs of a runtime is one of the crew. -/
theorem exec_of_ensemble {w w' : Ensemble τ}
    (h : Follows subsystemKind subsystemPlan kinds w.current w.subsystems c)
    {es : List (ℕ × SubsystemStep τ)} (hrun : Run.exec Ensemble.step w es = some w') :
    ∃ es' c', Run.exec (step kinds) c es' = some c' ∧
      Follows subsystemKind subsystemPlan kinds w'.current w'.subsystems c' :=
  Run.exec_simulation_run
    (fun (w : Ensemble τ) => Follows subsystemKind subsystemPlan kinds w.current w.subsystems)
    (fun w c e w' hfollows hstep => by
      unfold Ensemble.step at hstep
      split at hstep
      case isTrue hown =>
        obtain ⟨⟨state, s'⟩, hbind, rfl⟩ := Option.map_eq_some_iff.mp hstep
        obtain ⟨s, hs, hturn⟩ := Option.bind_eq_some_iff.mp hbind
        obtain ⟨hsame, hdoes⟩ := subsystem_step_does hown hturn
        obtain ⟨es, c', hexec, -, hfollows'⟩ := hfollows.turn hs hsame hdoes
        exact ⟨es, c', hexec, hfollows'⟩
      case isFalse => cases hstep) es w c w' h hrun

end EdgeSentinel.Proofs.Subsystems
