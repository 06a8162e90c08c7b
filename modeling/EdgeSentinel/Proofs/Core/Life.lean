import EdgeSentinel.Proofs.Core.Stop
import Mathlib.Logic.Relation

/-!
# `EdgeSentinel.Proofs.Core.Life`: the whole life of a runtime

The life of a runtime is any sequence of calls of `start` and `stop`, each with its own failures
and cancellations, and of moves of the state by the subsystems in between.

`Follows` is what every piece of `start` and `stop` keeps, however it ends: the state goes along
the graph of `core/state.py`, and the two flags stay. Only the last line of a call sets a flag.
The graph leads to no BOOTING and out of no STOPPED, so a runtime boots once
(`start_returns_once`), and a stopped runtime stays stopped (`stop_releases`).
-/

set_option autoImplicit false

namespace EdgeSentinel.Core

open Async

/-- What happens to a runtime. -/
inductive LifeEvent where
  | start (s : Surroundings)
  | stop (s : Surroundings)
  | move (move : Move)

variable {τ : Type}

/-- What an event does. -/
def LifeEvent.next (w : World τ Host) : LifeEvent → World τ Host
  | start s => (s.start.run w).2
  | stop s => (s.stop.run w).2
  | move m => { w with current := m.act w.current }

/-- The runtime after the events. -/
def life (w : World τ Host) (es : List LifeEvent) : World τ Host := es.foldl LifeEvent.next w

theorem life_snoc (w : World τ Host) (es : List LifeEvent) (e : LifeEvent) :
    life w (es ++ [e]) = e.next (life w es) := by
  rw [life, List.foldl_append]
  rfl

end EdgeSentinel.Core

namespace EdgeSentinel.Proofs.Core

open Async EdgeSentinel.Core EdgeSentinel.Persistence EdgeSentinel.Proofs.Persistence Relation

variable {τ : Type} {s : Surroundings}

/-! ### The graph -/

/-- The state machine can move from `c` to `d`, in any number of steps. -/
def Leads : RuntimeState → RuntimeState → Prop := ReflTransGen fun c d => d ∈ c.transitions

/-- Nothing leads to BOOTING. -/
theorem Leads.eq_booting {c : RuntimeState} (h : Leads c .booting) : c = .booting := by
  induction h using ReflTransGen.head_induction_on with
  | refl => rfl
  | head hedge _ ih =>
    subst ih
    rename_i c _
    cases c <;> simp [RuntimeState.transitions] at hedge

/-- Nothing leads out of STOPPED. -/
theorem Leads.eq_stopped {c : RuntimeState} (h : Leads .stopped c) : c = .stopped := by
  induction h with
  | refl => rfl
  | tail _ hedge ih =>
    subst ih
    simp [RuntimeState.transitions] at hedge

theorem leads_ask (c target : RuntimeState) : Leads c (StateMachine.ask c target) := by
  unfold StateMachine.ask StateMachine.transition
  split
  · rename_i previous next h
    split at h
    · cases h
      exact .refl
    · split at h
      · cases h
        exact .single ‹_›
      · cases h
  · exact .refl

theorem leads_escalate (c : RuntimeState) : Leads c (StateMachine.escalate c) := by
  unfold StateMachine.escalate
  split
  · exact .refl
  · exact leads_ask c .failed

theorem leads_applyToRuntime (managed : List RuntimeState) (c target : RuntimeState) :
    Leads c (StateMachine.applyToRuntime managed c target) := by
  unfold StateMachine.applyToRuntime
  split
  · exact .refl
  · exact leads_ask c target

theorem leads_act (c : RuntimeState) (move : Move) : Leads c (move.act c) := by
  cases move with
  | escalate => exact leads_escalate c
  | network target => exact leads_applyToRuntime _ c _
  | pressure target => exact leads_applyToRuntime _ c _

theorem leads_foldl (moves : List Move) :
    ∀ c : RuntimeState, Leads c (moves.foldl Move.act c) := by
  induction moves with
  | nil => exact fun c => .refl
  | cons move moves ih => exact fun c => (leads_act c move).trans (ih (move.act c))

theorem leads_drifted (s : Surroundings) : Leads .healthy s.drifted := by
  unfold Surroundings.drifted
  split
  · exact .refl
  · exact leads_foldl s.drift .healthy

theorem leads_movedOn (s : Surroundings) (c : RuntimeState) : Leads c (movedOn s c) := by
  unfold movedOn
  split
  · exact .refl
  · exact leads_foldl s.inSave c

/-! ### What a piece of a call keeps -/

/-- A relation that allows what the pieces of `start` and `stop` do, the save apart: the state goes
along the graph, subsystems start and end, the observers are attached and detached, and the
database is connected, migrated and closed. -/
structure Allows (R : World τ Host → World τ Host → Prop) : Prop where
  refl : ∀ w, R w w
  trans : ∀ w₁ w₂ w₃, R w₁ w₂ → R w₂ w₃ → R w₁ w₃
  current : ∀ w c, Leads w.current c → R w { w with current := c }
  running : ∀ w running, R w { w with host := { w.host with running := running } }
  attached : ∀ attached, Proc.Moves R (Surroundings.setAttached attached)
  connect : ∀ a, Proc.Moves R (onDatabase (Database.connect a))
  migrate : ∀ a, Proc.Moves R (onDatabase (Database.migrate a))
  close : ∀ a, Proc.Moves R (onDatabase (Database.close a))

namespace Allows

variable {R : World τ Host → World τ Host → Prop}

theorem background (h : Allows R) : Proc.Moves R s.background := by
  intro w
  simp only [Surroundings.background, Proc.run_modify]
  split
  · rename_i hhealthy
    exact h.current w s.drifted (hhealthy ▸ leads_drifted s)
  · exact h.refl w

theorem handler (h : Allows R) (i : Nat) (change : StateChangeEvent τ) :
    Proc.Moves R (s.handler i change) := by
  unfold Surroundings.handler
  split
  · exact Proc.moves_pure h.refl ()
  · exact Proc.moves_bind h.trans h.background fun _ => Proc.moves_exit h.refl _

theorem publish (h : Allows R) (event : Event τ) : Proc.Moves R (s.publish event) := by
  unfold Surroundings.publish
  refine Proc.moves_bind h.trans (Proc.moves_read h.refl) fun w => ?_
  exact Proc.moves_bind h.trans h.background fun _ => Proc.moves_exit h.refl _

theorem notify (h : Allows R) (component : String) (previous target : RuntimeState) :
    Proc.Moves R (s.manager.notify component previous target) := by
  unfold LifecycleManager.notify
  refine Proc.moves_bind h.trans (Proc.moves_read h.refl) fun w => ?_
  refine Proc.moves_bind h.trans ?_ fun _ => ?_
  · refine Proc.moves_forEach h.refl h.trans _ fun handler hmem => ?_
    obtain ⟨i, -, rfl⟩ := List.mem_map.mp hmem
    exact h.handler i _
  · exact Proc.moves_bind h.trans (Proc.moves_read h.refl) fun w =>
      h.publish (.stateChange component previous target w.clock)

/-- A transition is an edge of the graph, or no move. -/
theorem transition (h : Allows R) (target : RuntimeState) :
    Proc.Moves R (EdgeSentinel.Core.transition target) := by
  intro w
  by_cases hself : target = w.current
  · rw [hself, run_transition_self]
    exact h.refl w
  · by_cases hmem : target ∈ w.current.transitions
    · rw [run_transition_of_mem hmem]
      exact h.current w target (.single hmem)
    · rw [run_transition_of_not_mem hself hmem]
      exact h.refl w

theorem setState (h : Allows R) (target : RuntimeState) (component : String) :
    Proc.Moves R (s.manager.setState target component) := by
  unfold LifecycleManager.setState
  refine Proc.moves_bind h.trans (h.transition target) fun previous => ?_
  split
  · exact Proc.moves_pure h.refl ()
  · exact h.notify component previous target

theorem onInit (h : Allows R) : Proc.Moves R s.onInit := by
  unfold Surroundings.onInit
  have hstarts : Proc.Moves R
      (Proc.forEach s.subsystems.zipIdx fun entry => s.startSubsystem entry.2 entry.1) := by
    refine Proc.moves_forEach h.refl h.trans _ fun entry _ => ?_
    unfold Surroundings.startSubsystem
    refine Proc.moves_bind h.trans (Proc.moves_read h.refl) fun w => ?_
    split
    · exact Proc.moves_pure h.refl ()
    · have hstart : Proc.Moves R (do
          s.meet (.start entry.2)
          modifyHost fun host => { host with
            running := fun j => if j = entry.2 then true else host.running j }) :=
        Proc.moves_bind h.trans (Proc.moves_exit h.refl _) fun _ w => h.running w _
      split
      · exact Proc.moves_bind h.trans (fun w => h.current w _ (leads_escalate w.current))
          fun _ => hstart
      · exact hstart
  split
  · exact Proc.moves_bind h.trans (Proc.moves_exit h.refl _) fun _ => hstarts
  · exact hstarts

theorem onStop (h : Allows R) : Proc.Moves R s.onStop := by
  refine Proc.moves_forEach h.refl h.trans _ fun i _ => ?_
  intro w
  obtain ⟨running, hrun⟩ := run_stopSubsystem (s := s) i w
  rw [hrun]
  exact h.running w running

theorem mkdir (h : Allows R) : Proc.Moves R s.mkdir := by
  unfold Surroundings.mkdir
  split
  · exact Proc.moves_exit h.refl _
  · exact Proc.moves_pure h.refl ()

/-- `boot` from its hook on. -/
theorem fromOnInit (h : Allows R) : Proc.Moves R (do
    Proc.tryExcept s.onInit fun e => do
      s.manager.setState .failed "runtime"
      Proc.raise e
    s.manager.setState .healthy "runtime") :=
  Proc.moves_bind h.trans (Proc.moves_tryExcept h.trans h.onInit fun _ =>
    Proc.moves_bind h.trans (h.setState _ _) fun _ => Proc.moves_exit h.refl _)
      fun _ => h.setState _ _

theorem boot (h : Allows R) : Proc.Moves R (s.manager.boot s.onInit "runtime") := by
  unfold LifecycleManager.boot
  refine Proc.moves_bind h.trans (h.setState _ _) fun _ => ?_
  exact Proc.moves_bind h.trans (h.setState _ _) fun _ => h.fromOnInit

theorem shutdown (h : Allows R) : Proc.Moves R (s.manager.shutdown s.onStop "runtime") := by
  unfold LifecycleManager.shutdown
  refine Proc.moves_bind h.trans (h.setState _ _) fun _ => ?_
  exact Proc.moves_tryFinally h.trans h.onStop (h.setState _ _)

/-- The `try` statement of `start`. -/
theorem tryBoot (h : Allows R) :
    Proc.Moves R (Proc.tryExcept (tryBlock s) (exceptClause s)) := by
  refine Proc.moves_tryExcept h.trans ?_ fun _ => ?_
  · exact Proc.moves_bind h.trans (h.migrate _) fun _ =>
      Proc.moves_bind h.trans (h.attached true) fun _ => h.boot
  · exact Proc.moves_bind h.trans (h.attached false) fun _ =>
      Proc.moves_bind h.trans (h.close _) fun _ => Proc.moves_exit h.refl _

end Allows

/-- From `w` to `w'` the state goes along the graph, and the flags stay. -/
structure Follows (w w' : World τ Host) : Prop where
  leads : Leads w.current w'.current
  started : w'.host.started = w.host.started
  stopped : w'.host.stopped = w.host.stopped

namespace Follows

theorem refl (w : World τ Host) : Follows w w := ⟨.refl, rfl, rfl⟩

theorem trans (w₁ w₂ w₃ : World τ Host) (h : Follows w₁ w₂) (h' : Follows w₂ w₃) :
    Follows w₁ w₃ :=
  ⟨h.leads.trans h'.leads, h'.started.trans h.started, h'.stopped.trans h.stopped⟩

/-- No job on the database touches the state or a flag. -/
theorem onDatabase (p : DbProc (String × String) Unit) :
    Proc.Moves (Follows (τ := τ)) (EdgeSentinel.Core.onDatabase p) := fun _ => ⟨.refl, rfl, rfl⟩

theorem allows : Allows (Follows (τ := τ)) where
  refl := refl
  trans := trans
  current _ _ hleads := ⟨hleads, rfl, rfl⟩
  running _ _ := ⟨.refl, rfl, rfl⟩
  attached _ _ := ⟨.refl, rfl, rfl⟩
  connect _ := onDatabase _
  migrate _ := onDatabase _
  close _ := onDatabase _

theorem saveRuntimeState : Proc.Moves (Follows (τ := τ)) s.saveRuntimeState := by
  intro w
  rw [run_saveRuntimeState_eq]
  exact ⟨leads_movedOn s w.current, rfl, rfl⟩

end Follows

/-! ### `start` -/

/-- `start` up to the save. -/
abbrev beforeSave (s : Surroundings) : CoreProc τ Host Unit := do
  s.mkdir
  onDatabase (Database.connect (s.await .connect))
  Proc.tryExcept (tryBlock s) (exceptClause s)

theorem Allows.beforeSave {R : World τ Host → World τ Host → Prop} (h : Allows R) :
    Proc.Moves R (beforeSave s) :=
  Proc.moves_bind h.trans h.mkdir fun _ =>
    Proc.moves_bind h.trans (h.connect _) fun _ => h.tryBoot

/-- `start` up to the flags. -/
abbrev comeUp (s : Surroundings) : CoreProc τ Host Unit := do
  beforeSave s
  s.saveRuntimeState

theorem follows_comeUp : Proc.Moves (Follows (τ := τ)) (comeUp s) :=
  Proc.moves_bind Follows.trans Follows.allows.beforeSave fun _ => Follows.saveRuntimeState

/-- A running runtime refuses a `start`. Any other runtime comes up, and then sets the flags. -/
theorem start_eq (s : Surroundings) (w : World τ Host) :
    s.start.run w = if w.host.started && !w.host.stopped then (.raised (.runtimeAlreadyStarted s.name), w)
      else (comeUp s >>= fun _ =>
        modifyHost fun h => { h with started := true, stopped := false }).run w := by
  unfold Surroundings.start comeUp beforeSave
  rw [Proc.run_bind_of_returned (Proc.run_read w)]
  simp only [Proc.bind_assoc]
  split <;> rfl

/-- A `boot` that returns began in BOOTING, and it has left it for good. -/
theorem booting_of_boot {w w' : World τ Host}
    (h : (s.manager.boot s.onInit "runtime").run w = (.returned (), w')) :
    w.current = .booting ∧ Leads .initializing w'.current := by
  unfold LifecycleManager.boot at h
  obtain ⟨⟨⟩, w₁, hbooting, h⟩ := Proc.run_bind_eq_returned h
  obtain ⟨⟨⟩, w₂, hinitializing, h⟩ := Proc.run_bind_eq_returned h
  have hcurrent : w.current = .booting := by
    by_contra hne
    have hnot : .booting ∉ w.current.transitions := by
      cases w.current <;> simp [RuntimeState.transitions]
    rw [LifecycleManager.run_setState_of_not_mem _ (Ne.symm hne) hnot] at hbooting
    cases hbooting
  have hfirst : w₁ = w := by
    have hself := LifecycleManager.run_setState_self s.manager w "runtime"
    rw [hcurrent, hbooting] at hself
    exact (Prod.mk.inj hself).2
  rw [hfirst, run_setState "runtime" (by rw [hcurrent]; decide)] at hinitializing
  have hsecond : w₂.current = .initializing := by
    rw [← (Prod.mk.inj hinitializing).2]
    rfl
  -- The hook and the move to HEALTHY go on from INITIALIZING.
  have hrest : Follows w₂ w' := Follows.allows.fromOnInit.of_run h
  exact ⟨hcurrent, hsecond ▸ hrest.leads⟩

theorem current_of_mkdir {w w' : World τ Host} {o : Outcome Exn Unit}
    (h : s.mkdir.run w = (o, w')) : w' = w := by
  unfold Surroundings.mkdir at h
  split at h <;> exact (Prod.mk.inj h).2.symm

theorem current_of_onDatabase {p : DbProc (String × String) Unit} {w w' : World τ Host}
    {o : Outcome Exn Unit} (h : (onDatabase p).run w = (o, w')) : w'.current = w.current := by
  rw [← (Prod.mk.inj h).2]

/-- A `start` that comes to its save has booted. -/
theorem boot_of_beforeSave {w w' : World τ Host}
    (h : (beforeSave s).run w = (.returned (), w')) : ∃ w₀ : World τ Host,
      w₀.current = w.current ∧
        (s.manager.boot s.onInit "runtime").run w₀ = (.returned (), w') := by
  obtain ⟨⟨⟩, w₁, hmkdir, h⟩ := Proc.run_bind_eq_returned h
  obtain ⟨⟨⟩, w₂, hconnect, htry⟩ := Proc.run_bind_eq_returned h
  have hbefore : w₂.current = w.current :=
    (current_of_onDatabase hconnect).trans (congrArg World.current (current_of_mkdir hmkdir))
  rcases Proc.run_tryExcept_eq_returned htry with htry | ⟨e, w₄, -, hexcept⟩
  · obtain ⟨⟨⟩, w₄, hmigrate, htry⟩ := Proc.run_bind_eq_returned htry
    obtain ⟨⟨⟩, w₅, hattach, hboot⟩ := Proc.run_bind_eq_returned htry
    have hattach : w₅.current = w₄.current := by rw [← (Prod.mk.inj hattach).2]
    exact ⟨w₅, hattach.trans ((current_of_onDatabase hmigrate).trans hbefore), hboot⟩
  · -- The except clause ends with a `raise`.
    obtain ⟨⟨⟩, w₅, -, hexcept⟩ := Proc.run_bind_eq_returned hexcept
    obtain ⟨⟨⟩, w₆, -, hraise⟩ := Proc.run_bind_eq_returned hexcept
    cases hraise

/-- A `start` that comes up did so from BOOTING, and it has left it for good. -/
theorem booting_of_comeUp {w w' : World τ Host} (h : (comeUp s).run w = (.returned (), w')) :
    w.current = .booting ∧ Leads .initializing w'.current := by
  obtain ⟨⟨⟩, w₁, hbefore, hsave⟩ := Proc.run_bind_eq_returned h
  obtain ⟨w₀, hcurrent, hboot⟩ := boot_of_beforeSave hbefore
  obtain ⟨hbooting, hleads⟩ := booting_of_boot hboot
  exact ⟨hcurrent ▸ hbooting, hleads.trans (Follows.saveRuntimeState.of_run hsave).leads⟩

/-- A `start` does not return and follows the graph, or it comes up and sets the flags. -/
theorem start_ends (s : Surroundings) (w : World τ Host) :
    ((s.start.run w).1 ≠ .returned () ∧ Follows w (s.start.run w).2) ∨
      ∃ w', (comeUp s).run w = (.returned (), w') ∧ s.start.run w
        = (.returned (), { w' with host := { w'.host with started := true, stopped := false } }) := by
  rw [start_eq]
  split
  · exact .inl ⟨by simp, Follows.refl w⟩
  · have hfollows := follows_comeUp (s := s) w
    rcases hrun : (comeUp s).run w with ⟨o, w'⟩
    rw [hrun] at hfollows
    cases o with
    | returned _ =>
      rw [Proc.run_bind_of_returned hrun]
      exact .inr ⟨w', rfl, rfl⟩
    | raised e =>
      rw [Proc.run_bind_of_raised hrun]
      exact .inl ⟨by simp, hfollows⟩
    | cancelled =>
      rw [Proc.run_bind_of_cancelled hrun]
      exact .inl ⟨by simp, hfollows⟩

/-- A `start` that returns did so from BOOTING, and it has left it for good. -/
theorem booting_of_start {w : World τ Host} (h : (s.start.run w).1 = .returned ()) :
    w.current = .booting ∧ Leads .initializing (s.start.run w).2.current := by
  rcases start_ends s w with ⟨hne, -⟩ | ⟨w', hcomeUp, hrun⟩
  · exact absurd h hne
  · obtain ⟨hcurrent, hleads⟩ := booting_of_comeUp hcomeUp
    rw [hrun]
    exact ⟨hcurrent, hleads⟩

/-- Past BOOTING the state stays. -/
def Stays (w w' : World τ Host) : Prop := w.current ≠ .booting → w'.current = w.current

namespace Stays

theorem of_eq {w w' : World τ Host} (h : w'.current = w.current) : Stays w w' := fun _ => h

theorem trans (w₁ w₂ w₃ : World τ Host) (h : Stays w₁ w₂) (h' : Stays w₂ w₃) : Stays w₁ w₃ := by
  intro hne
  have hfirst := h hne
  exact (h' (by rwa [hfirst])).trans hfirst

end Stays

/-- Past BOOTING a `boot` is refused. -/
theorem stays_boot : Proc.Moves (Stays (τ := τ)) (s.manager.boot s.onInit "runtime") := by
  intro w hne
  have hnot : .booting ∉ w.current.transitions := by
    cases w.current <;> simp [RuntimeState.transitions]
  have hset : (s.manager.setState .booting "runtime").run w = _ :=
    LifecycleManager.run_setState_of_not_mem s.manager (Ne.symm hne) hnot
  unfold LifecycleManager.boot
  rw [Proc.run_bind_of_raised hset]

/-- Past BOOTING a `start` does not come to its save, and it leaves the state. -/
theorem stays_start : Proc.Moves (Stays (τ := τ)) s.start := by
  have hself : ∀ w : World τ Host, Stays w w := fun _ => Stays.of_eq rfl
  have hdatabase : ∀ p, Proc.Moves (Stays (τ := τ)) (onDatabase p) := fun _ _ => Stays.of_eq rfl
  have hattached : ∀ b, Proc.Moves (Stays (τ := τ)) (Surroundings.setAttached b) :=
    fun _ _ => Stays.of_eq rfl
  have hbefore : Proc.Moves (Stays (τ := τ)) (beforeSave s) := by
    refine Proc.moves_bind Stays.trans ?_ fun _ => ?_
    · exact fun w => Stays.of_eq (congrArg World.current (current_of_mkdir rfl))
    · refine Proc.moves_bind Stays.trans (hdatabase _) fun _ => ?_
      refine Proc.moves_tryExcept Stays.trans ?_ fun e => ?_
      · exact Proc.moves_bind Stays.trans (hdatabase _) fun _ =>
          Proc.moves_bind Stays.trans (hattached true) fun _ => stays_boot
      · exact Proc.moves_bind Stays.trans (hattached false) fun _ =>
          Proc.moves_bind Stays.trans (hdatabase _) fun _ => Proc.moves_exit hself _
  intro w hne
  rw [start_eq]
  split
  · rfl
  · have hstays := hbefore w hne
    rcases hrun : (beforeSave s).run w with ⟨o, w'⟩
    rw [hrun] at hstays
    have ho : o ≠ .returned () := by
      rintro rfl
      obtain ⟨w₀, hcurrent, hboot⟩ := boot_of_beforeSave hrun
      exact hne (hcurrent ▸ (booting_of_boot hboot).1)
    rw [Proc.run_bind_of_ne_returned (Proc.run_bind_of_ne_returned hrun ho _) ho]
    exact hstays

/-! ### `stop` -/

/-- `stop` up to the flag. -/
abbrev goDown (s : Surroundings) : CoreProc τ Host Unit := do
  s.manager.shutdown s.onStop "runtime"
  Surroundings.setAttached false
  s.saveRuntimeState
  onDatabase (Database.close (s.await .close))

theorem follows_goDown : Proc.Moves (Follows (τ := τ)) (goDown s) :=
  Proc.moves_bind Follows.trans Follows.allows.shutdown fun _ =>
    Proc.moves_bind Follows.trans (Follows.allows.attached false) fun _ =>
      Proc.moves_bind Follows.trans Follows.saveRuntimeState fun _ => Follows.onDatabase _

/-- A `stop` that finds its flag set does nothing. -/
theorem run_stop_of_flags {w : World τ Host} (hstarted : w.host.started = true)
    (hstopped : w.host.stopped = true) : s.stop.run w = (.returned (), w) := by
  unfold Surroundings.stop
  rw [Proc.run_bind_of_returned (Proc.run_read w), hstarted, hstopped]
  rfl

/-- A `stop` leaves the flags or goes down and sets its flag. It returns when it has gone down,
or when it finds the flag set. -/
theorem stop_ends (s : Surroundings) (w : World τ Host) :
    (((s.stop.run w).1 = .returned () → w.host.stopped = true) ∧ Follows w (s.stop.run w).2) ∨
      (w.host.started = true ∧ ∃ w', (goDown s).run w = (.returned (), w') ∧ s.stop.run w
        = (.returned (), { w' with host := { w'.host with stopped := true } })) := by
  cases hstarted : w.host.started with
  | false =>
    have hrun : s.stop.run w = (.raised (.runtimeNotStarted s.name), w) := by
      unfold Surroundings.stop
      rw [Proc.run_bind_of_returned (Proc.run_read w), hstarted]
      rfl
    rw [hrun]
    exact .inl ⟨fun h => (by cases h), Follows.refl w⟩
  | true =>
    cases hstopped : w.host.stopped with
    | true =>
      rw [run_stop_of_flags hstarted hstopped]
      exact .inl ⟨fun _ => rfl, Follows.refl w⟩
    | false =>
      have hsplit : s.stop.run w = (goDown s >>= fun _ =>
          modifyHost fun h => { h with stopped := true }).run w := by
        rw [run_stop hstarted hstopped]
        unfold goDown
        simp only [Proc.bind_assoc]
      have hfollows := follows_goDown (s := s) w
      rw [hsplit]
      rcases hrun : (goDown s).run w with ⟨o, w'⟩
      rw [hrun] at hfollows
      cases o with
      | returned _ =>
        rw [Proc.run_bind_of_returned hrun]
        exact .inr ⟨rfl, w', rfl, rfl⟩
      | raised e =>
        rw [Proc.run_bind_of_raised hrun]
        exact .inl ⟨fun h => (by cases h), hfollows⟩
      | cancelled =>
        rw [Proc.run_bind_of_cancelled hrun]
        exact .inl ⟨fun h => (by cases h), hfollows⟩

/-- Nothing of the runtime is in use any more: the database is closed, the timeline and the
incident tracker are detached, and the registered subsystems have no task. -/
structure Released (s : Surroundings) (w : World τ Host) : Prop where
  closed : w.host.database.conn = none
  timeline : w.host.timelineAttached = false
  incidents : w.host.incidentsAttached = false
  idle : ∀ i, i < s.subsystems.length → w.host.running i = false

/-- A `stop` of a subsystem leaves it without a task, and it starts no other. -/
theorem idle_of_stopSubsystem (i : Nat) (w : World τ Host) :
    let w' := ((Proc.tryExcept (s.stopSubsystem i) fun _ => return : CoreProc τ Host Unit).run w).2
    w'.host.running i = false ∧ ∀ j, w.host.running j = false → w'.host.running j = false := by
  unfold Proc.tryExcept Surroundings.stopSubsystem
  simp only [Proc.run_bind_of_returned (Proc.run_read w)]
  cases hrunning : w.host.running i with
  | false => exact ⟨hrunning, fun _ h => h⟩
  | true =>
    have hforgets : ∀ j, w.host.running j = false →
        (if j = i then false else w.host.running j) = false := by
      intro j hj
      split
      · rfl
      · exact hj
    cases s.at? (.stop i) with
    | none => exact ⟨if_pos rfl, hforgets⟩
    | some how => cases how <;> exact ⟨if_pos rfl, hforgets⟩

/-- After the hook of `stop` the subsystems at the positions `is` have no task. -/
theorem idle_of_stopSubsystems (is : List Nat) :
    ∀ (w w' : World τ Host), (Proc.forEach is fun i =>
        Proc.tryExcept (s.stopSubsystem i) fun _ => return).run w = (.returned (), w') →
      (∀ i ∈ is, w'.host.running i = false) ∧
        ∀ j, w.host.running j = false → w'.host.running j = false := by
  induction is with
  | nil =>
    intro w w' h
    cases h
    exact ⟨fun i hi => (by cases hi), fun _ h => h⟩
  | cons i is ih =>
    intro w w' h
    rw [Proc.forEach_cons] at h
    obtain ⟨⟨⟩, w₁, hfirst, hrest⟩ := Proc.run_bind_eq_returned h
    have hstopped := idle_of_stopSubsystem (s := s) i w
    rw [hfirst] at hstopped
    obtain ⟨hself, hkeeps⟩ := hstopped
    obtain ⟨hidle, hkeeps'⟩ := ih w₁ w' hrest
    refine ⟨fun j hj => ?_, fun j hj => hkeeps' j (hkeeps j hj)⟩
    rcases List.mem_cons.mp hj with rfl | hj
    · exact hkeeps' j hself
    · exact hidle j hj

/-- A move to a state other than HEALTHY that returns is made. -/
theorem run_setState_eq_returned {target : RuntimeState} (htarget : target ≠ .healthy)
    {component : String} {w w' : World τ Host}
    (h : (s.manager.setState target component).run w = (.returned (), w')) :
    w' = { w with current := target } := by
  by_cases hself : target = w.current
  · subst hself
    rw [LifecycleManager.run_setState_self] at h
    exact (Prod.mk.inj h).2.symm
  · by_cases hmem : target ∈ w.current.transitions
    · rw [run_setState component hmem] at h
      rw [← (Prod.mk.inj h).2]
      simp [settle, Surroundings.settledOn, htarget]
    · rw [LifecycleManager.run_setState_of_not_mem _ hself hmem] at h
      cases h

/-- A `shutdown` that returns has brought the machine to STOPPED, where it was not before, and has
ended the tasks of the subsystems. -/
theorem of_shutdown {w w' : World τ Host}
    (h : (s.manager.shutdown s.onStop "runtime").run w = (.returned (), w')) :
    w.current ≠ .stopped ∧ w'.current = .stopped ∧
      ∀ i, i < s.subsystems.length → w'.host.running i = false := by
  unfold LifecycleManager.shutdown at h
  obtain ⟨⟨⟩, w₀, hstopping, hhook⟩ := Proc.run_bind_eq_returned h
  refine ⟨fun hcurrent => ?_, ?_⟩
  · have hself : RuntimeState.stopping ≠ w.current := by
      rw [hcurrent]
      decide
    have hnot : RuntimeState.stopping ∉ w.current.transitions := by
      rw [hcurrent]
      decide
    rw [LifecycleManager.run_setState_of_not_mem _ hself hnot] at hstopping
    cases hstopping
  · -- The hook and then the move to STOPPED.
    obtain ⟨running, honStop⟩ :=
      run_stopSubsystems (s := s) (List.range s.subsystems.length).reverse w₀
    have honStop' : s.onStop.run w₀ = (.returned (), _) := honStop
    obtain ⟨hidle, -⟩ := idle_of_stopSubsystems _ _ _ honStop
    simp only [Proc.tryFinally, honStop'] at hhook
    rcases hset : (s.manager.setState .stopped "runtime").run
      { w₀ with host := { w₀.host with running := running } } with ⟨o, w₅⟩
    rw [hset] at hhook
    cases o with
    | returned _ =>
      rw [run_setState_eq_returned (by decide) hset] at hhook
      rw [← (Prod.mk.inj hhook).2]
      exact ⟨rfl, fun i hi => hidle i (by simpa using hi)⟩
    | raised e => cases hhook
    | cancelled => cases hhook

/-- A `stop` that goes down is STOPPED and has released everything. -/
theorem released_of_goDown {w w' : World τ Host} (h : (goDown s).run w = (.returned (), w')) :
    w'.current = .stopped ∧ Released s w' := by
  obtain ⟨⟨⟩, w₁, hshutdown, h⟩ := Proc.run_bind_eq_returned h
  obtain ⟨⟨⟩, w₂, hdetach, h⟩ := Proc.run_bind_eq_returned h
  obtain ⟨⟨⟩, w₃, hsave, hclose⟩ := Proc.run_bind_eq_returned h
  obtain ⟨-, hstopped, hidle⟩ := of_shutdown hshutdown
  have hclosed : w' = { w₃ with
      host := { w₃.host with database := { w₃.host.database with conn := none } } } := by
    have hsecond := (Prod.mk.inj hclose).2
    rw [run_close] at hsecond
    exact hsecond.symm
  -- Nothing moves a STOPPED runtime while it is saved.
  have hsaved : ∃ db, w₃ = { w₂ with
      current := movedOn s w₂.current, host := { w₂.host with database := db } } := by
    rw [run_saveRuntimeState_eq] at hsave
    exact ⟨_, (Prod.mk.inj hsave).2.symm⟩
  obtain ⟨db, hsaved⟩ := hsaved
  have hdetached : w₂ = { w₁ with
      host := { w₁.host with timelineAttached := false, incidentsAttached := false } } :=
    (Prod.mk.inj hdetach).2.symm
  subst hclosed hsaved hdetached
  refine ⟨?_, rfl, rfl, rfl, hidle⟩
  show movedOn s w₁.current = .stopped
  rw [hstopped, movedOn_stopped]

/-! ### A runtime boots once -/

/-- An event moves the state along the graph. -/
theorem leads_next (w : World τ Host) (e : LifeEvent) : Leads w.current (e.next w).current := by
  cases e with
  | start s =>
    rcases start_ends s w with ⟨-, hfollows⟩ | ⟨w', hcomeUp, hrun⟩
    · exact hfollows.leads
    · show Leads w.current (s.start.run w).2.current
      rw [hrun]
      exact (follows_comeUp.of_run hcomeUp).leads
  | stop s =>
    rcases stop_ends s w with ⟨-, hfollows⟩ | ⟨-, w', hgoDown, hrun⟩
    · exact hfollows.leads
    · show Leads w.current (s.stop.run w).2.current
      rw [hrun]
      exact (follows_goDown.of_run hgoDown).leads
  | move m => exact leads_act w.current m

/-- A life moves the state along the graph. -/
theorem leads_life (es : List LifeEvent) :
    ∀ w : World τ Host, Leads w.current (life w es).current := by
  induction es with
  | nil => exact fun _ => .refl
  | cons e es ih => exact fun w => (leads_next w e).trans (ih (e.next w))

/-- Past BOOTING no `start` returns, and none moves the state. -/
theorem start_refused {w : World τ Host} (h : w.current ≠ .booting) (s : Surroundings) :
    (s.start.run w).1 ≠ .returned () ∧ (s.start.run w).2.current = w.current :=
  ⟨fun hreturns => h (booting_of_start hreturns).1, stays_start w h⟩

/-- A runtime boots once. After a `start` that has returned, and any calls of `start` and `stop`
with any failures and cancellations and any moves of the subsystems, no `start` returns any more,
and none moves the state. -/
theorem start_returns_once (w : World τ Host) (s s' : Surroundings) (es : List LifeEvent)
    (h : (s.start.run w).1 = .returned ()) :
    (s'.start.run (life (s.start.run w).2 es)).1 ≠ .returned () ∧
      (s'.start.run (life (s.start.run w).2 es)).2.current
        = (life (s.start.run w).2 es).current := by
  refine start_refused (fun hbooting => ?_) s'
  have hleads : Leads .initializing (life (s.start.run w).2 es).current :=
    (booting_of_start h).2.trans (leads_life es _)
  rw [hbooting] at hleads
  cases hleads.eq_booting

/-- A call that nothing interrupts. -/
def undisturbed : Surroundings where
  name := "edge"
  subsystems := [⟨false, false⟩]

/-- A second `start`, after the runtime was stopped. -/
theorem start_returns_once_undisturbed :
    (undisturbed.start.run (neverStarted () [])).1 = .returned () ∧
      (undisturbed.start.run (life (undisturbed.start.run (neverStarted () [])).2
        [.stop undisturbed])).1 ≠ .returned () := by
  have hreturns : (undisturbed.start.run (neverStarted () [])).1 = .returned () := rfl
  exact ⟨hreturns, (start_returns_once (neverStarted () []) undisturbed undisturbed
    [.stop undisturbed] hreturns).1⟩

/-! ### A stopped runtime stays stopped -/

/-- The runtime is STOPPED, and `stop` knows it. -/
structure Over (w : World τ Host) : Prop where
  started : w.host.started = true
  stopped : w.host.stopped = true
  current : w.current = .stopped

namespace Over

variable {w : World τ Host}

theorem next (h : Over w) (e : LifeEvent) : Over (e.next w) := by
  have hcurrent : (e.next w).current = .stopped := by
    have hleads := leads_next w e
    rw [h.current] at hleads
    exact Leads.eq_stopped hleads
  cases e with
  | start s =>
    obtain ⟨hne, -⟩ := start_refused (by rw [h.current]; simp) s
    rcases start_ends s w with ⟨-, hfollows⟩ | ⟨w', -, hrun⟩
    · exact ⟨hfollows.started.trans h.started, hfollows.stopped.trans h.stopped, hcurrent⟩
    · rw [hrun] at hne
      exact absurd rfl hne
  | stop s =>
    show Over (s.stop.run w).2
    rw [run_stop_of_flags h.started h.stopped]
    exact h
  | move m => exact ⟨h.started, h.stopped, hcurrent⟩

theorem life (es : List LifeEvent) : ∀ {w : World τ Host}, Over w → Over (Core.life w es) := by
  induction es with
  | nil => exact fun h => h
  | cons e es ih => exact fun h => ih (h.next e)

end Over

/-- "Stopped" means that everything is released, and that it stays so. The `stop` that stops the
runtime returns with the database closed, the timeline and the incident tracker detached, and no
task of a registered subsystem left. After any further calls and moves the runtime is STOPPED, no
`start` returns, and every `stop` returns without doing anything. -/
theorem stop_releases (w : World τ Host) (s s' : Surroundings) (es : List LifeEvent)
    (hflag : w.host.stopped = false) (h : (s.stop.run w).1 = .returned ()) :
    Released s (s.stop.run w).2 ∧
      (life (s.stop.run w).2 es).current = .stopped ∧
      (s'.start.run (life (s.stop.run w).2 es)).1 ≠ .returned () ∧
      s'.stop.run (life (s.stop.run w).2 es) = (.returned (), life (s.stop.run w).2 es) := by
  rcases stop_ends s w with ⟨hset, -⟩ | ⟨hstarted, w', hgoDown, hrun⟩
  · rw [hset h] at hflag
    cases hflag
  · obtain ⟨hcurrent, hreleased⟩ := released_of_goDown hgoDown
    have hfollows := follows_goDown.of_run hgoDown
    have hover : Over (s.stop.run w).2 := by
      rw [hrun]
      exact ⟨hfollows.started.trans hstarted, rfl, hcurrent⟩
    have hlater := hover.life es
    refine ⟨?_, hlater.current, (start_refused (by rw [hlater.current]; simp) s').1,
      run_stop_of_flags hlater.started hlater.stopped⟩
    rw [hrun]
    exact ⟨hreleased.closed, hreleased.timeline, hreleased.incidents, hreleased.idle⟩

/-- A running runtime is stopped, and a monitor that is late asks for FAILED. -/
theorem stop_releases_runningRuntime :
    Released undisturbed (undisturbed.stop.run runningRuntime).2 ∧
      (life (undisturbed.stop.run runningRuntime).2 [.move .escalate]).current = .stopped := by
  obtain ⟨hreleased, hcurrent, -⟩ :=
    stop_releases runningRuntime undisturbed undisturbed [.move .escalate] rfl rfl
  exact ⟨hreleased, hcurrent⟩

end EdgeSentinel.Proofs.Core
