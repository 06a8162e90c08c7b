import EdgeSentinel.Proofs.Core.Start

/-!
# `EdgeSentinel.Proofs.Core.Stop`: which failed `stop` can be completed later

`stop` moves the machine to STOPPING and to STOPPED, and sets `_stopped` only at its very
end. A failure while the machine is STOPPING is harmless: the next `stop` finds the machine
in STOPPING, which is a self-move, and goes on. A failure once the machine is STOPPED is
not. STOPPED is terminal and `_stopped` is not set, so every later `stop` asks for the move
to STOPPING and raises (`stuck_of_wedged`).

`completes_iff` proves that a `stop` of a running runtime can be completed exactly when its
failure comes before STOPPED.
-/

set_option autoImplicit false

namespace EdgeSentinel.Core.Script

open Async

variable {τ : Type} (s : Script)

/-- The same registrations, with another failure. -/
def failing (failure : Option (Point × Interruption)) : Script where
  name := s.name
  recovery := s.recovery
  subsystems := s.subsystems
  handlers := s.handlers
  drift := s.drift
  inSave := s.inSave
  failure := failure

/-- Further calls of `stop`, with the given failures. -/
def stops (w : World τ Host) (failures : List (Option (Point × Interruption))) : World τ Host :=
  failures.foldl (fun w failure => ((s.failing failure).stop.run w).2) w

/-- The failure, if there is one, comes before the machine is STOPPED. -/
def beforeStopped : Bool :=
  match s.failure with
  | some (.handler .stopped i, _) => decide (s.handlers ≤ i)
  | some (.publish .stopped, .cancelled _) => false
  | some (.save, _) => false
  | some (.close, _) => false
  | _ => true

end EdgeSentinel.Core.Script

namespace EdgeSentinel.Proofs.Core

open Async EdgeSentinel.Core EdgeSentinel.Persistence EdgeSentinel.Proofs.Persistence

variable {τ : Type} {s : Surroundings}

/-- `start` has returned and `stop` has not: the flags and the connection. -/
structure Open (w : World τ Host) : Prop where
  started : w.host.started = true
  notStopped : w.host.stopped = false
  conn : w.host.database.conn = some .autocommit
  free : w.host.database.locked = false

/-- A running runtime: the machine may move to STOPPING. -/
structure Running (w : World τ Host) : Prop extends Open w where
  stoppable : .stopping ∈ w.current.transitions

/-- The machine is STOPPED and the database is open. -/
structure Halted (w : World τ Host) : Prop extends Open w where
  stopped : w.current = .stopped

/-- The machine is STOPPED, and `stop` has not come to its end. -/
structure Wedged (w : World τ Host) : Prop where
  started : w.host.started = true
  notStopped : w.host.stopped = false
  stopped : w.current = .stopped

/-- The runtime is STOPPED with the database closed. -/
def Done (w : World τ Host) : Prop := w.current = .stopped ∧ w.host.database.conn = none

/-- After any further calls of `stop`, the next one raises, whether or not something fails. -/
def Stuck (s : Script) (w : World τ Host) : Prop :=
  ∀ failures failure, ∃ e,
    ((s.failing failure).stop.run (s.stops w failures)).1 = .raised e

/-- The contract of one call of `stop`: it is done, or a later call without a failure gets it
done, and not every further call raises. -/
def Completes (s : Script) (w : World τ Host) : Prop :=
  (Done (s.stop.run w).2 ∨ ∃ failures, Done (s.stops (s.stop.run w).2 (failures ++ [none]))) ∧
    ¬ Stuck s (s.stop.run w).2

/-! ### Running runtimes -/

/-- No move of a subsystem takes the runtime to a state that cannot be stopped. -/
theorem stoppable_act {c : RuntimeState} (h : .stopping ∈ c.transitions) (move : Move) :
    .stopping ∈ (move.act c).transitions := by
  cases move with
  | escalate => cases c <;> revert h <;> decide
  | network target =>
    obtain ⟨target, htarget⟩ := target
    cases c <;> cases target <;> revert h htarget <;> decide
  | pressure target =>
    obtain ⟨target, htarget⟩ := target
    cases c <;> cases target <;> revert h htarget <;> decide

theorem stoppable_foldl (moves : List Move) :
    ∀ c : RuntimeState, .stopping ∈ c.transitions →
      .stopping ∈ (moves.foldl Move.act c).transitions := by
  induction moves with
  | nil =>
    intro c h
    exact h
  | cons move moves ih =>
    intro c h
    exact ih (move.act c) (stoppable_act h move)

theorem stoppable_drifted (s : Surroundings) : .stopping ∈ s.drifted.transitions := by
  unfold Surroundings.drifted
  split
  · decide
  · exact stoppable_foldl s.drift .healthy (by decide)

theorem stoppable_movedOn {c : RuntimeState} (h : .stopping ∈ c.transitions) :
    .stopping ∈ (movedOn s c).transitions := by
  unfold movedOn
  split
  · exact h
  · exact stoppable_foldl s.inSave c h

/-- Nothing moves a STOPPED runtime. -/
theorem movedOn_stopped (s : Surroundings) : movedOn s .stopped = .stopped := by
  have hact (move : Move) : move.act .stopped = .stopped := by
    cases move with
    | escalate => rfl
    | network target =>
      obtain ⟨target, htarget⟩ := target
      cases target <;> revert htarget <;> decide
    | pressure target =>
      obtain ⟨target, htarget⟩ := target
      cases target <;> revert htarget <;> decide
  have hfold (moves : List Move) : moves.foldl Move.act .stopped = .stopped := by
    induction moves with
    | nil => rfl
    | cons move moves ih => rw [List.foldl_cons, hact, ih]
  unfold movedOn
  split
  · rfl
  · exact hfold s.inSave

/-- A first `start` that returns leaves a running runtime. -/
theorem running_of_start {s : Script} (clock : τ) (disk : List (String × String))
    (h : (s.start.run (neverStarted clock disk)).1 = .returned ()) :
    Running (s.start.run (neverStarted clock disk)).2 := by
  rcases start_cases s clock disk with ⟨-, o, ho, hrun⟩ | ⟨how, c, attached, k, o, -, ho, hrun⟩ |
    ⟨-, hrun⟩
  · rw [hrun] at h
    exact absurd h ho
  · rw [hrun] at h
    exact absurd h ho
  · obtain ⟨w, hafter, hconn, hfree, hcurrent, hflags⟩ :=
      run_afterTry s clock disk s.drifted true s.subsystems.length
    rw [hrun, hafter] at h ⊢
    obtain ⟨hstarted, hstopped⟩ := hflags h
    exact ⟨⟨hstarted, hstopped, hconn, hfree⟩, hcurrent ▸ stoppable_movedOn (stoppable_drifted s)⟩

/-! ### The subsystems -/

/-- What a subsystem raises in its `stop` is logged. -/
theorem run_stopSubsystem (i : Nat) (w : World τ Host) :
    ∃ running, (Proc.tryExcept (s.stopSubsystem i) fun _ => return).run w
      = (.returned (), { w with host := { w.host with running := running } }) := by
  unfold Proc.tryExcept Surroundings.stopSubsystem
  simp only [Proc.run_bind_of_returned (Proc.run_read w)]
  -- A subsystem without a task has nothing to stop.
  cases w.host.running i with
  | false => exact ⟨w.host.running, rfl⟩
  | true =>
    cases s.at? (.stop i) with
    | none => exact ⟨_, rfl⟩
    | some how => cases how <;> exact ⟨_, rfl⟩

/-- The subsystems at the positions `is` stop one after the other. -/
theorem run_stopSubsystems (is : List Nat) :
    ∀ w : World τ Host, ∃ running,
      (Proc.forEach is fun i => Proc.tryExcept (s.stopSubsystem i) fun _ => return).run w
        = (.returned (), { w with host := { w.host with running := running } }) := by
  -- What is left running changes at every step, and nothing else.
  induction is with
  | nil =>
    intro w
    exact ⟨w.host.running, rfl⟩
  | cons i is ih =>
    intro w
    obtain ⟨running, hfirst⟩ := run_stopSubsystem (s := s) i w
    obtain ⟨running', hrest⟩ := ih { w with host := { w.host with running := running } }
    refine ⟨running', ?_⟩
    rw [Proc.forEach_cons, Proc.run_bind_of_returned hfirst, hrest]

/-- `shutdown` from its hook on. -/
theorem run_onStop {w : World τ Host} (h : w.current = .stopping) :
    ∃ running, (Proc.tryFinally s.onStop (s.manager.setState .stopped "runtime")).run w
      = (s.notified .stopped,
          { w with current := .stopped, host := { w.host with running := running } }) := by
  obtain ⟨running, hstop⟩ := run_stopSubsystems (s := s) (List.range s.subsystems.length).reverse w
  refine ⟨running, ?_⟩
  have hset : (s.manager.setState .stopped "runtime").run
      { w with host := { w.host with running := running } }
      = (s.notified .stopped,
          { w with current := .stopped, host := { w.host with running := running } }) :=
    run_setState "runtime" (by simp [h, RuntimeState.transitions])
  have hhook : s.onStop.run w
      = (.returned (), { w with host := { w.host with running := running } }) := hstop
  -- The hook returns, so the whole ends as the move to STOPPED does.
  simp only [Proc.tryFinally, hhook, hset]
  cases s.notified .stopped <;> rfl

/-! ### `stop` -/

/-- `stop` after the shutdown of the manager. -/
abbrev afterShutdown (s : Surroundings) : CoreProc τ Host Unit := do
  Surroundings.setAttached false
  s.saveRuntimeState
  onDatabase (Database.close (s.await .close))
  modifyHost fun h => { h with stopped := true }

/-- `stop` of a runtime that has started and not stopped. -/
theorem run_stop {w : World τ Host} (hstarted : w.host.started = true)
    (hstopped : w.host.stopped = false) :
    s.stop.run w = (s.manager.shutdown s.onStop "runtime" >>= fun _ => afterShutdown s).run w := by
  unfold Surroundings.stop
  rw [Proc.run_bind_of_returned (Proc.run_read w), hstarted, hstopped]
  rfl

/-- STOPPED is terminal: `stop` is refused before it touches anything. -/
theorem run_stop_of_wedged {w : World τ Host} (h : Wedged w) (s : Surroundings) :
    s.stop.run w = (.raised (.invalidStateTransition ⟨.stopped, .stopping⟩), w) := by
  have hset : (s.manager.setState .stopping "runtime").run w
      = (.raised (.invalidStateTransition ⟨.stopped, .stopping⟩), w) := by
    rw [LifecycleManager.run_setState_of_not_mem _ (by simp [h.stopped])
      (by simp [h.stopped, RuntimeState.transitions]), h.stopped]
  rw [run_stop h.started h.notStopped]
  exact Proc.run_bind_of_raised (Proc.run_bind_of_raised hset _) _

/-- A wedged runtime stays as it is. -/
theorem stops_of_wedged {s : Script} {w : World τ Host} (h : Wedged w)
    (failures : List (Option (Point × Interruption))) : s.stops w failures = w := by
  induction failures with
  | nil => rfl
  | cons failure failures ih =>
    show s.stops ((s.failing failure).stop.run w).2 failures = w
    rw [run_stop_of_wedged h, ih]

theorem stuck_of_wedged {s : Script} {w : World τ Host} (h : Wedged w) : Stuck s w := by
  intro failures failure
  rw [stops_of_wedged h, run_stop_of_wedged h]
  exact ⟨_, rfl⟩

/-- A wedged runtime breaks the contract. -/
theorem not_completes_of_wedged {s : Script} {w : World τ Host} (h : Wedged (s.stop.run w).2) :
    ¬ Completes s w :=
  fun hc => hc.2 (stuck_of_wedged h)

theorem Halted.wedged {w : World τ Host} (h : Halted w) : Wedged w :=
  ⟨h.started, h.notStopped, h.stopped⟩

/-- The save leaves everything but the file. -/
theorem Halted.run_save {w : World τ Host} (h : Halted w) :
    ∃ w', s.saveRuntimeState.run w = ((s.await .save).outcome, w') ∧ Halted w' := by
  obtain ⟨disk, hrun⟩ := run_saveRuntimeState (s := s) h.conn h.free
  refine ⟨_, hrun, ⟨h.started, h.notStopped, h.conn, h.free⟩, ?_⟩
  show movedOn s w.current = .stopped
  rw [h.stopped, movedOn_stopped]

/-- The close drops the connection, however it ends. -/
theorem Halted.run_close {w : World τ Host} (h : Halted w) (a : Await) :
    ∃ w', (onDatabase (Database.close a)).run w = (a.outcome, w') ∧ Wedged w' ∧
      w'.host.database.conn = none := by
  simp only [onDatabase, run_close_of_some h.conn]
  exact ⟨_, rfl, ⟨h.started, h.notStopped, h.stopped⟩, rfl⟩

/-- A runtime that is done, with the flag set. -/
structure Finished (w : World τ Host) : Prop where
  started : w.host.started = true
  stopped : w.host.stopped = true
  done : Done w

/-- After the shutdown of the manager, `stop` gets to its end, or it leaves a wedged runtime. -/
theorem Halted.run_afterShutdown {w : World τ Host} (h : Halted w) :
    if s.at? .save = none ∧ s.at? .close = none then
      ∃ w', (afterShutdown s).run w = (.returned (), w') ∧ Finished w'
    else Wedged ((afterShutdown s).run w).2 := by
  have hdetached : Halted ((Surroundings.setAttached false).run w).2 :=
    ⟨⟨h.started, h.notStopped, h.conn, h.free⟩, h.stopped⟩
  obtain ⟨w₁, hsave, hhalted⟩ := hdetached.run_save (s := s)
  obtain ⟨w₂, hclose, hwedged, hconn⟩ := hhalted.run_close (s.await .close)
  have hstart : (afterShutdown s).run w
      = (do
          s.saveRuntimeState
          onDatabase (Database.close (s.await .close))
          modifyHost fun h => { h with stopped := true }).run
        ((Surroundings.setAttached false).run w).2 := rfl
  rw [hstart]
  -- A failed save and a failed close both leave the machine STOPPED and the flag unset.
  cases hs : s.at? .save with
  | some how =>
    rw [if_neg (by simp), Proc.run_bind_of_ne_returned hsave (await_ne_returned hs)]
    exact hhalted.wedged
  | none =>
    rw [await_of_none hs] at hsave
    rw [Proc.run_bind_of_returned hsave]
    cases hc : s.at? .close with
    | some how =>
      rw [if_neg (by simp), Proc.run_bind_of_ne_returned hclose (await_ne_returned hc)]
      exact hwedged
    | none =>
      have hout : (s.await .close).outcome = .returned () := by rw [await_of_none hc]; rfl
      rw [hout] at hclose
      rw [if_pos (by simp), Proc.run_bind_of_returned hclose]
      exact ⟨_, rfl, hwedged.started, rfl, hwedged.stopped, hconn⟩

/-- The failures that come before STOPPED. -/
theorem beforeStopped_iff (s : Script) :
    s.beforeStopped = true ↔
      s.notified .stopped = .returned () ∧ s.at? .save = none ∧ s.at? .close = none := by
  unfold Script.beforeStopped Surroundings.notified
  rw [handlerFailure_eq, busFailure_eq]
  cases hf : s.failure with
  | none => simp [at?_of_none hf]
  | some failure =>
    obtain ⟨p, how⟩ := failure
    simp only [at?_of_failure hf, ne_eq, reduceCtorEq, not_false_eq_true, implies_true]
    cases p with
    | handler target i =>
      cases target with
      | stopped =>
        by_cases hi : i < s.handlers
        · simp [hi, outcome_ne_returned how]
        · simp [hi, Nat.le_of_not_lt hi]
      | _ => simp
    | publish target => cases target <;> cases how <;> simp [Interruption.outcome]
    | _ => simp

/-- `stop` from the hook of `shutdown` on. -/
abbrev fromHook (s : Surroundings) : CoreProc τ Host Unit := do
  Proc.tryFinally s.onStop (s.manager.setState .stopped "runtime")
  afterShutdown s

variable {s : Script}

/-- From STOPPING, `stop` gets to its end if and only if its failure comes before STOPPED.
Otherwise it leaves a wedged runtime. -/
theorem run_fromHook {w : World τ Host} (h : Open w) (hcur : w.current = .stopping) :
    if s.beforeStopped then
      ∃ w', (fromHook s).run w = (.returned (), w') ∧ Finished w'
    else Wedged ((fromHook s).run w).2 := by
  obtain ⟨running, hhook⟩ := run_onStop (s := s.toSurroundings) hcur
  have hhalted : Halted
      { w with current := .stopped, host := { w.host with running := running } } :=
    ⟨⟨h.started, h.notStopped, h.conn, h.free⟩, rfl⟩
  have hafter := hhalted.run_afterShutdown (s := s.toSurroundings)
  unfold fromHook
  -- The machine is STOPPED before its change is notified.
  cases hout : s.notified .stopped with
  | returned _ =>
    rw [hout] at hhook
    rw [Proc.run_bind_of_returned hhook]
    simpa only [beforeStopped_iff, hout, true_and] using hafter
  | raised e =>
    rw [hout] at hhook
    rw [Proc.run_bind_of_raised hhook, if_neg (by simp [beforeStopped_iff, hout])]
    exact hhalted.wedged
  | cancelled =>
    rw [hout] at hhook
    rw [Proc.run_bind_of_cancelled hhook, if_neg (by simp [beforeStopped_iff, hout])]
    exact hhalted.wedged

/-- A failure on the change to STOPPING comes before STOPPED. -/
theorem beforeStopped_of_notified (h : s.notified .stopping ≠ .returned ()) :
    s.beforeStopped = true := by
  unfold Surroundings.notified at h
  rw [handlerFailure_eq, busFailure_eq] at h
  unfold Script.beforeStopped
  cases hf : s.failure with
  | none => rfl
  | some failure =>
    obtain ⟨p, how⟩ := failure
    rw [hf] at h
    cases p with
    | handler target i => cases target <;> simp at h ⊢
    | publish target => cases target <;> cases how <;> simp at h ⊢
    | _ => simp at h ⊢

/-- `stop` of a running runtime: it ends in STOPPING, or it goes on from there. -/
theorem run_stop_of_running {w : World τ Host} (h : Running w) :
    s.stop.run w = if s.notified .stopping = .returned () then
        (fromHook s).run { w with current := .stopping }
      else (s.notified .stopping, { w with current := .stopping }) := by
  have hset : (s.manager.setState .stopping "runtime").run w
      = (s.notified .stopping, { w with current := .stopping }) :=
    run_setState "runtime" h.stoppable
  rw [run_stop h.started h.notStopped]
  unfold LifecycleManager.shutdown
  rw [Proc.bind_assoc]
  split
  · rename_i hout
    rw [hout] at hset
    rw [Proc.run_bind_of_returned hset]
  · rename_i hout
    exact Proc.run_bind_of_ne_returned hset hout _

/-- A retry from STOPPING. -/
theorem run_stop_of_stopping {w : World τ Host} (h : Open w) (hcur : w.current = .stopping) :
    s.stop.run w = (fromHook s).run w := by
  have hset : (s.manager.setState .stopping "runtime").run w = (.returned (), w) := by
    rw [← hcur]
    exact LifecycleManager.run_setState_self _ w "runtime"
  rw [run_stop h.started h.notStopped]
  unfold LifecycleManager.shutdown
  rw [Proc.bind_assoc, Proc.run_bind_of_returned hset]

/-- `stop` does nothing once the flag is set. -/
theorem run_stop_of_finished {w : World τ Host} (h : Finished w) :
    s.stop.run w = (.returned (), w) := by
  unfold Surroundings.stop
  rw [Proc.run_bind_of_returned (Proc.run_read w), h.started, h.stopped]
  rfl

/-- A runtime whose next `stop` without a failure returns is not stuck. -/
theorem not_stuck {w w' : World τ Host}
    (h : (s.failing none).stop.run w = (.returned (), w')) : ¬ Stuck s w := by
  intro hstuck
  obtain ⟨e, he⟩ := hstuck [] none
  have hret : ((s.failing none).stop.run w).1 = .returned () := by rw [h]
  rw [Script.stops, List.foldl_nil, hret] at he
  cases he

/-- A `stop` of a running runtime can be completed if and only if its failure, if it has one,
comes before the machine is STOPPED. -/
theorem completes_iff {w : World τ Host} (h : Running w) (s : Script) :
    Completes s w ↔ s.beforeStopped = true := by
  have hopen : Open { w with current := .stopping } :=
    ⟨h.started, h.notStopped, h.conn, h.free⟩
  have hrun := run_stop_of_running (s := s) h
  by_cases hout : s.notified .stopping = .returned ()
  · -- The call goes through the hook itself.
    rw [if_pos hout] at hrun
    have hhook := run_fromHook (s := s) hopen rfl
    cases hbefore : s.beforeStopped with
    | false =>
      rw [hbefore, if_neg (by simp), ← hrun] at hhook
      exact iff_of_false (not_completes_of_wedged hhook) (by simp)
    | true =>
      rw [hbefore, if_pos rfl, ← hrun] at hhook
      obtain ⟨w', hstop, hfinished⟩ := hhook
      refine iff_of_true ?_ rfl
      unfold Completes
      rw [hstop]
      exact ⟨Or.inl hfinished.done, not_stuck (run_stop_of_finished hfinished)⟩
  · -- The machine is STOPPING; the next `stop` goes on from there.
    rw [if_neg hout] at hrun
    obtain ⟨w', hretry, hfinished⟩ := run_fromHook (s := s.failing none) hopen rfl
    rw [← run_stop_of_stopping hopen rfl] at hretry
    refine iff_of_true ?_ (beforeStopped_of_notified hout)
    unfold Completes
    rw [hrun]
    refine ⟨Or.inr ⟨[], ?_⟩, not_stuck hretry⟩
    show Done ((s.failing none).stop.run _).2
    rw [hretry]
    exact hfinished.done

/-- A running runtime of one subsystem. -/
def runningRuntime : World Unit Host where
  current := .healthy
  clock := ()
  host :=
    { database := { conn := some .autocommit }
      timelineAttached := true
      incidentsAttached := true
      running := fun i => decide (i = 0)
      started := true
      stopped := false }

theorem running_runningRuntime : Running runningRuntime where
  started := rfl
  notStopped := rfl
  conn := rfl
  free := rfl
  stoppable := by decide

/-- A `stop` whose handler raises on STOPPING. -/
def stoppingHandlerRaises : Script where
  name := "edge"
  subsystems := [⟨false, false⟩]
  handlers := 1
  failure := some (.handler .stopping 0, .raises (.other 1))

theorem completes_iff_stoppingHandlerRaises : Completes stoppingHandlerRaises runningRuntime :=
  (completes_iff running_runningRuntime stoppingHandlerRaises).mpr rfl

/-- A `stop` whose save finds the disk full. -/
def saveRaises : Script where
  name := "edge"
  subsystems := [⟨false, false⟩]
  failure := some (.save, .raises (.other 1))

/-- After a failed save the runtime is STOPPED with its database open, and every later `stop`
raises. -/
theorem failed_save_wedges :
    ¬ Completes saveRaises runningRuntime ∧
      Stuck saveRaises (saveRaises.stop.run runningRuntime).2 ∧
      (saveRaises.stop.run runningRuntime).2.host.database.conn = some .autocommit := by
  have hwedged : Wedged (saveRaises.stop.run runningRuntime).2 := ⟨rfl, rfl, rfl⟩
  exact ⟨not_completes_of_wedged hwedged, stuck_of_wedged hwedged, rfl⟩

end EdgeSentinel.Proofs.Core
