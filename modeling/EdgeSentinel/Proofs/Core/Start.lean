import EdgeSentinel.Proofs.Core.Interruptions

/-!
# `EdgeSentinel.Proofs.Core.Start`: what a failed `start` leaves behind

`start` cleans up after an `Exception` of its try block: it detaches the timeline and the
incident tracker and closes the database. Three things get past it. A cancellation is not an
`Exception`. The subsystems that have been started are not stopped. And the runtime state is
saved after the try block.

`Script.way` reads off a script how `start` ends, and `Script.cleansUp` in which of these
ways it leaves nothing behind. `allOrNothing_iff` proves that a `start` of a never-started
runtime is all or nothing exactly then.
-/

set_option autoImplicit false

namespace EdgeSentinel.Core

open Async

/-- The ways a `start` can end. -/
inductive Way where
  /-- The mkdir or the connect fails. -/
  | beforeTry
  /-- The try block is interrupted before HEALTHY, with so many subsystems started. -/
  | early (how : Interruption) (started : Nat)
  /-- HEALTHY is refused, because a subsystem has escalated to FAILED. -/
  | refused
  /-- The notification of HEALTHY is interrupted. -/
  | notifying (how : Interruption)
  /-- The save of the runtime state fails. -/
  | saving
  | returns
  deriving DecidableEq, Repr

namespace Script

variable (s : Script)

/-- The interruption of a `start` before it comes to HEALTHY. -/
def early : Option Way :=
  match s.failure with
  | some (.mkdir, .raises _) => some .beforeTry
  | some (.connect, _) => some .beforeTry
  | some (.migrate, how) => some (.early how 0)
  | some (.handler .initializing i, how) => if i < s.handlers then some (.early how 0) else none
  | some (.publish .initializing, .cancelled job) => some (.early (.cancelled job) 0)
  | some (.replay, how) => if s.recovery then some (.early how 0) else none
  | some (.start i, how) => if i < s.subsystems.length then some (.early how i) else none
  | _ => none

/-- The end of a `start` that enters HEALTHY. -/
def late : Way :=
  match s.failure with
  | some (.handler .healthy i, how) => if i < s.handlers then .notifying how else .returns
  | some (.publish .healthy, .cancelled job) => .notifying (.cancelled job)
  | some (.save, _) => .saving
  | _ => .returns

/-- How `start` ends. -/
def way : Way :=
  match s.early with
  | some way => way
  | none => if s.subsystems.any (·.escalates) then .refused else s.late

/-- A `start` that ends in this way leaves nothing behind. A cancelled one never does, and a
raising one when the tasks of the started subsystems have ended by themselves; after HEALTHY
the subsystems must also have moved the state on. -/
def cleansUp : Bool :=
  match s.way with
  | .beforeTry => true
  | .early (.raises _) started => (s.subsystems.take started).all (·.exits)
  | .refused => s.subsystems.all (·.exits)
  | .notifying (.raises _) => s.subsystems.all (·.exits) && decide (s.drifted ≠ .healthy)
  | .returns => true
  | _ => false

end Script

end EdgeSentinel.Core

namespace EdgeSentinel.Proofs.Core

open Async EdgeSentinel.Core EdgeSentinel.Persistence EdgeSentinel.Proofs.Persistence

variable {τ : Type} {s : Surroundings}

/-- The runtime during its first `start`: the state, the connection, whether the timeline and
the tracker are attached, and how many subsystems have been started. -/
def stage (clock : τ) (disk : List (String × String)) (current : RuntimeState)
    (conn : Option (Connection (String × String))) (attached : Bool) (count : Nat) :
    World τ Host where
  current := current
  clock := clock
  host :=
    { database := { conn := conn, locked := false, disk := disk }
      timelineAttached := attached
      incidentsAttached := attached
      running := fun i => decide (i < count)
      started := false
      stopped := false }

/-- A never-started runtime. -/
def neverStarted (clock : τ) (disk : List (String × String)) : World τ Host :=
  stage clock disk .booting none false 0

/-- Nothing is left behind: the database is not connected, the timeline and the incident
tracker are detached, no subsystem is running, and the state is not HEALTHY. -/
def NothingLeft (s : Surroundings) (w : World τ Host) : Prop :=
  w.host.database.conn = none ∧ w.host.timelineAttached = false ∧
    w.host.incidentsAttached = false ∧
    (∀ i subsystem, s.subsystems[i]? = some subsystem → w.host.running i = true →
      subsystem.exits = true) ∧
    w.current ≠ .healthy

variable {clock : τ} {disk : List (String × String)} {c : RuntimeState}
  {conn : Option (Connection (String × String))} {attached : Bool} {k : Nat}

/-! ### The points of a script -/

/-- An await that ends as the interruption says. -/
def Ends (how : Interruption) (o : Outcome Exn Unit) : Prop :=
  match how with
  | .raises _ => ∃ e, o = .raised e
  | .cancelled _ => o = .cancelled

theorem Ends.ne_returned {how : Interruption} {o : Outcome Exn Unit} (h : Ends how o) :
    o ≠ .returned () := by
  cases how with
  | raises e =>
    obtain ⟨e', rfl⟩ := h
    simp
  | cancelled job =>
    obtain rfl : o = .cancelled := h
    simp

theorem ends_outcome (how : Interruption) : Ends how how.outcome := by
  cases how with
  | raises e => exact ⟨e, rfl⟩
  | cancelled job => rfl

theorem ends_await {p : Point} {how : Interruption} (h : s.at? p = some how) :
    Ends how (s.await p).outcome := by
  simp only [Surroundings.await, h]
  cases how with
  | raises e => exact ⟨_, rfl⟩
  | cancelled job => rfl

/-! ### Subsystems -/

/-- The state after a subsystem has started, or has been interrupted in its start. -/
def escalated (c : RuntimeState) (subsystems : List Subsystem) : RuntimeState :=
  if subsystems.any (·.escalates) then .failed else c

theorem escalated_cases (hc : c = .initializing ∨ c = .failed) (subsystems : List Subsystem) :
    escalated c subsystems = .initializing ∨ escalated c subsystems = .failed := by
  unfold escalated
  split
  · exact Or.inr rfl
  · exact hc

theorem escalated_cons (subsystem : Subsystem) (subsystems : List Subsystem) :
    escalated (escalated c [subsystem]) subsystems = escalated c (subsystem :: subsystems) := by
  unfold escalated
  cases hs : subsystem.escalates <;> simp [hs]

/-- The next subsystem starts, or it is interrupted after its first check. -/
theorem run_startSubsystem (hc : c = .initializing ∨ c = .failed) (subsystem : Subsystem) :
    (s.startSubsystem k subsystem).run (stage clock disk c conn attached k)
      = (s.outcomeAt (.start k), stage clock disk (escalated c [subsystem]) conn attached
          (if (s.at? (.start k)).isSome then k else k + 1)) := by
  have hidle : (stage clock disk c conn attached k).host.running k = false := by simp [stage]
  have hcheck : (s.startSubsystem k subsystem).run (stage clock disk c conn attached k) = (do
      s.meet (.start k)
      modifyHost fun h => { h with
        running := fun j => if j = k then true else h.running j } : CoreProc τ Host Unit).run
      (stage clock disk (escalated c [subsystem]) conn attached k) := by
    unfold Surroundings.startSubsystem
    rw [Proc.run_bind_of_returned (Proc.run_read _), hidle]
    rcases hc with rfl | rfl <;> cases he : subsystem.escalates <;> simp [escalated, he] <;> rfl
  have hrunning : (fun j => if j = k then true else decide (j < k))
      = fun j => decide (j < k + 1) := by
    funext j
    by_cases hj : j = k
    · simp [hj]
    · have : j < k + 1 ↔ j < k := by omega
      simp [hj, this]
  rw [hcheck]
  unfold Surroundings.meet Surroundings.outcomeAt
  cases hat : s.at? (.start k) with
  | none =>
    rw [Proc.run_bind_of_returned (Proc.run_exit _ _), run_modifyHost]
    simp only [stage, hrunning, Option.isSome_none, Bool.false_eq_true, if_false]
  | some how =>
    exact Proc.run_bind_of_ne_returned (Proc.run_exit _ _) (outcome_ne_returned how) _

theorem run_startSubsystem_of_none (hc : c = .initializing ∨ c = .failed)
    (h : s.at? (.start k) = none) (subsystem : Subsystem) :
    (s.startSubsystem k subsystem).run (stage clock disk c conn attached k)
      = (.returned (), stage clock disk (escalated c [subsystem]) conn attached (k + 1)) := by
  rw [run_startSubsystem hc]
  simp only [Surroundings.outcomeAt, h, Option.isSome_none, Bool.false_eq_true, if_false]

/-- The subsystems start one after the other. -/
theorem run_starts_of_none (subsystems : List Subsystem) :
    ∀ (k : Nat) (c : RuntimeState), (c = .initializing ∨ c = .failed) →
      (∀ i, k ≤ i → i < k + subsystems.length → s.at? (.start i) = none) →
      (Proc.forEach (subsystems.zipIdx k) fun entry => s.startSubsystem entry.2 entry.1).run
          (stage clock disk c conn attached k)
        = (.returned (), stage clock disk (escalated c subsystems) conn attached
            (k + subsystems.length)) := by
  -- The induction shifts the position `k` and carries the state along.
  induction subsystems with
  | nil =>
    intro k c _ _
    rfl
  | cons subsystem subsystems ih =>
    intro k c hc hnone
    have hat : s.at? (.start k) = none := hnone k (Nat.le_refl k) (by simp)
    have hrest := ih (k + 1) (escalated c [subsystem]) (escalated_cases hc _) fun i hk hi =>
      hnone i (by omega) (by simp only [List.length_cons]; omega)
    rw [List.zipIdx_cons, Proc.forEach_cons,
      Proc.run_bind_of_returned (run_startSubsystem_of_none hc hat subsystem), hrest,
      escalated_cons, List.length_cons]
    congr 2
    omega

/-- The start at position `i` is interrupted: the subsystems before it have been started. -/
theorem run_starts_of_some {s : Script} (subsystems : List Subsystem) {i : Nat} {how : Interruption}
    (hfail : s.failure = some (.start i, how)) :
    ∀ (k : Nat) (c : RuntimeState), (c = .initializing ∨ c = .failed) →
      k ≤ i → i < k + subsystems.length →
      ∃ c', (c' = .initializing ∨ c' = .failed) ∧
        (Proc.forEach (subsystems.zipIdx k) fun entry => s.startSubsystem entry.2 entry.1).run
            (stage clock disk c conn attached k)
          = (how.outcome, stage clock disk c' conn attached i) := by
  induction subsystems with
  | nil =>
    intro k c _ hk hi
    rw [List.length_nil] at hi
    omega
  | cons subsystem subsystems ih =>
    intro k c hc hk hi
    rw [List.zipIdx_cons, Proc.forEach_cons]
    by_cases hki : k = i
    · -- The first subsystem of the list is the interrupted one.
      subst hki
      have hat : s.at? (.start k) = some how := by rw [at?_of_failure hfail (.start k) nofun, if_pos rfl]
      have hfirst : (s.startSubsystem k subsystem).run (stage clock disk c conn attached k)
          = (how.outcome, stage clock disk (escalated c [subsystem]) conn attached k) := by
        rw [run_startSubsystem hc]
        simp only [Surroundings.outcomeAt, hat, Option.isSome_some, if_true]
      exact ⟨escalated c [subsystem], escalated_cases hc _,
        Proc.run_bind_of_ne_returned hfirst (outcome_ne_returned how) _⟩
    · have hat : s.at? (.start k) = none := by
        rw [at?_of_failure hfail (.start k) nofun, if_neg (by simpa using Ne.symm hki)]
      rw [Proc.run_bind_of_returned (run_startSubsystem_of_none hc hat subsystem)]
      rw [List.length_cons] at hi
      exact ih (k + 1) _ (escalated_cases hc _) (by omega) (by omega)

/-! ### `_on_init` and `boot` -/

/-- The replay is interrupted: no subsystem is started. -/
theorem run_onInit_of_replay {how : Interruption} (hrec : s.recovery = true)
    (h : s.at? .replay = some how) (w : World τ Host) :
    s.onInit.run w = (how.outcome, w) := by
  unfold Surroundings.onInit Surroundings.meet Surroundings.outcomeAt
  rw [if_pos hrec, h]
  exact Proc.run_bind_of_ne_returned (Proc.run_exit _ _) (outcome_ne_returned how) _

/-- The replay is over: the subsystems are started. -/
theorem run_onInit (h : s.recovery = true → s.at? .replay = none) (w : World τ Host) :
    s.onInit.run w
      = (Proc.forEach s.subsystems.zipIdx fun entry => s.startSubsystem entry.2 entry.1).run w := by
  unfold Surroundings.onInit Surroundings.meet Surroundings.outcomeAt
  cases hrec : s.recovery with
  | false => rfl
  | true =>
    rw [h hrec]
    rfl

theorem run_setState_stage {target : RuntimeState} (h : target ∈ c.transitions) :
    (s.manager.setState target "runtime").run (stage clock disk c conn attached k)
      = (s.notified target, stage clock disk (s.settledOn target) conn attached k) :=
  run_setState "runtime" h

theorem run_setState_self (c : RuntimeState) :
    (s.manager.setState c "runtime").run (stage clock disk c conn attached k)
      = (.returned (), stage clock disk c conn attached k) :=
  LifecycleManager.run_setState_self s.manager (stage clock disk c conn attached k) "runtime"

/-- `boot` from the hook on. -/
abbrev afterInitializing (s : Surroundings) : CoreProc τ Host Unit := do
  Proc.tryExcept s.onInit fun e => do
    s.manager.setState .failed "runtime"
    Proc.raise e
  s.manager.setState .healthy "runtime"

/-- `boot` comes to its hook when nobody interrupts the notification of INITIALIZING. -/
theorem run_boot :
    (s.manager.boot s.onInit "runtime").run (stage clock disk .booting conn attached k)
      = if s.notified .initializing = .returned () then
          (afterInitializing s).run (stage clock disk .initializing conn attached k)
        else (s.notified .initializing, stage clock disk .initializing conn attached k) := by
  have hinit : (s.manager.setState .initializing "runtime").run
      (stage clock disk .booting conn attached k)
      = (s.notified .initializing, stage clock disk .initializing conn attached k) :=
    run_setState_stage (by decide)
  unfold LifecycleManager.boot
  rw [Proc.run_bind_of_returned (run_setState_self .booting)]
  split
  · rename_i h
    rw [h] at hinit
    rw [Proc.run_bind_of_returned hinit]
  · rename_i h
    exact Proc.run_bind_of_ne_returned hinit h _

/-- An interrupted hook: FAILED for an exception, and no move for a cancellation. -/
theorem run_boot_of_interrupted {how : Interruption} (hc : c = .initializing ∨ c = .failed)
    (hfailed : s.notified .failed = .returned ())
    (h : s.onInit.run (stage clock disk .initializing conn attached 0)
      = (how.outcome, stage clock disk c conn attached k)) :
    ∃ c', c' ≠ .healthy ∧
      (afterInitializing s).run (stage clock disk .initializing conn attached 0)
        = (how.outcome, stage clock disk c' conn attached k) := by
  have hne : c ≠ .healthy := by
    rintro rfl
    simp at hc
  cases how with
  | cancelled job =>
    exact ⟨c, hne, Proc.run_bind_of_cancelled (Proc.run_tryExcept_of_cancelled h _) _⟩
  | raises e =>
    -- The move to FAILED is legal, or it is no move.
    have hset : (s.manager.setState .failed "runtime").run (stage clock disk c conn attached k)
        = (.returned (), stage clock disk .failed conn attached k) := by
      rcases hc with rfl | rfl
      · rw [run_setState_stage (by decide), hfailed]
        rfl
      · exact run_setState_self .failed
    refine ⟨.failed, by decide, Proc.run_bind_of_raised ?_ _⟩
    rw [Proc.run_tryExcept_of_raised h, Proc.run_bind_of_returned hset]
    rfl

/-- The hook returns: HEALTHY is entered, or refused when a subsystem has escalated. -/
theorem run_boot_of_started
    (h : s.onInit.run (stage clock disk .initializing conn attached 0)
      = (.returned (), stage clock disk (escalated .initializing s.subsystems) conn attached k)) :
    (afterInitializing s).run (stage clock disk .initializing conn attached 0)
      = if s.subsystems.any (·.escalates) then
          (.raised (.invalidStateTransition ⟨.failed, .healthy⟩),
            stage clock disk .failed conn attached k)
        else (s.notified .healthy, stage clock disk s.drifted conn attached k) := by
  unfold afterInitializing
  rw [Proc.run_bind_of_returned (Proc.run_tryExcept_of_returned h _)]
  unfold escalated
  -- From FAILED there is no way to HEALTHY; from INITIALIZING there is.
  split
  · exact LifecycleManager.run_setState_of_not_mem _ (by simp [stage])
      (by simp [stage, RuntimeState.transitions])
  · exact run_setState_stage (by decide)

/-! ### `start` -/

/-- A procedure of the database on a stage. -/
theorem run_onDatabase {p : DbProc (String × String) Unit} {o : Outcome Exn Unit}
    {conn' : Option (Connection (String × String))} {disk' : List (String × String)}
    (h : p.run ⟨conn, false, disk⟩ = (o, ⟨conn', false, disk'⟩)) :
    (onDatabase p).run (stage clock disk c conn attached k)
      = (o, stage clock disk' c conn' attached k) := by
  simp only [onDatabase, stage, h]

theorem run_setAttached (b : Bool) :
    (Surroundings.setAttached b).run (stage clock disk c conn attached k)
      = (.returned (), stage clock disk c conn b k) := rfl

/-- The try block of `start`. -/
abbrev tryBlock (s : Surroundings) : CoreProc τ Host Unit := do
  onDatabase (Database.migrate (s.await .migrate))
  Surroundings.setAttached true
  s.manager.boot s.onInit "runtime"

/-- The except clause of `start`. -/
abbrev exceptClause (s : Surroundings) (e : Exn) : CoreProc τ Host Unit := do
  Surroundings.setAttached false
  onDatabase (Database.close (s.await .close))
  Proc.raise e

/-- `start` after the try block. -/
abbrev afterTry (s : Surroundings) : CoreProc τ Host Unit := do
  s.saveRuntimeState
  modifyHost fun h => { h with started := true, stopped := false }

theorem run_mkdir (h : ∀ e, s.at? .mkdir ≠ some (.raises e)) (w : World τ Host) :
    s.mkdir.run w = (.returned (), w) := by
  unfold Surroundings.mkdir
  cases hat : s.at? .mkdir with
  | none => rfl
  | some how =>
    cases how with
    | raises e => exact absurd hat (h e)
    | cancelled job => rfl

/-- The mkdir raises. -/
theorem run_start_of_mkdir {e : Exn} (h : s.at? .mkdir = some (.raises e)) :
    s.start.run (neverStarted clock disk) = (.raised e, neverStarted clock disk) := by
  have hmkdir : s.mkdir.run (neverStarted clock disk) = (.raised e, neverStarted clock disk) := by
    unfold Surroundings.mkdir
    rw [h]
    rfl
  unfold Surroundings.start
  rw [Proc.run_bind_of_returned (Proc.run_read _), if_neg (by simp [neverStarted, stage]),
    Proc.run_bind_of_raised hmkdir]

/-- The connect fails: the connection is assigned only when its await returns. -/
theorem run_start_of_connect {how : Interruption} (hmkdir : ∀ e, s.at? .mkdir ≠ some (.raises e))
    (h : s.at? .connect = some how) :
    ∃ o, o ≠ .returned () ∧
      s.start.run (neverStarted clock disk) = (o, neverStarted clock disk) := by
  have hconn : (onDatabase (Database.connect (s.await .connect))).run (neverStarted clock disk)
      = ((s.await .connect).outcome, neverStarted clock disk) := by
    simp only [Surroundings.await, h]
    cases how <;> rfl
  have hne := (ends_await h).ne_returned
  refine ⟨_, hne, ?_⟩
  unfold Surroundings.start
  rw [Proc.run_bind_of_returned (Proc.run_read _), if_neg (by simp [neverStarted, stage]),
    Proc.run_bind_of_returned (run_mkdir hmkdir _)]
  exact Proc.run_bind_of_ne_returned hconn hne _

/-- A `start` that fails before its try block leaves a never-started runtime. -/
theorem run_start_of_beforeTry (h : (∃ e, s.at? .mkdir = some (.raises e)) ∨
      ((∀ e, s.at? .mkdir ≠ some (.raises e)) ∧ ∃ how, s.at? .connect = some how)) :
    ∃ o, o ≠ .returned () ∧
      s.start.run (neverStarted clock disk) = (o, neverStarted clock disk) := by
  rcases h with ⟨e, hmkdir⟩ | ⟨hmkdir, how, hconnect⟩
  · exact ⟨.raised e, by simp, run_start_of_mkdir hmkdir⟩
  · exact run_start_of_connect hmkdir hconnect

/-- `start` comes to its try block. -/
theorem run_start (hmkdir : ∀ e, s.at? .mkdir ≠ some (.raises e))
    (hconnect : s.at? .connect = none) :
    s.start.run (neverStarted clock disk)
      = (do
          Proc.tryExcept (tryBlock s) (exceptClause s)
          afterTry s).run (stage clock disk .booting (some .autocommit) false 0) := by
  have hconn : (onDatabase (Database.connect (s.await .connect))).run (neverStarted clock disk)
      = (.returned (), stage clock disk .booting (some .autocommit) false 0) := by
    rw [await_of_none hconnect]
    rfl
  unfold Surroundings.start
  rw [Proc.run_bind_of_returned (Proc.run_read _), if_neg (by simp [neverStarted, stage]),
    Proc.run_bind_of_returned (run_mkdir hmkdir _), Proc.run_bind_of_returned hconn]

/-- The interruption is an exception, which the except clause of `start` catches. -/
def caught (how : Interruption) : Bool :=
  match how with
  | .raises _ => true
  | .cancelled _ => false

/-- A `start` whose try block is interrupted. The except clause runs when it is by an
exception. -/
theorem run_start_of_interrupted {how : Interruption} {o : Outcome Exn Unit}
    (hmkdir : ∀ e, s.at? .mkdir ≠ some (.raises e)) (hconnect : s.at? .connect = none)
    (ho : Ends how o)
    (h : (tryBlock s).run (stage clock disk .booting (some .autocommit) false 0)
      = (o, stage clock disk c (some .autocommit) attached k)) :
    ∃ o', o' ≠ .returned () ∧ s.start.run (neverStarted clock disk)
      = (o', stage clock disk c (if caught how then none else some .autocommit)
          (if caught how then false else attached) k) := by
  rw [run_start hmkdir hconnect]
  cases how with
  | cancelled job =>
    obtain rfl : o = .cancelled := ho
    exact ⟨.cancelled, by simp, Proc.run_bind_of_cancelled (Proc.run_tryExcept_of_cancelled h _) _⟩
  | raises e =>
    obtain ⟨e', rfl⟩ := ho
    have hclose : (onDatabase (Database.close (s.await .close))).run
        (stage clock disk c (some .autocommit) false k)
        = ((s.await .close).outcome, stage clock disk c none false k) :=
      run_onDatabase (run_close_of_some rfl _)
    -- The close may fail as well; the connection is gone and `start` raises either way.
    obtain ⟨o', ho', hraise⟩ := Proc.run_bind_raise hclose e'
    refine ⟨o', ho', Proc.run_bind_of_ne_returned ?_ ho' _⟩
    rw [Proc.run_tryExcept_of_raised h, Proc.run_bind_of_returned (run_setAttached false)]
    exact hraise

/-- The migration, which leaves the connection as it is. -/
theorem run_migrate (a : Await) :
    (onDatabase (Database.migrate a)).run (stage clock disk c (some .autocommit) attached k)
      = (a.outcome, stage clock disk c (some .autocommit) attached k) := by
  apply run_onDatabase
  unfold Database.migrate
  have hjob : (pure () : DbProc (String × String) Unit).run ⟨some .autocommit, true, disk⟩
      = (.returned (), ⟨some .autocommit, true, disk⟩) := rfl
  rw [Proc.run_bind_of_returned (run_requireConn_of_some rfl), run_withLock (run_toThread hjob a),
    ite_self]

theorem run_tryBlock_of_migrate {how : Interruption} (h : s.at? .migrate = some how) :
    (tryBlock s).run (stage clock disk .booting (some .autocommit) false 0)
      = ((s.await .migrate).outcome, stage clock disk .booting (some .autocommit) false 0) :=
  Proc.run_bind_of_ne_returned (run_migrate _) (ends_await h).ne_returned _

theorem run_tryBlock (h : s.at? .migrate = none) :
    (tryBlock s).run (stage clock disk .booting (some .autocommit) false 0)
      = (s.manager.boot s.onInit "runtime").run
          (stage clock disk .booting (some .autocommit) true 0) := by
  have hmigrate : (onDatabase (Database.migrate (s.await .migrate))).run
      (stage clock disk .booting (some .autocommit) false 0)
      = (.returned (), stage clock disk .booting (some .autocommit) false 0) := by
    rw [run_migrate, await_of_none h]
    rfl
  rw [Proc.run_bind_of_returned hmigrate, Proc.run_bind_of_returned (run_setAttached true)]

/-! ### The ways a `start` can end -/

/-- The try block ends early on an interruption in the way `how`. -/
def EndsEarly (s : Surroundings) (clock : τ) (disk : List (String × String)) (how : Interruption)
    (k : Nat) : Prop :=
  ∃ o c attached, Ends how o ∧ c ≠ .healthy ∧
    (tryBlock s).run (stage clock disk .booting (some .autocommit) false 0)
      = (o, stage clock disk c (some .autocommit) attached k)

theorem endsEarly_of_notified {how : Interruption} (hmigrate : s.at? .migrate = none)
    (h : s.notified .initializing = how.outcome) : EndsEarly s clock disk how 0 := by
  refine ⟨how.outcome, .initializing, true, ends_outcome how, by decide, ?_⟩
  rw [run_tryBlock hmigrate, run_boot, h, if_neg (outcome_ne_returned how)]

theorem endsEarly_of_onInit {how : Interruption} (hmigrate : s.at? .migrate = none)
    (hinit : s.notified .initializing = .returned ())
    (hfailed : s.notified .failed = .returned ()) (hc : c = .initializing ∨ c = .failed)
    (h : s.onInit.run (stage clock disk .initializing (some .autocommit) true 0)
      = (how.outcome, stage clock disk c (some .autocommit) true k)) :
    EndsEarly s clock disk how k := by
  obtain ⟨c', hc', hrun⟩ := run_boot_of_interrupted hc hfailed h
  refine ⟨how.outcome, c', true, ends_outcome how, hc', ?_⟩
  rw [run_tryBlock hmigrate, run_boot, if_pos hinit, hrun]

variable {s : Script}

/-- A `start` that is interrupted before HEALTHY. -/
theorem endsEarly {how : Interruption} (h : s.early = some (.early how k)) :
    EndsEarly s clock disk how k := by
  unfold Script.early at h
  cases hf : s.failure with
  | none => simp [hf] at h
  | some failure =>
    obtain ⟨p, how'⟩ := failure
    rw [hf] at h
    have hat := at?_of_failure hf
    -- One case for each point before HEALTHY; the other points are no early ends.
    cases p with
    | migrate =>
      obtain ⟨rfl, rfl⟩ : how' = how ∧ 0 = k := by simpa using h
      have hmigrate : s.at? .migrate = some how' := by rw [hat .migrate nofun, if_pos rfl]
      exact ⟨_, .booting, false, ends_await hmigrate, by decide, run_tryBlock_of_migrate hmigrate⟩
    | handler target i =>
      cases target with
      | initializing =>
        obtain ⟨hi, rfl, rfl⟩ : i < s.handlers ∧ how' = how ∧ 0 = k := by simpa using h
        exact endsEarly_of_notified (hat .migrate nofun)
          (by simp [Surroundings.notified, handlerFailure_eq, hf, hi])
      | _ => simp at h
    | publish target =>
      cases target with
      | initializing =>
        cases how' with
        | raises e => simp at h
        | cancelled job =>
          obtain ⟨rfl, rfl⟩ : .cancelled job = how ∧ 0 = k := by simpa using h
          exact endsEarly_of_notified (hat .migrate nofun)
            (by simp [Surroundings.notified, handlerFailure_eq, busFailure_eq, hf])
      | _ => simp at h
    | replay =>
      obtain ⟨hrec, rfl, rfl⟩ : s.recovery = true ∧ how' = how ∧ 0 = k := by simpa using h
      have hreplay : s.at? .replay = some how' := by rw [hat .replay nofun, if_pos rfl]
      exact endsEarly_of_onInit (hat .migrate nofun)
        (by simp [Surroundings.notified, handlerFailure_eq, busFailure_eq, hf])
        (by simp [Surroundings.notified, handlerFailure_eq, busFailure_eq, hf])
        (Or.inl rfl) (run_onInit_of_replay hrec hreplay _)
    | start i =>
      obtain ⟨hi, rfl, rfl⟩ : i < s.subsystems.length ∧ how' = how ∧ i = k := by simpa using h
      have hstarts : ∃ c', (c' = .initializing ∨ c' = .failed) ∧
          s.onInit.run (stage clock disk .initializing (some .autocommit) true 0)
            = (how'.outcome, stage clock disk c' (some .autocommit) true i) := by
        rw [run_onInit fun _ => hat .replay nofun]
        exact run_starts_of_some s.subsystems hf 0 .initializing (Or.inl rfl) (Nat.zero_le i)
          (by omega)
      obtain ⟨c', hc', hrun⟩ := hstarts
      exact endsEarly_of_onInit (hat .migrate nofun)
        (by simp [Surroundings.notified, handlerFailure_eq, busFailure_eq, hf])
        (by simp [Surroundings.notified, handlerFailure_eq, busFailure_eq, hf]) hc' hrun
    | mkdir => cases how' <;> simp at h
    | _ => simp at h

/-- A `start` that is not interrupted before HEALTHY. -/
theorem not_early (h : s.early = none) :
    (∀ e, s.at? .mkdir ≠ some (.raises e)) ∧ s.at? .connect = none ∧ s.at? .migrate = none ∧
      s.notified .initializing = .returned () ∧ (s.recovery = true → s.at? .replay = none) ∧
      ∀ i, i < s.subsystems.length → s.at? (.start i) = none := by
  unfold Script.early at h
  cases hf : s.failure with
  | none => simp [at?_of_none hf, Surroundings.notified, handlerFailure_eq, busFailure_eq, hf]
  | some failure =>
    obtain ⟨p, how⟩ := failure
    rw [hf] at h
    simp only [Surroundings.notified, handlerFailure_eq, busFailure_eq, hf, at?_of_failure hf, ne_eq, reduceCtorEq, not_false_eq_true,
      implies_true]
    cases p with
    | mkdir => cases how <;> simp at h ⊢
    | handler target i =>
      cases target with
      | initializing =>
        have hi : ¬ i < s.handlers := by simpa using h
        simp [hi]
      | _ => simp
    | publish target => cases target <;> cases how <;> simp at h ⊢
    | replay => simpa using h
    | start i =>
      have hi : ¬ i < s.subsystems.length := by simpa using h
      simp
      omega
    | _ => simp at h ⊢

/-- Past the hook: HEALTHY is entered, or refused. -/
theorem run_tryBlock_of_late (h : s.early = none) (clock : τ) (disk : List (String × String)) :
    (tryBlock s).run (stage clock disk .booting (some .autocommit) false 0)
      = if s.subsystems.any (·.escalates) then
          (.raised (.invalidStateTransition ⟨.failed, .healthy⟩),
            stage clock disk .failed (some .autocommit) true s.subsystems.length)
        else (s.notified .healthy,
          stage clock disk s.drifted (some .autocommit) true s.subsystems.length) := by
  obtain ⟨-, -, hmigrate, hinit, hreplay, hstarts⟩ := not_early h
  have hhook : s.onInit.run (stage clock disk .initializing (some .autocommit) true 0)
      = (.returned (), stage clock disk (escalated .initializing s.subsystems) (some .autocommit)
          true s.subsystems.length) := by
    rw [run_onInit hreplay, run_starts_of_none s.subsystems 0 .initializing (Or.inl rfl)
      fun i _ hi => hstarts i (by omega), Nat.zero_add]
  rw [run_tryBlock hmigrate, run_boot, if_pos hinit, run_boot_of_started hhook]

/-- The save does not close the database, however it ends. The flags are set when it
returns. -/
theorem run_afterTry (s : Surroundings) (clock : τ) (disk : List (String × String)) (c : RuntimeState)
    (attached : Bool) (k : Nat) :
    ∃ w, (afterTry s).run (stage clock disk c (some .autocommit) attached k)
        = ((s.await .save).outcome, w) ∧ w.host.database.conn = some .autocommit ∧
      w.host.database.locked = false ∧ w.current = movedOn s c ∧
        ((s.await .save).outcome = .returned () →
          w.host.started = true ∧ w.host.stopped = false) := by
  obtain ⟨disk', hrun⟩ :=
    run_saveRuntimeState (s := s) (w := stage clock disk c (some .autocommit) attached k) rfl rfl
  cases hout : (s.await .save).outcome with
  | returned _ =>
    rw [hout] at hrun
    exact ⟨_, Proc.run_bind_of_returned hrun _, rfl, rfl, rfl, fun _ => ⟨rfl, rfl⟩⟩
  | raised e =>
    rw [hout] at hrun
    exact ⟨_, Proc.run_bind_of_raised hrun _, rfl, rfl, rfl, fun hret => by cases hret⟩
  | cancelled =>
    rw [hout] at hrun
    exact ⟨_, Proc.run_bind_of_cancelled hrun _, rfl, rfl, rfl, fun hret => by cases hret⟩

/-- A stage on which nothing is left. -/
theorem nothingLeft_stage :
    NothingLeft s (stage clock disk c conn attached k) ↔
      conn = none ∧ attached = false ∧ (s.subsystems.take k).all (·.exits) = true ∧
        c ≠ .healthy := by
  have hexits : (∀ i subsystem, s.subsystems[i]? = some subsystem → decide (i < k) = true →
      subsystem.exits = true) ↔ (s.subsystems.take k).all (·.exits) = true := by
    -- The started subsystems are the first `k`.
    rw [List.all_eq_true]
    constructor
    · intro h subsystem hmem
      obtain ⟨i, hi⟩ := List.mem_iff_getElem?.mp hmem
      rw [List.getElem?_take] at hi
      split at hi
      · rename_i hik
        exact h i subsystem hi (decide_eq_true hik)
      · cases hi
    · intro h i subsystem hget hik
      apply h subsystem
      rw [List.mem_iff_getElem?]
      exact ⟨i, by rw [List.getElem?_take, if_pos (of_decide_eq_true hik), hget]⟩
  unfold NothingLeft stage
  rw [hexits]
  simp only
  constructor
  · rintro ⟨hconn, hattached, -, hall, hc⟩
    exact ⟨hconn, hattached, hall, hc⟩
  · rintro ⟨hconn, hattached, hall, hc⟩
    exact ⟨hconn, hattached, hattached, hall, hc⟩

/-- A `start` that is interrupted early ends in the try block, or before it. -/
theorem early_cases {way : Way} (h : s.early = some way) :
    (way = .beforeTry ∧ ((∃ e, s.at? .mkdir = some (.raises e)) ∨
        ((∀ e, s.at? .mkdir ≠ some (.raises e)) ∧ ∃ how, s.at? .connect = some how))) ∨
      ((∃ how k, way = .early how k) ∧ (∀ e, s.at? .mkdir ≠ some (.raises e)) ∧
        s.at? .connect = none) := by
  unfold Script.early at h
  cases hf : s.failure with
  | none => simp [hf] at h
  | some failure =>
    obtain ⟨p, how⟩ := failure
    rw [hf] at h
    simp only [at?_of_failure hf, ne_eq, reduceCtorEq, not_false_eq_true,
      implies_true]
    cases p with
    | mkdir =>
      -- A `mkdir` is not awaited: it cannot be cancelled.
      cases how with
      | raises e =>
        obtain rfl : .beforeTry = way := by simpa using h
        simp
      | cancelled job => simp at h
    | connect =>
      obtain rfl : .beforeTry = way := by simpa using h
      simp
    | migrate =>
      obtain rfl : .early how 0 = way := by simpa using h
      simp
    | handler target i =>
      cases target with
      | initializing =>
        obtain ⟨-, rfl⟩ : i < s.handlers ∧ .early how 0 = way := by simpa using h
        simp
      | _ => simp at h
    | publish target =>
      cases target with
      | initializing =>
        cases how with
        | raises e => simp at h
        | cancelled job =>
          obtain rfl : .early (.cancelled job) 0 = way := by simpa using h
          simp
      | _ => simp at h
    | replay =>
      obtain ⟨-, rfl⟩ : s.recovery = true ∧ .early how 0 = way := by simpa using h
      simp
    | start i =>
      obtain ⟨-, rfl⟩ : i < s.subsystems.length ∧ .early how i = way := by simpa using h
      simp
    | _ => simp at h

/-- The end of a `start` that enters HEALTHY. -/
theorem late_cases (s : Script) :
    (∃ how, s.late = .notifying how ∧ s.notified .healthy = how.outcome) ∨
      (s.late = .saving ∧ s.notified .healthy = .returned () ∧ ∃ how, s.at? .save = some how) ∨
        (s.late = .returns ∧ s.notified .healthy = .returned () ∧ s.at? .save = none) := by
  unfold Script.late Surroundings.notified
  rw [handlerFailure_eq, busFailure_eq]
  cases hf : s.failure with
  | none => simp [at?_of_none hf]
  | some failure =>
    obtain ⟨p, how⟩ := failure
    simp only [at?_of_failure hf, ne_eq, reduceCtorEq, not_false_eq_true,
      implies_true]
    cases p with
    | handler target i =>
      cases target with
      | healthy => by_cases hi : i < s.handlers <;> simp [hi]
      | _ => simp
    | publish target => cases target <;> cases how <;> simp [Interruption.outcome]
    | _ => simp

/-- A `start` that enters HEALTHY and is not interrupted in the notification comes to the
save. -/
theorem run_start_of_healthy (h : s.early = none)
    (hescalates : s.subsystems.any (·.escalates) = false)
    (hnotified : s.notified .healthy = .returned ()) :
    s.start.run (neverStarted clock disk) = (afterTry s).run
      (stage clock disk s.drifted (some .autocommit) true s.subsystems.length) := by
  obtain ⟨hmkdir, hconnect, -⟩ := not_early h
  have htry : (tryBlock s).run (stage clock disk .booting (some .autocommit) false 0)
      = (.returned (), stage clock disk s.drifted (some .autocommit) true s.subsystems.length) := by
    rw [run_tryBlock_of_late h, hescalates, if_neg (by simp), hnotified]
  rw [run_start hmkdir hconnect,
    Proc.run_bind_of_returned (Proc.run_tryExcept_of_returned htry _)]

/-- What a first `start` can do: it fails before the try block, it is interrupted in the try
block, or it comes to the save. -/
theorem start_cases (s : Script) (clock : τ) (disk : List (String × String)) :
    (s.cleansUp = true ∧ ∃ o, o ≠ .returned () ∧
        s.start.run (neverStarted clock disk) = (o, neverStarted clock disk)) ∨
      (∃ how c attached k o,
        s.cleansUp = (caught how && (s.subsystems.take k).all (·.exits) && decide (c ≠ .healthy)) ∧
        o ≠ .returned () ∧ s.start.run (neverStarted clock disk)
          = (o, stage clock disk c (if caught how then none else some .autocommit)
              (if caught how then false else attached) k)) ∨
      (s.cleansUp = (s.at? .save).isNone ∧ s.start.run (neverStarted clock disk)
        = (afterTry s).run
            (stage clock disk s.drifted (some .autocommit) true s.subsystems.length)) := by
  unfold Script.cleansUp Script.way
  cases hearly : s.early with
  | some way =>
    rcases early_cases hearly with ⟨rfl, hbefore⟩ | ⟨⟨how, k, rfl⟩, hmkdir, hconnect⟩
    · exact Or.inl ⟨rfl, run_start_of_beforeTry hbefore⟩
    · have hends : EndsEarly s clock disk how k := endsEarly hearly
      obtain ⟨o, c, attached, ho, hc, htry⟩ := hends
      obtain ⟨o', ho', hrun⟩ := run_start_of_interrupted hmkdir hconnect ho htry
      refine Or.inr (Or.inl ⟨how, c, attached, k, o', ?_, ho', hrun⟩)
      cases how <;> simp [caught, hc]
  | none =>
    obtain ⟨hmkdir, hconnect, -⟩ := not_early hearly
    have htry := run_tryBlock_of_late hearly clock disk
    cases hescalates : s.subsystems.any (·.escalates) with
    | true =>
      -- HEALTHY is refused: an exception like any other.
      rw [hescalates, if_pos rfl] at htry
      have hends : Ends (.raises .notConnected)
          (.raised (.invalidStateTransition ⟨.failed, .healthy⟩)) := ⟨_, rfl⟩
      obtain ⟨o', ho', hrun⟩ := run_start_of_interrupted hmkdir hconnect hends htry
      exact Or.inr (Or.inl ⟨_, _, _, _, o', by simp [caught], ho', hrun⟩)
    | false =>
      rw [hescalates, if_neg (by simp)] at htry
      rcases late_cases s with ⟨how, hlate, hnotified⟩ | ⟨hlate, hnotified, how, hsave⟩ |
        ⟨hlate, hnotified, hsave⟩
      · rw [hnotified] at htry
        obtain ⟨o', ho', hrun⟩ := run_start_of_interrupted hmkdir hconnect (ends_outcome how) htry
        refine Or.inr (Or.inl ⟨how, _, _, _, o', ?_, ho', hrun⟩)
        rw [hlate]
        cases how <;> simp [caught]
      · refine Or.inr (Or.inr ⟨?_, run_start_of_healthy hearly hescalates hnotified⟩)
        rw [hlate, hsave]
        rfl
      · refine Or.inr (Or.inr ⟨?_, run_start_of_healthy hearly hescalates hnotified⟩)
        rw [hlate, hsave]
        rfl

/-! ### All or nothing -/

/-- The contract of a first `start`: when it does not return, nothing is left behind. -/
def AllOrNothing (s : Script) (clock : τ) (disk : List (String × String)) : Prop :=
  (s.start.run (neverStarted clock disk)).1 ≠ .returned () →
    NothingLeft s (s.start.run (neverStarted clock disk)).2

/-- A first `start` is all or nothing if and only if its script cleans up. -/
theorem allOrNothing_iff (s : Script) (clock : τ) (disk : List (String × String)) :
    AllOrNothing s clock disk ↔ s.cleansUp = true := by
  unfold AllOrNothing
  rcases start_cases s clock disk with ⟨hclean, o, -, hrun⟩ |
    ⟨how, c, attached, k, o, hclean, ho, hrun⟩ | ⟨hclean, hrun⟩
  · refine iff_of_true (fun _ => ?_) hclean
    rw [hrun]
    exact nothingLeft_stage.mpr ⟨rfl, rfl, by simp, by decide⟩
  · rw [hrun, hclean, nothingLeft_stage]
    cases how <;> simp [caught, ho]
  · -- The save comes after the try block, so nothing is cleaned up when it fails.
    obtain ⟨w, hafter, hconn, -⟩ := run_afterTry s clock disk s.drifted true s.subsystems.length
    rw [hrun, hafter, hclean]
    cases hsave : s.at? .save with
    | none =>
      rw [await_of_none hsave]
      exact iff_of_true (fun hne => absurd rfl hne) rfl
    | some how =>
      refine iff_of_false (fun hall => ?_) (by simp)
      have hleft := (hall (ends_await hsave).ne_returned).1
      rw [hconn] at hleft
      cases hleft

/-- Two subsystems; the start of the second raises. -/
def secondStartRaises : Script where
  name := "edge"
  subsystems := [⟨false, false⟩, ⟨false, false⟩]
  failure := some (.start 1, .raises (.other 1))

/-- The first subsystem is left running when the start of the second raises. -/
theorem failed_start_leaves_subsystem :
    (secondStartRaises.start.run (neverStarted () [])).1 = .raised (.other 1) ∧
      ¬ AllOrNothing secondStartRaises () [] := by
  have hrun : (secondStartRaises.start.run (neverStarted () [])).1 = .raised (.other 1) := rfl
  refine ⟨hrun, fun hall => ?_⟩
  have hleft := hall (by rw [hrun]; simp)
  -- `NothingLeft` at position 0, whose task does not end by itself.
  have hexits := hleft.2.2.2.1 0 ⟨false, false⟩ rfl rfl
  cases hexits

end EdgeSentinel.Proofs.Core
