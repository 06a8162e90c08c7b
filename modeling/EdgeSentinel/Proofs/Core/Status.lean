import EdgeSentinel.Core.Status
import EdgeSentinel.Proofs.Core.Life
import Mathlib.Data.List.Induction

/-!
# `EdgeSentinel.Proofs.Core.Status`: what the status says after any process lives

The processes of a device run one after the other on one file. Each constructs a runtime, calls
`start` and `stop` any number of times, and ends anywhere. A process that dies in the middle of a
call leaves the file of a call that is cancelled there.

`status_of_lives` says what `edgesentinel status` shows then. It is the last save. `start` saves the
state that it reads when the runtime has come up, and `stop` saves STOPPED, so a life saves twice at
most (`Saved`). A subsystem may move the state on while `start` saves it. No other piece of the two calls touches the file (`SameFile.allows`).
-/

set_option autoImplicit false

namespace EdgeSentinel.Proofs.Core

open Async EdgeSentinel.Core EdgeSentinel.Persistence EdgeSentinel.Proofs.Persistence

variable {τ : Type} {s : Surroundings}

/-! ### The save and the other pieces -/

/-- The file stays, and the database is left as its operations leave it. -/
def SameFile (w w' : World τ Host) : Prop :=
  Clean w.host.database →
    w'.host.database.disk = w.host.database.disk ∧ Clean w'.host.database

namespace SameFile

theorem refl (w : World τ Host) : SameFile w w := fun h => ⟨rfl, h⟩

theorem trans (w₁ w₂ w₃ : World τ Host) (h : SameFile w₁ w₂) (h' : SameFile w₂ w₃) :
    SameFile w₁ w₃ := by
  intro hclean
  obtain ⟨hdisk, hclean⟩ := h hclean
  obtain ⟨hdisk', hclean⟩ := h' hclean
  exact ⟨hdisk'.trans hdisk, hclean⟩

theorem connect (a : Await) : Proc.Moves (SameFile (τ := τ)) (onDatabase (Database.connect a)) := by
  intro w hclean
  obtain ⟨hauto, hdisk, hlocked⟩ := run_connect hclean.auto a
  exact ⟨hdisk, hlocked.trans hclean.free, hauto⟩

theorem migrate (a : Await) : Proc.Moves (SameFile (τ := τ)) (onDatabase (Database.migrate a)) := by
  intro w hclean
  have hrun : ((Database.migrate a).run w.host.database).2 = w.host.database := by
    unfold Database.migrate
    rcases hclean.conn_cases with hconn | hconn
    · rw [Proc.run_bind_of_raised (run_requireConn_of_none hconn)]
    · rw [Proc.run_bind_of_returned (run_requireConn_of_some hconn),
        run_withLock (run_toThread (Proc.run_pure () _) a), ite_self, ← hclean.free]
  show ((Database.migrate a).run w.host.database).2.disk = _ ∧
    Clean ((Database.migrate a).run w.host.database).2
  rw [hrun]
  exact ⟨rfl, hclean⟩

theorem close (a : Await) : Proc.Moves (SameFile (τ := τ)) (onDatabase (Database.close a)) := by
  intro w hclean
  show ((Database.close a).run w.host.database).2.disk = _ ∧
    Clean ((Database.close a).run w.host.database).2
  rw [run_close]
  exact ⟨rfl, hclean.free, fun u => by simp⟩

theorem allows : Allows (SameFile (τ := τ)) where
  refl := refl
  trans := trans
  current _ _ _ := fun h => ⟨rfl, h⟩
  running _ _ := fun h => ⟨rfl, h⟩
  attached _ _ := fun h => ⟨rfl, h⟩
  connect := connect
  migrate := migrate
  close := close

end SameFile

/-- The save writes the state in which it begins, when it writes. It writes when it returns. -/
theorem save_cases {w : World τ Host} (h : Clean w.host.database) :
    ∃ db, (s.saveRuntimeState.run w).2
        = { w with current := movedOn s w.current, host := { w.host with database := db } } ∧
      Clean db ∧
      (((s.saveRuntimeState.run w).1 ≠ .returned () ∧ db.disk = w.host.database.disk) ∨
        db.disk = w.host.database.disk ++ [(s.name, w.current.value)]) := by
  rw [run_saveRuntimeState_eq]
  rcases h.conn_cases with hconn | hconn
  · -- `_require_conn` raises.
    have hrun : (Database.execute (some (s.name, w.current.value)) (s.await .save)).run
        w.host.database = (.raised .notConnected, w.host.database) := by
      unfold Database.execute
      rw [Proc.run_bind_of_raised (run_requireConn_of_none hconn)]
    refine ⟨w.host.database, ?_, h, .inl ⟨?_, rfl⟩⟩
    · simp only [onDatabase, hrun]
    · simp only [onDatabase, hrun]
      intro hreturned
      cases hreturned
  · have hrun := run_execute hconn h.free (some (s.name, w.current.value)) (s.await .save)
    simp only [onDatabase, hrun]
    refine ⟨_, rfl, ?_, ?_⟩
    · split
      · exact ⟨h.free, h.auto⟩
      · exact h
    · split
      · exact .inr rfl
      · rename_i hdropped
        refine .inl ⟨fun hreturned => hdropped ?_, rfl⟩
        rw [eq_of_outcome hreturned]
        rfl

/-! ### One call -/

/-- The states in which a runtime is up. -/
def upStates : List RuntimeState := [.healthy, .degraded, .offline, .recovering, .failed]

theorem mem_upStates_ask {c target : RuntimeState} (hc : c ∈ upStates) (ht : target ∈ upStates) :
    StateMachine.ask c target ∈ upStates := by
  unfold StateMachine.ask StateMachine.transition
  split
  · rename_i previous next h
    split at h
    · cases h
      exact hc
    · split at h
      · cases h
        exact ht
      · cases h
  · exact hc

/-- A subsystem does not bring a runtime down. -/
theorem mem_upStates_act {c : RuntimeState} (hc : c ∈ upStates) (move : Move) :
    move.act c ∈ upStates := by
  have happly : ∀ managed target, target ∈ upStates →
      StateMachine.applyToRuntime managed c target ∈ upStates := by
    intro managed target ht
    unfold StateMachine.applyToRuntime
    split
    · exact hc
    · exact mem_upStates_ask hc ht
  cases move with
  | escalate =>
    show StateMachine.escalate c ∈ upStates
    unfold StateMachine.escalate
    split
    · exact hc
    · exact mem_upStates_ask hc (by decide)
  | network target =>
    obtain ⟨target, ht⟩ := target
    exact happly _ target (by revert ht; cases target <;> decide)
  | pressure target =>
    obtain ⟨target, ht⟩ := target
    exact happly _ target (by revert ht; cases target <;> decide)

theorem mem_upStates_drifted (s : Surroundings) : s.drifted ∈ upStates := by
  have hfold : ∀ (moves : List Move) (c : RuntimeState), c ∈ upStates →
      moves.foldl Move.act c ∈ upStates := by
    intro moves
    induction moves with
    | nil => exact fun c hc => hc
    | cons move moves ih => exact fun c hc => ih (move.act c) (mem_upStates_act hc move)
  unfold Surroundings.drifted
  split
  · decide
  · exact hfold s.drift .healthy (by decide)

/-- A `boot` that returns leaves the runtime up. -/
theorem up_of_boot {w w' : World τ Host}
    (h : (s.manager.boot s.onInit "runtime").run w = (.returned (), w')) :
    w'.current ∈ upStates := by
  unfold LifecycleManager.boot at h
  obtain ⟨⟨⟩, w₁, -, h⟩ := Proc.run_bind_eq_returned h
  obtain ⟨⟨⟩, w₂, -, h⟩ := Proc.run_bind_eq_returned h
  obtain ⟨⟨⟩, w₃, -, hhealthy⟩ := Proc.run_bind_eq_returned h
  by_cases hself : .healthy = w₃.current
  · have hrun := LifecycleManager.run_setState_self s.manager w₃ "runtime"
    rw [← hself, hhealthy] at hrun
    rw [(Prod.mk.inj hrun).2, ← hself]
    decide
  · by_cases hmem : .healthy ∈ w₃.current.transitions
    · rw [run_setState "runtime" hmem] at hhealthy
      rw [← (Prod.mk.inj hhealthy).2]
      exact mem_upStates_drifted s
    · rw [LifecycleManager.run_setState_of_not_mem _ hself hmem] at hhealthy
      cases hhealthy

/-- The state in which `start` has come to its save. -/
def savedState (s : Surroundings) (w : World τ Host) : RuntimeState :=
  ((beforeSave s).run w).2.current

/-- A `start` leaves the file and does not return, or it has come up from BOOTING and has saved the
state in which it came up. A subsystem may have moved it on since. -/
theorem start_saves (s : Surroundings) {w : World τ Host} (h : Clean w.host.database) :
    Clean (s.start.run w).2.host.database ∧
      (((s.start.run w).2.host.database.disk = w.host.database.disk ∧
          (s.start.run w).1 ≠ .returned ()) ∨
        (w.current = .booting ∧ savedState s w ∈ upStates ∧
          Leads (savedState s w) (s.start.run w).2.current ∧
          (s.start.run w).2.host.database.disk
            = w.host.database.disk ++ [(s.name, (savedState s w).value)])) := by
  unfold savedState
  rw [start_eq]
  split
  · exact ⟨h, .inl ⟨rfl, by simp⟩⟩
  · obtain ⟨hdisk, hclean⟩ := SameFile.allows.beforeSave (s := s) w h
    rw [Proc.bind_assoc]
    rcases hbefore : (beforeSave s).run w with ⟨o, w₁⟩
    rw [hbefore] at hdisk hclean
    by_cases ho : o = .returned ()
    · -- The save is made in the state that `boot` has left.
      subst ho
      obtain ⟨w₀, hcurrent, hboot⟩ := boot_of_beforeSave hbefore
      have hbooting : w.current = .booting := hcurrent ▸ (booting_of_boot hboot).1
      have hup : w₁.current ∈ upStates := up_of_boot hboot
      have hleads := leads_movedOn s w₁.current
      obtain ⟨db, hsaved, hclean', hcases⟩ := save_cases (s := s) hclean
      rw [Proc.run_bind_of_returned hbefore]
      rcases hsave : s.saveRuntimeState.run w₁ with ⟨o', w₂⟩
      rw [hsave] at hsaved hcases
      subst hsaved
      by_cases ho' : o' = .returned ()
      · subst ho'
        rw [Proc.run_bind_of_returned hsave]
        refine ⟨hclean', .inr ⟨hbooting, hup, hleads, ?_⟩⟩
        rcases hcases with ⟨hne, -⟩ | hwritten
        · exact absurd rfl hne
        · exact hwritten.trans (congrArg (· ++ _) hdisk)
      · rw [Proc.run_bind_of_ne_returned hsave ho']
        refine ⟨hclean', ?_⟩
        rcases hcases with ⟨-, hsame⟩ | hwritten
        · exact .inl ⟨hsame.trans hdisk, ho'⟩
        · exact .inr ⟨hbooting, hup, hleads, hwritten.trans (congrArg (· ++ _) hdisk)⟩
    · rw [Proc.run_bind_of_ne_returned hbefore ho]
      exact ⟨hclean, .inl ⟨hdisk, ho⟩⟩

/-- `stop` after its shutdown saves STOPPED, or it leaves the file and the flag. -/
theorem afterShutdown_saves (s : Surroundings) {w : World τ Host} (h : Clean w.host.database)
    (hstopped : w.current = .stopped) :
    let w' := ((afterShutdown s).run w).2
    Clean w'.host.database ∧ w'.current = .stopped ∧ w'.host.started = w.host.started ∧
      ((w'.host.database.disk = w.host.database.disk ∧ w'.host.stopped = w.host.stopped) ∨
        w'.host.database.disk = w.host.database.disk ++ [(s.name, "stopped")]) := by
  intro w'
  have hdetach : (Surroundings.setAttached false).run w = (.returned (), { w with
      host := { w.host with timelineAttached := false, incidentsAttached := false } }) := rfl
  have hrun : w' = _ := congrArg Prod.snd (Proc.run_bind_of_returned hdetach _)
  rw [hrun]
  generalize hw₀ : { w with
    host := { w.host with timelineAttached := false, incidentsAttached := false } } = w₀
  have hclean₀ : Clean w₀.host.database := by rw [← hw₀]; exact h
  obtain ⟨db, hsaved, hclean, hcases⟩ := save_cases (s := s) hclean₀
  rcases hsave : s.saveRuntimeState.run w₀ with ⟨o, w₁⟩
  rw [hsave] at hsaved hcases
  subst hsaved hw₀
  -- Nothing moves a STOPPED runtime while it is saved.
  have hstays : movedOn s w.current = .stopped := by rw [hstopped, movedOn_stopped]
  simp only [hstopped] at hcases
  by_cases ho : o = .returned ()
  · -- The close leaves the file, whether it returns or not.
    subst ho
    rw [Proc.run_bind_of_returned hsave]
    have hwritten := hcases.resolve_left fun hnot => hnot.1 rfl
    have hclosed : Clean { db with conn := none } := ⟨hclean.free, fun u => by simp⟩
    rcases hclose : (onDatabase (Database.close (s.await .close))).run
      { w with
        current := movedOn s w.current
        host := { w.host with
          database := db, timelineAttached := false, incidentsAttached := false } } with ⟨o, w₂⟩
    obtain rfl : _ = w₂ := (Prod.mk.inj hclose).2
    simp only [run_close] at hclose
    by_cases ho : o = .returned ()
    · subst ho
      rw [Proc.run_bind_of_returned hclose]
      exact ⟨hclosed, hstays, rfl, .inr hwritten⟩
    · rw [Proc.run_bind_of_ne_returned hclose ho]
      exact ⟨hclosed, hstays, rfl, .inr hwritten⟩
  · rw [Proc.run_bind_of_ne_returned hsave ho]
    refine ⟨hclean, hstays, rfl, ?_⟩
    rcases hcases with ⟨-, hsame⟩ | hwritten
    · exact .inl ⟨hsame, rfl⟩
    · exact .inr hwritten

/-- A `stop` leaves the file and the flags, or it has brought the machine to STOPPED and has saved
that. -/
theorem stop_saves (s : Surroundings) {w : World τ Host} (h : Clean w.host.database) :
    let w' := (s.stop.run w).2
    Clean w'.host.database ∧ w'.host.started = w.host.started ∧
      ((w'.host.database.disk = w.host.database.disk ∧ w'.host.stopped = w.host.stopped) ∨
        (w.host.started = true ∧ w.current ≠ .stopped ∧ w'.current = .stopped ∧
          w'.host.database.disk = w.host.database.disk ++ [(s.name, "stopped")])) := by
  cases hstarted : w.host.started with
  | false =>
    have hrun : s.stop.run w = (.raised (.runtimeNotStarted s.name), w) := by
      unfold Surroundings.stop
      rw [Proc.run_bind_of_returned (Proc.run_read w), hstarted]
      rfl
    rw [hrun]
    exact ⟨h, hstarted, .inl ⟨rfl, rfl⟩⟩
  | true =>
    cases hstopped : w.host.stopped with
    | true =>
      rw [run_stop_of_flags hstarted hstopped]
      exact ⟨h, hstarted, .inl ⟨rfl, hstopped⟩⟩
    | false =>
      obtain ⟨hdisk, hclean⟩ := SameFile.allows.shutdown (s := s) w h
      have hfollows := Follows.allows.shutdown (s := s) w
      rw [run_stop hstarted hstopped]
      rcases hshutdown : (s.manager.shutdown s.onStop "runtime").run w with ⟨o, w₁⟩
      rw [hshutdown] at hdisk hclean hfollows
      by_cases ho : o = .returned ()
      · subst ho
        obtain ⟨hne, hcurrent, -⟩ := of_shutdown hshutdown
        rw [Proc.run_bind_of_returned hshutdown]
        obtain ⟨hclean', hcurrent', hstarted', hcases⟩ := afterShutdown_saves s hclean hcurrent
        refine ⟨hclean', hstarted'.trans (hfollows.started.trans hstarted), ?_⟩
        rcases hcases with ⟨hsame, hflag⟩ | hwritten
        · exact .inl ⟨hsame.trans hdisk, hflag.trans (hfollows.stopped.trans hstopped)⟩
        · refine .inr ⟨rfl, hne, hcurrent', ?_⟩
          rw [hwritten, hdisk]
      · rw [Proc.run_bind_of_ne_returned hshutdown ho]
        exact ⟨hclean, hfollows.started.trans hstarted,
          .inl ⟨hdisk, hfollows.stopped.trans hstopped⟩⟩

/-! ### One life -/

/-- What a life with the events `es` from `w₀` on has saved. -/
inductive Saved (w₀ : World τ Host) (es : List LifeEvent) : Prop where
  /-- It has not come up. -/
  | nothing (same : (life w₀ es).host.database.disk = w₀.host.database.disk)
      (started : (life w₀ es).host.started = false) (stopped : (life w₀ es).host.stopped = false)
  /-- It has come up, and no `stop` has come to its save. -/
  | up (past : List LifeEvent) (s : Surroundings) (rest : List LifeEvent)
      (split : es = past ++ .start s :: rest)
      (mem : savedState s (life w₀ past) ∈ upStates)
      (disk : (life w₀ es).host.database.disk = w₀.host.database.disk
        ++ [(s.name, (savedState s (life w₀ past)).value)])
      (current : (life w₀ es).current ≠ .booting) (stopped : (life w₀ es).host.stopped = false)
  /-- It has gone down. -/
  | down (past : List LifeEvent) (s : Surroundings) (rest : List LifeEvent)
      (split : es = past ++ .stop s :: rest) (saves : List (String × String))
      (disk : (life w₀ es).host.database.disk = saves ++ [(s.name, "stopped")])
      (current : (life w₀ es).current = .stopped)

namespace Saved

variable {w₀ : World τ Host} {es : List LifeEvent}

/-- An event that leaves the file and the flag. -/
theorem same (h : Saved w₀ es) {e : LifeEvent}
    (hdisk : (life w₀ (es ++ [e])).host.database.disk = (life w₀ es).host.database.disk)
    (hstarted : (life w₀ es).host.started = false → (life w₀ (es ++ [e])).host.started = false)
    (hstopped : (life w₀ (es ++ [e])).host.stopped = (life w₀ es).host.stopped) :
    Saved w₀ (es ++ [e]) := by
  have hleads : Leads (life w₀ es).current (life w₀ (es ++ [e])).current := by
    rw [life_snoc]
    exact leads_next _ e
  cases h with
  | nothing same started stopped =>
    exact .nothing (hdisk.trans same) (hstarted started) (hstopped.trans stopped)
  | up past s rest split mem disk current stopped =>
    refine .up past s (rest ++ [e]) ?_ mem (hdisk.trans disk) (fun hbooting => ?_)
      (hstopped.trans stopped)
    · rw [split, List.append_assoc, List.cons_append]
    · rw [hbooting] at hleads
      exact current hleads.eq_booting
  | down past s rest split saves disk current =>
    rw [current] at hleads
    refine .down past s (rest ++ [e]) ?_ saves (hdisk.trans disk) hleads.eq_stopped
    rw [split, List.append_assoc, List.cons_append]

/-- A new life has saved nothing. -/
theorem begin (clock : τ) (saves : List (String × String)) : Saved (neverStarted clock saves) [] :=
  .nothing rfl rfl rfl

theorem start (h : Saved w₀ es) (hclean : Clean (life w₀ es).host.database) (s : Surroundings) :
    Saved w₀ (es ++ [.start s]) ∧ Clean (life w₀ (es ++ [.start s])).host.database := by
  have hnext : life w₀ (es ++ [.start s]) = (s.start.run (life w₀ es)).2 := life_snoc w₀ es _
  obtain ⟨hclean', hcases⟩ := start_saves s hclean
  rw [← hnext] at hclean' hcases
  refine ⟨?_, hclean'⟩
  rcases hcases with ⟨hdisk, hreturns⟩ | ⟨hbooting, hup, hleads, hdisk⟩
  · rcases start_ends s (life w₀ es) with ⟨-, hfollows⟩ | ⟨w', -, hrun⟩
    · rw [← hnext] at hfollows
      exact h.same hdisk hfollows.started.trans hfollows.stopped
    · rw [hrun] at hreturns
      exact absurd rfl hreturns
  · cases h with
    | nothing same started stopped =>
      refine .up es s [] rfl hup (hdisk.trans (congrArg (· ++ _) same)) ?_ ?_
      · intro hcurrent
        rw [hcurrent] at hleads
        rw [hleads.eq_booting] at hup
        revert hup
        decide
      · rcases start_ends s (life w₀ es) with ⟨-, hfollows⟩ | ⟨w', -, hrun⟩
        · rw [hnext]
          exact hfollows.stopped.trans stopped
        · rw [hnext, hrun]
    | up past s rest split mem disk current stopped => exact absurd hbooting current
    | down past s rest split saves disk current =>
      rw [hbooting] at current
      cases current

theorem stop (h : Saved w₀ es) (hclean : Clean (life w₀ es).host.database) (s : Surroundings) :
    Saved w₀ (es ++ [.stop s]) ∧ Clean (life w₀ (es ++ [.stop s])).host.database := by
  have hnext : life w₀ (es ++ [.stop s]) = (s.stop.run (life w₀ es)).2 := life_snoc w₀ es _
  obtain ⟨hclean', hstarted, hcases⟩ := stop_saves s hclean
  rw [← hnext] at hclean' hstarted hcases
  refine ⟨?_, hclean'⟩
  rcases hcases with ⟨hdisk, hstopped⟩ | ⟨-, -, hcurrent, hdisk⟩
  · exact h.same hdisk hstarted.trans hstopped
  · exact .down es s [] rfl _ hdisk hcurrent

theorem move (h : Saved w₀ es) (hclean : Clean (life w₀ es).host.database) (m : Move) :
    Saved w₀ (es ++ [.move m]) ∧ Clean (life w₀ (es ++ [.move m])).host.database := by
  have hnext : life w₀ (es ++ [.move m])
      = { life w₀ es with current := m.act (life w₀ es).current } := life_snoc w₀ es _
  refine ⟨h.same ?_ ?_ ?_, ?_⟩ <;> rw [hnext]
  · exact fun hstarted => hstarted
  · exact hclean

/-- Every life has saved nothing, or that it has come up, or that it has gone down. -/
theorem of_life (clock : τ) (saves : List (String × String)) (es : List LifeEvent) :
    Saved (neverStarted clock saves) es ∧
      Clean (life (neverStarted clock saves) es).host.database := by
  induction es using List.reverseRecOn with
  | nil => exact ⟨begin clock saves, rfl, fun u => by simp [life, neverStarted, stage]⟩
  | append_singleton es e ih =>
    obtain ⟨h, hclean⟩ := ih
    cases e with
    | start s => exact h.start hclean s
    | stop s => exact h.stop hclean s
    | move m => exact h.move hclean m

end Saved

/-! ### All lives -/

/-- The file after the processes with these lives. Each begins with a new runtime. -/
def fileAfter (clock : τ) (lives : List (List LifeEvent)) : List (String × String) :=
  lives.foldl (fun saves es => (life (neverStarted clock saves) es).host.database.disk) []

/-- What a row of the table says about the life `es` that saved it, from `w₀` on. -/
inductive Tells (w₀ : World τ Host) (es : List LifeEvent) : String → String → Prop where
  /-- A `start` came to its save in this state, and no `stop` has returned. -/
  | up (past : List LifeEvent) (s : Surroundings) (rest : List LifeEvent)
      (split : es = past ++ .start s :: rest)
      (mem : savedState s (life w₀ past) ∈ upStates)
      (stopped : (life w₀ es).host.stopped = false) :
      Tells w₀ es s.name (savedState s (life w₀ past)).value
  /-- A `stop` has brought the machine to STOPPED. -/
  | down (past : List LifeEvent) (s : Surroundings) (rest : List LifeEvent)
      (split : es = past ++ .stop s :: rest) (current : (life w₀ es).current = .stopped) :
      Tells w₀ es s.name "stopped"

theorem fileAfter_snoc (clock : τ) (lives : List (List LifeEvent)) (es : List LifeEvent) :
    fileAfter clock (lives ++ [es])
      = (life (neverStarted clock (fileAfter clock lives)) es).host.database.disk := by
  rw [fileAfter, List.foldl_append]
  rfl

/-- What `edgesentinel status` prints after any processes, each of which calls `start` and `stop`
with any failures and cancellations and ends after any of these calls. Either it prints that there
is no state, and no `start` has ever returned. Or some process was the last one to save, no `start`
has returned since, and the status is what that process saved last. It is STOPPED only if the
process has shut down completely. Else it is the state in which its `start` came to the save,
whatever the state was when `start` was over and when the process ended. -/
theorem status_of_lives (clock : τ) (lives : List (List LifeEvent)) (updatedAt : String) :
    let saves := fileAfter clock lives
    (cmdStatus saves updatedAt = "no runtime state recorded yet" ∧
      ∀ es ∈ lives, (life (neverStarted clock saves) es).host.started = false) ∨
    ∃ earlier es later name state, lives = earlier ++ es :: later ∧
      cmdStatus saves updatedAt = statusLine name state updatedAt ∧
      Tells (neverStarted clock (fileAfter clock earlier)) es name state ∧
      ∀ es' ∈ later, (life (neverStarted clock saves) es').host.started = false := by
  intro saves
  suffices hlast : (saves = [] ∧
      ∀ es ∈ lives, (life (neverStarted clock saves) es).host.started = false) ∨
      ∃ earlier es later name state before, lives = earlier ++ es :: later ∧
        saves = before ++ [(name, state)] ∧
        Tells (neverStarted clock (fileAfter clock earlier)) es name state ∧
        ∀ es' ∈ later, (life (neverStarted clock saves) es').host.started = false by
    rcases hlast with ⟨hsaves, hnever⟩ |
      ⟨earlier, es, later, name, state, before, hlives, hsaves, h⟩
    · exact .inl ⟨by rw [hsaves, cmdStatus_nil], hnever⟩
    · exact .inr ⟨earlier, es, later, name, state, hlives, by rw [hsaves, cmdStatus_snoc], h⟩
  induction lives using List.reverseRecOn with
  | nil => exact .inl ⟨rfl, by simp⟩
  | append_singleton lives es ih =>
    obtain ⟨hsaved, -⟩ := Saved.of_life clock (fileAfter clock lives) es
    have hfile : saves = _ := fileAfter_snoc clock lives es
    cases hsaved with
    | nothing same started stopped =>
      -- The file is still that of the earlier lives.
      have hsaves : saves = fileAfter clock lives := hfile.trans same
      have hlast : ∀ es' ∈ [es],
          (life (neverStarted clock (fileAfter clock lives)) es').host.started = false := by
        simpa using started
      rw [hsaves]
      rcases ih with ⟨hnil, hnever⟩ |
        ⟨earlier, es', later, name, state, before, hlives, hdisk, h, hl⟩
      · exact .inl ⟨hnil, List.forall_mem_append.mpr ⟨hnever, hlast⟩⟩
      · refine .inr ⟨earlier, es', later ++ [es], name, state, before, ?_, hdisk, h,
          List.forall_mem_append.mpr ⟨hl, hlast⟩⟩
        rw [hlives, List.append_assoc, List.cons_append]
    | up past s rest split mem disk current stopped =>
      exact .inr ⟨lives, es, [], _, _, _, rfl, hfile.trans disk,
        .up past s rest split mem stopped, by simp⟩
    | down past s rest split before disk current =>
      exact .inr ⟨lives, es, [], _, _, before, rfl, hfile.trans disk,
        .down past s rest split current, by simp⟩

/-- The process has failed and died, and the status is still HEALTHY. -/
example : cmdStatus (fileAfter () [[.start { name := "edge" }, .move .escalate]]) "10:00:00"
    = "edge: healthy (as of 10:00:00)" := by
  decide

end EdgeSentinel.Proofs.Core
