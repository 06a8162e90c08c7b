import EdgeSentinel.Process.Supervisor
import EdgeSentinel.Proofs.Core.Publication

/-!
# `EdgeSentinel.Proofs.Process.Turns`: what a supervise loop does from await to await

`Round` and `Resumed` list what one resumption can do, and `Moves` says what it changes. The
proofs about runs go through `moves_proceed` and never unfold the loop.

`Turn` is the part of it that is the same for every resumption: the loop's own entry, the
history, and `_task` when it gives up. `deliver_turn` and `proceed_turn` say where the loop
stands afterwards, once for all its awaits.
-/

set_option autoImplicit false

namespace EdgeSentinel.Proofs.Process

open EdgeSentinel.Core
open EdgeSentinel.Process
open EdgeSentinel.Process.Supervisor

variable {τ : Type} {cfg : SupervisorSettings}

/-- The function is invoked, restarted or escalated. -/
def IsWork : Action → Prop
  | .started _ | .stopped _ => False
  | .invoked _ | .restarted _ | .escalated _ => True

/-- The loop `l` has become `l'`, after some work. The other loops are as they were. -/
structure Turn (w : Supervisor τ) (l l' : Loop) (actions : List Action)
    (w' : Supervisor τ) : Prop where
  id : l'.id = l.id
  loops : w'.loops = Keyed.replace (·.id) l.id l' w.loops
  work : ∀ a ∈ actions, IsWork a
  history : w'.history = w.history ++ actions
  task : w'.task = if l'.point = .ended .gaveUp then none else w.task

/-- The loop registers a failure in this turn. -/
def Registers (cfg : SupervisorSettings) (l : Loop) (a : LoopAnswer τ) : Prop :=
  l.point = .reporting ∨
    (l.point = .running ∧ cfg.hasEvents = false ∧ a.outcome ≠ .cancelled)

instance (l : Loop) (a : LoopAnswer τ) : Decidable (Registers cfg l a) :=
  inferInstanceAs (Decidable (l.point = .reporting ∨
    (l.point = .running ∧ cfg.hasEvents = false ∧ a.outcome ≠ .cancelled)))

/-- The loop publishes an event in this turn, or would but for its delay. -/
def Publishes (cfg : SupervisorSettings) (l : Loop) (a : LoopAnswer τ) : Prop :=
  cfg.hasEvents = true ∧
    (l.point = .reporting ∨ (l.point = .running ∧ a.outcome ≠ .cancelled))

instance (l : Loop) (a : LoopAnswer τ) : Decidable (Publishes cfg l a) :=
  inferInstanceAs (Decidable (cfg.hasEvents = true ∧
    (l.point = .reporting ∨ (l.point = .running ∧ a.outcome ≠ .cancelled))))

/-- The event of this turn, if there is one, has its text and an audience of awaitables. -/
def Heard (cfg : SupervisorSettings) (l : Loop) (a : LoopAnswer τ) : Prop :=
  Publishes cfg l a → a.audience.Awaitables ∧ (l.point = .running → a.outcome ≠ .unprintable)

instance (l : Loop) (a : LoopAnswer τ) : Decidable (Heard cfg l a) :=
  inferInstanceAs (Decidable (Publishes cfg l a →
    a.audience.Awaitables ∧ (l.point = .running → a.outcome ≠ .unprintable)))

/-- The event that a loop publishes in this step, if it does, is heard. -/
def AllHeard (cfg : SupervisorSettings) (w : Supervisor τ) :
    SupervisorStep τ → Supervisor τ → Prop
  | .resume id a, _ => ∀ l ∈ w.loops, l.id = id → l.cancellation ≠ .requested → Heard cfg l a
  | _, _ => True

instance (w : Supervisor τ) : ∀ e w', Decidable (AllHeard cfg w e w')
  | .resume id a, _ => inferInstanceAs (Decidable (∀ l ∈ w.loops, l.id = id →
      l.cancellation ≠ .requested → Heard cfg l a))
  | .start _, _ | .stop, _ | .moved _, _ => isTrue trivial

/-- The loop is on its way to give up, or has given up. -/
def GivesUp (l : Loop) : Prop :=
  l.point = .detecting ∨ l.point = .escalating ∨ l.point = .ended .gaveUp

/-- What becomes of a loop that takes no cancellation: it goes on, it gives up at the
threshold, its function lets a `CancelledError` out, or its delay or its event raises. -/
inductive Fate (cfg : SupervisorSettings) (w : Supervisor τ) (l : Loop) (a : LoopAnswer τ)
    (l' : Loop) : Prop where
  | goesOn (alive : l'.isAlive) (h : ¬ GivesUp l')
  | givesUp (h : GivesUp l') (cause : GivesUp l ∨
      (Registers cfg l a ∧ cfg.maxCrashes ≤ (failuresAt cfg w a.now).length))
  | cancelled (h : l'.point = .ended .cancelled) (running : l.point = .running)
      (outcome : a.outcome = .cancelled)
  | died (e : Resilience.BackoffError) (h : l'.point = .ended (.died e))
      (registers : Registers cfg l a)
      (overflow : cfg.backoff.computeDelay l.attempt a.draw = .error e)
  | raised (h : l'.point = .ended .raised) (unheard : ¬ Heard cfg l a)

/-! ### What one resumption does -/

/-- The escalation of a loop that is giving up. There is none without `set_state`, and none while
the runtime stops. -/
inductive Escalation (cfg : SupervisorSettings) (stopping : Prop) (id : Nat) :
    LoopPoint → List Action → Prop where
  | tried (point : LoopPoint) (h : point = .escalating ∨ point = .ended .gaveUp) :
      Escalation cfg stopping id point [.escalated id]
  | skipped (why : cfg.hasSetState = false ∨ stopping) :
      Escalation cfg stopping id (.ended .gaveUp) []

/-- The events, the actions and the failure times of a resumption that takes the loop `l` to a
point. -/
inductive Round (cfg : SupervisorSettings) (w : Supervisor τ) (l : Loop) (a : LoopAnswer τ) :
    LoopPoint → ℕ → List ℚ → List (Event τ) → List Action → Prop where
  | invoked (h : l.point = .created ∨ l.point = .sleeping) :
      Round cfg w l a .running (l.attempt + 1) w.failureTimes [] [.invoked l.id]
  | reported (h : l.point = .running) (error : Option String) :
      Round cfg w l a .reporting l.attempt w.failureTimes [exitEvent cfg l error a.stamp] []
  | restarted (h : Registers cfg l a) (hbelow : (failuresAt cfg w a.now).length < cfg.maxCrashes)
      (point : LoopPoint) (hpoint : point = .restarting ∨ point = .sleeping)
      (events : List (Event τ)) (hevents : ∀ e ∈ events, e.type = "task_restarting") :
      Round cfg w l a point l.attempt (failuresAt cfg w a.now) events [.restarted l.id]
  | detected (h : Registers cfg l a) (hthreshold : cfg.maxCrashes ≤ (failuresAt cfg w a.now).length)
      (hevents : cfg.hasEvents = true) :
      Round cfg w l a .detecting l.attempt (failuresAt cfg w a.now)
        [crashLoopEvent cfg (failuresAt cfg w a.now).length a.stamp] []
  | escalated (h : Registers cfg l a) (hthreshold : cfg.maxCrashes ≤ (failuresAt cfg w a.now).length)
      (hevents : cfg.hasEvents = false) (point : LoopPoint) (actions : List Action)
      (hesc : Escalation cfg (w.current ∈ RuntimeState.unsafeToEscalate) l.id point actions) :
      Round cfg w l a point l.attempt (failuresAt cfg w a.now) [] actions
  | published (h : l.point = .detecting) (point : LoopPoint) (actions : List Action)
      (hesc : Escalation cfg (w.current ∈ RuntimeState.unsafeToEscalate) l.id point actions) :
      Round cfg w l a point l.attempt w.failureTimes [] actions
  | moved (h : l.point = .escalating) :
      Round cfg w l a (.ended .gaveUp) l.attempt w.failureTimes [] []
  | announced (h : l.point = .restarting) :
      Round cfg w l a .sleeping l.attempt w.failureTimes [] []

/-- What the resumption of a loop that takes no cancellation does: a round, or the end of the loop
by its function, by its delay or by its event. -/
inductive Resumed (cfg : SupervisorSettings) (w : Supervisor τ) (l : Loop) (a : LoopAnswer τ) :
    LoopPoint → ℕ → List ℚ → List (Event τ) → List Action → Prop where
  | round {point : LoopPoint} {attempt : ℕ} {times : List ℚ} {events : List (Event τ)}
      {actions : List Action} (h : Round cfg w l a point attempt times events actions) :
      Resumed cfg w l a point attempt times events actions
  | cancelled (h : l.point = .running) (outcome : a.outcome = .cancelled) :
      Resumed cfg w l a (.ended .cancelled) l.attempt w.failureTimes [] []
  | died (e : Resilience.BackoffError) (h : Registers cfg l a)
      (hbelow : (failuresAt cfg w a.now).length < cfg.maxCrashes)
      (overflow : cfg.backoff.computeDelay l.attempt a.draw = .error e) :
      Resumed cfg w l a (.ended (.died e)) l.attempt (failuresAt cfg w a.now) [] []
  | raised (h : ¬ Heard cfg l a) (times : List ℚ) :
      Resumed cfg w l a (.ended .raised) l.attempt times [] []

theorem Escalation.point {stopping : Prop} {id : Nat} {point : LoopPoint} {actions : List Action}
    (h : Escalation cfg stopping id point actions) :
    point = .escalating ∨ point = .ended .gaveUp := by
  cases h with
  | tried point hpoint => exact hpoint
  | skipped why => exact Or.inr rfl

theorem Escalation.ne_created {stopping : Prop} {id : Nat} {point : LoopPoint}
    {actions : List Action} (h : Escalation cfg stopping id point actions) : point ≠ .created := by
  rcases h.point with hp | hp <;> rw [hp] <;> nofun

theorem Registers.point {l : Loop} {a : LoopAnswer τ} (h : Registers cfg l a) :
    l.point = .running ∨ l.point = .reporting := by
  rcases h with hpoint | ⟨hpoint, -, -⟩
  · exact Or.inr hpoint
  · exact Or.inl hpoint

/-- With events, a loop that registers a failure publishes something. -/
theorem Registers.publishes {l : Loop} {a : LoopAnswer τ} (h : Registers cfg l a)
    (hevents : cfg.hasEvents = true) : Publishes cfg l a := by
  rcases h with hpoint | ⟨-, hnone, -⟩
  · exact ⟨hevents, Or.inl hpoint⟩
  · rw [hevents] at hnone
    cases hnone

theorem Publishes.ne_created {l : Loop} {a : LoopAnswer τ} (h : Publishes cfg l a) :
    l.point ≠ .created := by
  rcases h.2 with hp | ⟨hp, -⟩ <;> rw [hp] <;> nofun

/-- An event that is not heard is published. -/
theorem publishes_of_not_heard {l : Loop} {a : LoopAnswer τ} (h : ¬ Heard cfg l a) :
    Publishes cfg l a := (Classical.not_imp.mp h).1

theorem not_heard_of_not_awaitables {l : Loop} {a : LoopAnswer τ} (h : Publishes cfg l a)
    (hnot : ¬ a.audience.Awaitables) : ¬ Heard cfg l a := fun heard => hnot (heard h).1

theorem Registers.ne_created {l : Loop} {a : LoopAnswer τ} (h : Registers cfg l a) :
    l.point ≠ .created := by
  rcases h.point with hp | hp <;> rw [hp] <;> nofun

/-- The state after a resumption. -/
structure Moves (w : Supervisor τ) (l : Loop) (point : LoopPoint) (attempt : ℕ) (times : List ℚ)
    (events : List (Event τ)) (actions : List Action) (w' : Supervisor τ) : Prop where
  loops : w'.loops
    = Keyed.replace (·.id) l.id { l with point := point, attempt := attempt } w.loops
  times : w'.failureTimes = times
  published : w'.published = w.published ++ events
  history : w'.history = w.history ++ actions
  crashed : w'.crashed = if point = .ended .gaveUp then true else w.crashed
  task : w'.task = if point = .ended .gaveUp then none else w.task

/-- What is changed already when the resumption begins. -/
theorem Moves.on {w w₀ w' : Supervisor τ} {l : Loop} {point : LoopPoint} {attempt : ℕ}
    {times times' : List ℚ} {events : List (Event τ)} {actions : List Action}
    (h : Moves w l point attempt times events actions w')
    (hw : w = { w₀ with failureTimes := times' }) :
    Moves w₀ l point attempt times events actions w' := by
  subst hw
  exact ⟨h.loops, h.times, h.published, h.history, h.crashed, h.task⟩

theorem moves_goTo (w : Supervisor τ) (l : Loop) (attempt : ℕ) (point : LoopPoint)
    (hpoint : point ≠ .ended .gaveUp) (actions : List Action) :
    Moves w l point attempt w.failureTimes [] actions
      (w.goTo { l with attempt := attempt } point actions) where
  loops := rfl
  times := rfl
  published := (List.append_nil _).symm
  history := rfl
  crashed := by rw [if_neg hpoint]; rfl
  task := by rw [if_neg hpoint]; rfl

theorem moves_giveUp (w : Supervisor τ) (l : Loop) (actions : List Action) :
    Moves w l (.ended .gaveUp) l.attempt w.failureTimes [] actions (w.giveUp l actions) where
  loops := rfl
  times := rfl
  published := (List.append_nil _).symm
  history := rfl
  crashed := rfl
  task := rfl

/-- The loop publishes an event, or the audience ends it. -/
theorem moves_publish (w : Supervisor τ) (l : Loop) (e : Event τ) (a : LoopAnswer τ)
    (point : LoopPoint) (hpoint : point ≠ .ended .gaveUp) (actions : List Action) :
    Moves w l point l.attempt w.failureTimes [e] actions (w.publish l e a point actions) ∨
      (¬ a.audience.Awaitables ∧
        Moves w l (.ended .raised) l.attempt w.failureTimes [] [] (w.publish l e a point actions)) := by
  unfold Supervisor.publish
  split
  · rename_i err herr
    refine Or.inr ⟨fun hawaitables => ?_, moves_goTo w l l.attempt (.ended .raised) nofun []⟩
    rw [(Core.raised_eq_none_iff a.audience e).mpr hawaitables] at herr
    cases herr
  · have hgo := moves_goTo w l l.attempt point hpoint actions
    exact Or.inl ⟨hgo.loops, hgo.times, rfl, hgo.history, hgo.crashed, hgo.task⟩

/-- `_escalate`, and the end of `_register_failure`. -/
theorem moves_escalate (cfg : SupervisorSettings) (w : Supervisor τ) (l : Loop) :
    ∃ point actions,
      Escalation cfg (w.current ∈ RuntimeState.unsafeToEscalate) l.id point actions ∧
      Moves w l point l.attempt w.failureTimes [] actions (escalate cfg w l) := by
  unfold escalate
  -- There is no `set_state`, the state is unsafe to escalate, or FAILED is tried.
  split
  · rename_i hset
    exact ⟨_, _, .skipped (Or.inl (by simpa using hset)), moves_giveUp w l []⟩
  · split
    · rename_i hunsafe
      exact ⟨_, _, .skipped (Or.inr hunsafe), moves_giveUp w l []⟩
    · simp only []
      split
      · exact ⟨_, _, .tried _ (Or.inr rfl), moves_giveUp w l [.escalated l.id]⟩
      · have hgo := moves_goTo w l l.attempt .escalating nofun [.escalated l.id]
        exact ⟨_, _, .tried _ (Or.inl rfl),
          ⟨hgo.loops, hgo.times, hgo.published, hgo.history, hgo.crashed, hgo.task⟩⟩

/-- `_register_failure`, and what follows it. -/
theorem moves_registerFailure (cfg : SupervisorSettings) (w : Supervisor τ) {l : Loop}
    {a : LoopAnswer τ} (hregisters : Registers cfg l a) :
    ∃ point attempt times events actions, Resumed cfg w l a point attempt times events actions ∧
      Moves w l point attempt times events actions (registerFailure cfg w l a) := by
  unfold registerFailure
  simp only []
  split
  · rename_i hbelow
    unfold restart
    split
    · rename_i e hdelay
      have hgo := moves_goTo w l l.attempt (.ended (.died e)) nofun []
      exact ⟨_, _, _, _, _, .died e hregisters hbelow hdelay,
        ⟨hgo.loops, rfl, hgo.published, hgo.history, hgo.crashed, hgo.task⟩⟩
    · rename_i delay hdelay
      -- The restart is published when there are events.
      split
      · rename_i hevents
        rcases moves_publish { w with failureTimes := failuresAt cfg w a.now } l
          (restartEvent cfg l delay a.stamp) a .restarting nofun [.restarted l.id] with
          hmoves | ⟨hnot, hmoves⟩
        · exact ⟨_, _, _, _, _,
            .round (.restarted hregisters hbelow .restarting (Or.inl rfl)
              [restartEvent cfg l delay a.stamp] (by simp [restartEvent])), hmoves.on rfl⟩
        · exact ⟨_, _, _, _, _,
            .raised (not_heard_of_not_awaitables (hregisters.publishes hevents) hnot) _,
            hmoves.on rfl⟩
      · have hgo := moves_goTo w l l.attempt .sleeping nofun [.restarted l.id]
        exact ⟨_, _, _, _, _,
          .round (.restarted hregisters hbelow .sleeping (Or.inr rfl) [] (by simp)),
          ⟨hgo.loops, rfl, hgo.published, hgo.history, hgo.crashed, hgo.task⟩⟩
  · rename_i hthreshold
    have hthreshold := Nat.le_of_not_lt hthreshold
    cases hevents : cfg.hasEvents with
    | true =>
      rw [if_pos rfl]
      rcases moves_publish { w with failureTimes := failuresAt cfg w a.now } l
        (crashLoopEvent cfg (failuresAt cfg w a.now).length a.stamp) a .detecting nofun [] with
        hmoves | ⟨hnot, hmoves⟩
      · exact ⟨_, _, _, _, _, .round (.detected hregisters hthreshold hevents), hmoves.on rfl⟩
      · exact ⟨_, _, _, _, _,
          .raised (not_heard_of_not_awaitables (hregisters.publishes hevents) hnot) _,
          hmoves.on rfl⟩
    | false =>
      obtain ⟨point, actions, hesc, hmoves⟩ :=
        moves_escalate cfg { w with failureTimes := failuresAt cfg w a.now } l
      exact ⟨_, _, _, _, _, .round (.escalated hregisters hthreshold hevents point actions hesc),
        hmoves.on rfl⟩

/-- The function returns or raises, which is published when there are events. -/
theorem moves_report (cfg : SupervisorSettings) (w : Supervisor τ) {l : Loop} {a : LoopAnswer τ}
    (hrun : l.point = .running) (hout : a.outcome ≠ .cancelled) (error : Option String) :
    ∃ point attempt times events actions, Resumed cfg w l a point attempt times events actions ∧
      Moves w l point attempt times events actions (report cfg w l error a) := by
  unfold report
  cases hevents : cfg.hasEvents with
  | true =>
    rw [if_pos rfl]
    rcases moves_publish w l (exitEvent cfg l error a.stamp) a .reporting nofun [] with
      hmoves | ⟨hnot, hmoves⟩
    · exact ⟨_, _, _, _, _, .round (.reported hrun error), hmoves⟩
    · exact ⟨_, _, _, _, _,
        .raised (not_heard_of_not_awaitables ⟨hevents, Or.inr ⟨hrun, hout⟩⟩ hnot) _, hmoves⟩
  | false => exact moves_registerFailure cfg w (Or.inr ⟨hrun, hevents, hout⟩)

/-- One resumption of a loop that takes no cancellation. -/
theorem moves_proceed (cfg : SupervisorSettings) (w : Supervisor τ) {l : Loop}
    (halive : l.isAlive) (a : LoopAnswer τ) :
    ∃ point attempt times events actions, Resumed cfg w l a point attempt times events actions ∧
      Moves w l point attempt times events actions (proceed cfg w l a) := by
  unfold proceed
  cases hpoint : l.point with
  | created =>
    exact ⟨_, _, _, _, _, .round (.invoked (Or.inl hpoint)),
      moves_goTo w l (l.attempt + 1) .running nofun [.invoked l.id]⟩
  | running =>
    simp only [exit]
    cases hout : a.outcome with
    | cancelled =>
      exact ⟨_, _, _, _, _, .cancelled hpoint hout,
        moves_goTo w l l.attempt (.ended .cancelled) nofun []⟩
    | raised error => exact moves_report cfg w hpoint (by rw [hout]; nofun) (some error)
    | unprintable =>
      cases hevents : cfg.hasEvents with
      | true =>
        rw [if_pos rfl]
        refine ⟨_, _, _, _, _, .raised ?_ _, moves_goTo w l l.attempt (.ended .raised) nofun []⟩
        exact fun heard => (heard ⟨hevents, Or.inr ⟨hpoint, by rw [hout]; nofun⟩⟩).2 hpoint hout
      | false =>
        exact moves_registerFailure cfg w (Or.inr ⟨hpoint, hevents, by rw [hout]; nofun⟩)
    | returned => exact moves_report cfg w hpoint (by rw [hout]; nofun) none
  | reporting => exact moves_registerFailure cfg w (Or.inl hpoint)
  | detecting =>
    obtain ⟨point, actions, hesc, hmoves⟩ := moves_escalate cfg w l
    exact ⟨_, _, _, _, _, .round (.published hpoint point actions hesc), hmoves⟩
  | escalating => exact ⟨_, _, _, _, _, .round (.moved hpoint), moves_giveUp w l []⟩
  | restarting =>
    exact ⟨_, _, _, _, _, .round (.announced hpoint),
      moves_goTo w l l.attempt .sleeping nofun []⟩
  | sleeping =>
    exact ⟨_, _, _, _, _, .round (.invoked (Or.inr hpoint)),
      moves_goTo w l (l.attempt + 1) .running nofun [.invoked l.id]⟩
  | ended how => simp [Loop.isAlive, hpoint] at halive

/-! ### The fate of the loop -/

section
variable {w w' : Supervisor τ} {l : Loop} {a : LoopAnswer τ} {point : LoopPoint} {attempt : ℕ}
  {times : List ℚ} {events : List (Event τ)} {actions : List Action}

theorem Escalation.isWork {stopping : Prop} {id : Nat}
    (h : Escalation cfg stopping id point actions) : ∀ x ∈ actions, IsWork x := by
  cases h <;> simp [IsWork]

/-- The escalation is for a loop that gives up. -/
theorem Escalation.givesUp {stopping : Prop} {id : Nat} (l' : Loop)
    (h : Escalation cfg stopping id l'.point actions) : GivesUp l' := Or.inr h.point

theorem Round.isWork (h : Round cfg w l a point attempt times events actions) :
    ∀ x ∈ actions, IsWork x := by
  cases h with
  | escalated _ _ _ _ _ hesc => exact hesc.isWork
  | published _ _ _ hesc => exact hesc.isWork
  | _ => simp [IsWork]

theorem Resumed.isWork (h : Resumed cfg w l a point attempt times events actions) :
    ∀ x ∈ actions, IsWork x := by
  cases h with
  | round hround => exact hround.isWork
  | _ => simp

/-- A resumption is a turn. -/
theorem Moves.turn (h : Moves w l point attempt times events actions w')
    (hwork : ∀ x ∈ actions, IsWork x) :
    Turn w l { l with point := point, attempt := attempt } actions w' where
  id := rfl
  loops := h.loops
  work := hwork
  history := h.history
  task := h.task

theorem Round.fate (h : Round cfg w l a point attempt times events actions) :
    Fate cfg w l a { l with point := point, attempt := attempt } := by
  cases h with
  | invoked h => exact .goesOn rfl (by simp [GivesUp])
  | reported h error => exact .goesOn rfl (by simp [GivesUp])
  | restarted h hbelow point hpoint events hevents =>
    rcases hpoint with rfl | rfl
    · exact .goesOn rfl (by simp [GivesUp])
    · exact .goesOn rfl (by simp [GivesUp])
  | detected h hthreshold hevents => exact .givesUp (Or.inl rfl) (Or.inr ⟨h, hthreshold⟩)
  | escalated h hthreshold hevents point actions hesc =>
    exact .givesUp (hesc.givesUp { l with point := point }) (Or.inr ⟨h, hthreshold⟩)
  | published h point actions hesc =>
    exact .givesUp (hesc.givesUp { l with point := point }) (Or.inl (Or.inl h))
  | moved h => exact .givesUp (Or.inr (Or.inr rfl)) (Or.inl (Or.inr (Or.inl h)))
  | announced h => exact .goesOn rfl (by simp [GivesUp])

theorem Resumed.fate (h : Resumed cfg w l a point attempt times events actions) :
    Fate cfg w l a { l with point := point, attempt := attempt } := by
  cases h with
  | round hround => exact hround.fate
  | cancelled hrun hout => exact .cancelled rfl hrun hout
  | died e hregisters hbelow hdelay => exact .died e rfl hregisters hdelay
  | raised hunheard => exact .raised rfl hunheard

/-- The function is invoked once more, or the loop has been running before. -/
theorem Round.attempt_cases (h : Round cfg w l a point attempt times events actions) :
    attempt = l.attempt + 1 ∨ (attempt = l.attempt ∧ l.point ≠ .created) := by
  cases h with
  | invoked h => exact Or.inl rfl
  | reported h error => exact Or.inr ⟨rfl, by rw [h]; nofun⟩
  | restarted h => exact Or.inr ⟨rfl, h.ne_created⟩
  | detected h => exact Or.inr ⟨rfl, h.ne_created⟩
  | escalated h => exact Or.inr ⟨rfl, h.ne_created⟩
  | published h => exact Or.inr ⟨rfl, by rw [h]; nofun⟩
  | moved h => exact Or.inr ⟨rfl, by rw [h]; nofun⟩
  | announced h => exact Or.inr ⟨rfl, by rw [h]; nofun⟩

theorem Resumed.attempt_cases (h : Resumed cfg w l a point attempt times events actions) :
    attempt = l.attempt + 1 ∨ (attempt = l.attempt ∧ l.point ≠ .created) := by
  cases h with
  | round hround => exact hround.attempt_cases
  | cancelled hrun hout => exact Or.inr ⟨rfl, by rw [hrun]; nofun⟩
  | died e hregisters => exact Or.inr ⟨rfl, hregisters.ne_created⟩
  | raised hunheard => exact Or.inr ⟨rfl, (publishes_of_not_heard hunheard).ne_created⟩

end

/-! ### The turns -/

theorem turn_goTo (w : Supervisor τ) (l l' : Loop) (hid : l'.id = l.id) (point : LoopPoint)
    (hpoint : point ≠ .ended .gaveUp) (actions : List Action) (hwork : ∀ a ∈ actions, IsWork a) :
    Turn w l { l' with point := point } actions (w.goTo l' point actions) where
  id := hid
  loops := by
    show Keyed.replace _ l'.id _ _ = _
    rw [hid]
  work := hwork
  history := rfl
  task := by rw [if_neg hpoint]; rfl

/-- The loop that resumes is found by its id. -/
theorem next_resume {w : Supervisor τ} (hids : (w.loops.map (·.id)).Nodup) {l : Loop}
    (hl : l ∈ w.loops) (a : LoopAnswer τ) :
    next cfg w (.resume l.id a) = Supervisor.resume cfg w l a := by
  simp only [next, Keyed.find?_of_mem hids hl]

/-- The function lets a `CancelledError` out. -/
theorem cancelled_turn (cfg : SupervisorSettings) (w : Supervisor τ) {l : Loop}
    {a : LoopAnswer τ} (hpoint : l.point = .running) (hout : a.outcome = .cancelled) :
    Turn w l { l with point := .ended .cancelled } [] (proceed cfg w l a) := by
  simp only [proceed, hpoint, exit, hout]
  exact turn_goTo w l l rfl (.ended .cancelled) nofun [] (by simp)

/-- The turn of a loop that takes no cancellation. -/
theorem proceed_turn (cfg : SupervisorSettings) (w : Supervisor τ) {l : Loop}
    (halive : l.isAlive) (a : LoopAnswer τ) :
    ∃ l' actions, Turn w l l' actions (proceed cfg w l a) ∧ Fate cfg w l a l' ∧
      l'.cancellation = l.cancellation ∧
      (l'.attempt = l.attempt + 1 ∨ (l'.attempt = l.attempt ∧ l.point ≠ .created)) := by
  obtain ⟨point, attempt, times, events, actions, hresumed, hmoves⟩ :=
    moves_proceed cfg w halive a
  exact ⟨{ l with point := point, attempt := attempt }, actions, hmoves.turn hresumed.isWork,
    hresumed.fate, rfl, hresumed.attempt_cases⟩

/-- The turn of a loop that takes the cancellation: the function receives it, or the loop
ends. -/
theorem deliver_turn (w : Supervisor τ) (l : Loop) :
    ∃ l', Turn w l l' [] (w.deliver l) ∧ l'.attempt = l.attempt ∧
      ((l.point = .running ∧ l'.point = .running ∧ l'.cancellation = .delivered) ∨
        (l'.point = .ended .cancelled ∧ l'.cancellation = l.cancellation)) := by
  unfold deliver
  split
  · rename_i hpoint
    exact ⟨_, turn_goTo w l { l with cancellation := .delivered } rfl .running nofun [] (by simp),
      rfl, Or.inl ⟨hpoint, rfl, rfl⟩⟩
  · exact ⟨_, turn_goTo w l l rfl (.ended .cancelled) nofun [] (by simp), rfl, Or.inr ⟨rfl, rfl⟩⟩

end EdgeSentinel.Proofs.Process
