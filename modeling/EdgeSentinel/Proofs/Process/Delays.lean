import EdgeSentinel.Proofs.Process.StopFinal
import EdgeSentinel.Resilience.Retry

/-!
# `EdgeSentinel.Proofs.Process.Delays`: a delay that raises

`compute_delay` takes the power before it applies the cap, so an exponential delay raises
`OverflowError` from attempt 1025 on, and only then. `delays_sound` says what follows for the
two loops that call it:

* The supervise loop dies of the error and leaves `_task` set. An event that is not heard does the
  same. Without them, and with a function that raises no `CancelledError` of its own, a loop that
  stays below the crash-loop threshold ends only by cancellation, and `is_running` is true only
  while the loop is alive.
* `RetryPolicy.run` raises the error in place of the operation's exception exactly when it
  gets to the delay after attempt 1025.
-/

set_option autoImplicit false

namespace EdgeSentinel.Proofs.Process

open EdgeSentinel.Core
open EdgeSentinel.Process
open EdgeSentinel.Process.Supervisor
open EdgeSentinel.Resilience

variable {τ : Type} {cfg : SupervisorSettings}

/-! ### The supervise loop -/

/-- A supervise loop ends only by cancellation, and `is_running` is true only while the loop
of `_task` is alive. -/
structure Sound (w : Supervisor τ) : Prop where
  ends : ∀ l ∈ w.loops, ∀ how, l.point = .ended how → how = .cancelled
  running : w.isRunning → ∃ l ∈ w.loops, w.task = some l.id ∧ l.isAlive

/-- The crash-loop threshold is not reached in this step. -/
def BelowThreshold (cfg : SupervisorSettings) (w : Supervisor τ) :
    SupervisorStep τ → Supervisor τ → Prop
  | .resume id a, _ => ∀ l ∈ w.loops, l.id = id → l.cancellation ≠ .requested →
      Registers cfg l a → (failuresAt cfg w a.now).length < cfg.maxCrashes
  | _, _ => True

/-- The delay of a failed attempt fits, and the function lets no `CancelledError` out that it
has not received from `stop`. -/
def InRange (cfg : SupervisorSettings) (w : Supervisor τ) :
    SupervisorStep τ → Supervisor τ → Prop
  | .resume id a, _ => ∀ l ∈ w.loops, l.id = id → l.cancellation ≠ .requested →
      (Registers cfg l a → cfg.backoff.Fits l.attempt) ∧
        (l.point = .running → a.outcome = .cancelled → l.cancellation = .delivered)
  | _, _ => True

instance (w : Supervisor τ) : ∀ e w', Decidable (BelowThreshold cfg w e w')
  | .resume id a, _ => inferInstanceAs (Decidable (∀ l ∈ w.loops, l.id = id →
      l.cancellation ≠ .requested → Registers cfg l a →
        (failuresAt cfg w a.now).length < cfg.maxCrashes))
  | .start _, _ | .stop, _ | .moved _, _ => isTrue trivial

instance (w : Supervisor τ) : ∀ e w', Decidable (InRange cfg w e w')
  | .resume id a, _ => inferInstanceAs (Decidable (∀ l ∈ w.loops, l.id = id →
      l.cancellation ≠ .requested →
        (Registers cfg l a → cfg.backoff.Fits l.attempt) ∧
          (l.point = .running → a.outcome = .cancelled → l.cancellation = .delivered)))
  | .start _, _ | .stop, _ | .moved _, _ => isTrue trivial

/-- A loop as it is while nothing has gone wrong: it has not given up, it has ended only by
cancellation, and it counts its attempts from 1. -/
structure Intact (l : Loop) : Prop where
  stays : ¬ GivesUp l
  ends : ∀ how, l.point = .ended how → how = .cancelled
  attempts : l.isAlive → l.point = .created ∨ 1 ≤ l.attempt

/-- The invariant. The loop of `_task` is alive, and it has no cancellation. -/
structure Lives (w : Supervisor τ) : Prop where
  ids : (w.loops.map (·.id)).Nodup
  loops : ∀ l ∈ w.loops, Intact l
  task : ∀ id, w.task = some id → ∃ l ∈ w.loops, l.id = id ∧ l.isAlive ∧ l.cancellation = .none

theorem Lives.new (current : RuntimeState) : Lives (Supervisor.new (τ := τ) current) where
  ids := List.nodup_nil
  loops := by simp [Supervisor.new]
  task := by simp [Supervisor.new]

theorem intact_created (id : Nat) : Intact { id := id } where
  stays := by simp [GivesUp]
  ends := nofun
  attempts _ := Or.inl rfl

theorem intact_cancelled {l : Loop} (h : l.point = .ended .cancelled) : Intact l where
  stays := by simp [GivesUp, h]
  ends how hhow := by
    rw [h] at hhow
    exact (LoopPoint.ended.inj hhow).symm
  attempts halive := by simp [Loop.isAlive, h] at halive

/-- A request of cancellation does not touch what `Intact` reads. -/
theorem Intact.request {l : Loop} (h : Intact l) : Intact { l with cancellation := .requested } :=
  ⟨h.stays, h.ends, h.attempts⟩

namespace Lives

variable {w : Supervisor τ}

theorem sound (h : Lives w) : Sound w where
  ends l hl := (h.loops l hl).ends
  running hrun := by
    obtain ⟨id, htask⟩ := Option.isSome_iff_exists.mp hrun
    obtain ⟨l, hl, rfl, halive, -⟩ := h.task id htask
    exact ⟨l, hl, htask, halive⟩

theorem start (h : Lives w) {id : Nat} (hid : id ∉ w.loops.map (·.id)) :
    Lives (w.start id) := by
  unfold Supervisor.start
  split
  · exact h
  · refine ⟨?_, ?_, ?_⟩
    · exact Keyed.nodup_append h.ids hid
    · intro l hl
      rcases List.mem_append.mp hl with hl | hl
      · exact h.loops l hl
      · rw [List.mem_singleton.mp hl]
        exact intact_created id
    · intro id' htask
      obtain rfl : id = id' := Option.some.inj htask
      exact ⟨{ id := id }, by simp, rfl, rfl, rfl⟩

theorem stop (h : Lives w) : Lives w.stop := by
  unfold Supervisor.stop
  split
  · exact h
  · refine ⟨?_, ?_, nofun⟩
    · rw [Keyed.map_key_map fun l => by split <;> rfl]
      exact h.ids
    · intro l hl
      obtain ⟨l₀, hl₀, rfl⟩ := List.mem_map.mp hl
      split
      · exact (h.loops l₀ hl₀).request
      · exact h.loops l₀ hl₀

/-- A turn keeps the invariant when its loop stays intact, and alive if it is in `_task`. -/
theorem turn {w' : Supervisor τ} {l l' : Loop} {actions : List Action} (h : Lives w)
    (hturn : Turn w l l' actions w') (hintact : Intact l')
    (htask : w.task = some l.id → l'.isAlive ∧ l'.cancellation = .none) : Lives w' := by
  have hsame : w'.task = w.task := by
    have hne : l'.point ≠ .ended .gaveUp := fun heq => hintact.stays (Or.inr (Or.inr heq))
    rw [hturn.task, if_neg hne]
  refine ⟨?_, ?_, ?_⟩
  · rw [hturn.loops, Keyed.map_key_replace hturn.id]
    exact h.ids
  · intro x hx
    rw [hturn.loops] at hx
    rcases Keyed.mem_replace hx with rfl | ⟨hx, -⟩
    · exact hintact
    · exact h.loops x hx
  · intro id hid
    rw [hsame] at hid
    obtain ⟨x, hx, rfl, halive, hnone⟩ := h.task id hid
    rw [hturn.loops]
    by_cases heq : x.id = l.id
    · rw [heq] at hid ⊢
      obtain ⟨halive', hnone'⟩ := htask hid
      exact ⟨l', Keyed.mem_replace_self (List.mem_map.mpr ⟨x, hx, heq⟩), hturn.id, halive',
        hnone'⟩
    · exact ⟨x, Keyed.mem_replace_of_ne hx heq, rfl, halive, hnone⟩

/-- The loop of `_task` has no cancellation. -/
theorem cancellation_eq_none (h : Lives w) {l : Loop} (hl : l ∈ w.loops)
    (htask : w.task = some l.id) : l.cancellation = .none := by
  obtain ⟨x, hx, hid, -, hnone⟩ := h.task l.id htask
  rw [← Keyed.eq_of_key_eq h.ids hx hl hid]
  exact hnone

/-- The loop `l` resumes. Of its fates only going on is left, and the end by a cancellation. -/
theorem resume (h : Lives w) {l : Loop} (hl : l ∈ w.loops) (halive : l.isAlive)
    {a : LoopAnswer τ}
    (hbelow : l.cancellation ≠ .requested → Registers cfg l a →
      (failuresAt cfg w a.now).length < cfg.maxCrashes)
    (hrange : l.cancellation ≠ .requested → (Registers cfg l a → cfg.backoff.Fits l.attempt) ∧
      (l.point = .running → a.outcome = .cancelled → l.cancellation = .delivered))
    (hheard : l.cancellation ≠ .requested → Heard cfg l a) :
    Lives (resume cfg w l a) := by
  have hintact := h.loops l hl
  unfold Supervisor.resume
  split
  · rename_i hrequested
    -- `stop` clears `_task` when it requests a cancellation.
    have htask : ∀ {P : Prop}, w.task = some l.id → P := by
      intro P htask
      rw [h.cancellation_eq_none hl htask] at hrequested
      cases hrequested
    obtain ⟨l', hturn, hattempt, ⟨hpoint, hrun, -⟩ | ⟨hend, -⟩⟩ := deliver_turn w l
    · have hpos := (hintact.attempts halive).resolve_left (by rw [hpoint]; decide)
      have hrunning : Intact l' :=
        ⟨by simp [GivesUp, hrun], by simp [hrun], fun _ => Or.inr (hattempt ▸ hpos)⟩
      exact h.turn hturn hrunning htask
    · exact h.turn hturn (intact_cancelled hend) htask
  · rename_i hnot
    obtain ⟨hfits, hown⟩ := hrange hnot
    obtain ⟨l', actions, hturn, hfate, hcan, hattempt⟩ := proceed_turn cfg w halive a
    have hpos : 1 ≤ l'.attempt := by
      rcases hattempt with heq | ⟨heq, hcreated⟩
      · omega
      · have := (hintact.attempts halive).resolve_left hcreated
        omega
    cases hfate with
    | goesOn halive' hstays =>
      refine h.turn hturn ⟨hstays, ?_, fun _ => Or.inr hpos⟩ fun htask => ⟨halive', ?_⟩
      · intro how hhow
        simp [Loop.isAlive, hhow] at halive'
      · rw [hcan]
        exact h.cancellation_eq_none hl htask
    | givesUp _ hcause =>
      -- Below the threshold no loop gives up.
      rcases hcause with hgives | ⟨hregisters, hthreshold⟩
      · exact absurd hgives hintact.stays
      · have := hbelow hnot hregisters
        omega
    | cancelled hend hrun hout =>
      -- The `CancelledError` came from `stop`, which has cleared `_task`.
      refine h.turn hturn (intact_cancelled hend) fun htask => ?_
      have hdelivered := hown hrun hout
      rw [h.cancellation_eq_none hl htask] at hdelivered
      cases hdelivered
    | died e _ hregisters herr =>
      -- The delay of an attempt that fits is a number.
      have hpos' : 1 ≤ l.attempt := by
        refine (hintact.attempts halive).resolve_left ?_
        rcases hregisters with hpoint | ⟨hpoint, -, -⟩
        · rw [hpoint]; decide
        · rw [hpoint]; decide
      obtain ⟨d, hd, -⟩ :=
        cfg.backoff.computeDelay_of_fits (hfits hregisters) hpos' a.draw
      rw [hd] at herr
      cases herr
    | raised _ hunheard => exact absurd (hheard hnot) hunheard

theorem step (h : Lives w) {e : SupervisorStep τ} {w' : Supervisor τ}
    (hstep : step cfg w e = some w') (hbelow : BelowThreshold cfg w e w')
    (hrange : InRange cfg w e w') (hheard : AllHeard cfg w e w') : Lives w' := by
  obtain ⟨hen, rfl⟩ := Run.guarded_eq_some.mp hstep
  cases e with
  | start id => exact h.start hen
  | stop => exact h.stop
  | resume id a =>
    obtain ⟨l, hl, rfl, halive⟩ := hen
    rw [next_resume h.ids hl]
    exact h.resume hl halive (hbelow l hl rfl) (hrange l hl rfl) (hheard l hl rfl)
  | moved current => exact ⟨h.ids, h.loops, h.task⟩

end Lives

/-- In every run below the crash-loop threshold whose delays are in range and whose events are
heard, the supervise loops are sound. -/
theorem sound_of_inRange (cfg : SupervisorSettings) (current : RuntimeState)
    (es : List (SupervisorStep τ)) (w : Supervisor τ)
    (hrun : Run.exec (step cfg) (new current) es = some w)
    (hguard : Run.Along (step cfg) (fun w e w' => BelowThreshold cfg w e w' ∧
      InRange cfg w e w' ∧ AllHeard cfg w e w') (new current) es) : Sound w :=
  (Run.exec_invariant Lives (fun _ _ _ h hstep hg => h.step hstep hg.1 hg.2.1 hg.2.2) es _ w
    (Lives.new current) hrun hguard).sound

/-! ### The delays -/

/-- `compute_delay` returns a delay within its bounds exactly when the power fits. -/
theorem computeDelay_iff (b : Backoff) {attempt : Nat} (hpos : 1 ≤ attempt) (r : Draw) :
    (∃ d, b.computeDelay attempt r = .ok d ∧ 0 ≤ d ∧ d ≤ b.maxDelay) ↔ b.Fits attempt := by
  constructor
  · rintro ⟨d, hd, -⟩
    by_contra hfits
    rw [b.computeDelay_of_not_fits hfits r] at hd
    cases hd
  · intro hfits
    exact b.computeDelay_of_fits hfits hpos r

/-- The delay of an attempt is within its bounds exactly when the backoff is not exponential or
the attempt is at most 1024. Within this range a supervise loop whose events are heard is sound,
and outside of it `RetryPolicy.run` replaces the operation's exception. -/
theorem delays_sound :
    (∀ (b : Backoff) (attempt : Nat) (r : Draw), 1 ≤ attempt →
      ((∃ d, b.computeDelay attempt r = .ok d ∧ 0 ≤ d ∧ d ≤ b.maxDelay) ↔ b.Fits attempt)) ∧
    (∀ (cfg : SupervisorSettings) (current : RuntimeState) (es : List (SupervisorStep τ))
      (w : Supervisor τ), Run.exec (step cfg) (new current) es = some w →
        Run.Along (step cfg) (fun w e w' => BelowThreshold cfg w e w' ∧ InRange cfg w e w' ∧
          AllHeard cfg w e w') (new current) es → Sound w) ∧
    (∀ (α ε : Type) (p : RetryPolicy ε) (outcome : Nat → Attempt α ε) (draw : Nat → Draw),
      (∀ err, (p.run outcome draw).result ≠ .replaced err) ↔ ¬ p.Overflows outcome) := by
  refine ⟨fun b attempt r hpos => computeDelay_iff b hpos r, sound_of_inRange, ?_⟩
  intro α ε p outcome draw
  rw [← RetryPolicy.run_replaced_iff p outcome draw, not_exists]

/-- The default backoff of a supervisor, without jitter. -/
def doubling : Backoff := { serialReader.backoff with algorithm := .exponential }

/-- A supervisor whose function crashes once a minute. -/
def mqttClient : SupervisorSettings :=
  { serialReader with
    name := "mqtt-client"
    backoff := doubling }

/-- The function crashes, is restarted and is stopped. -/
def crashAndStop : List (SupervisorStep Nat) :=
  [.start 0, .resume 0 (answer .returned 0), .resume 0 (answer (.raised "lost") 90),
    .resume 0 (answer .returned 91), .stop, .resume 0 (answer .returned 92),
    .resume 0 (answer .cancelled 92)]

theorem delays_sound_mqttClient :
    (∃ d, doubling.computeDelay 1024 ⟨0, by decide⟩ = .ok d ∧ 0 ≤ d ∧ d ≤ doubling.maxDelay) ∧
    ∃ w, Run.exec (step mqttClient) (new .healthy) crashAndStop = some w ∧ Sound w := by
  refine ⟨((delays_sound (τ := Nat)).1 doubling 1024 ⟨0, by decide⟩ (by decide)).mpr
    (Or.inr (le_refl _)), ?_⟩
  have hrun : (Run.exec (step mqttClient) (new .healthy) crashAndStop).map
      (fun w => w.loops.length) = some 1 := by decide +kernel
  obtain ⟨w, hw, -⟩ := Option.map_eq_some_iff.mp hrun
  exact ⟨w, hw, delays_sound.2.1 mqttClient .healthy _ w hw (by decide +kernel)⟩

/-- The delay after the 1025th crash raises. -/
theorem exponential_delay_overflows :
    ¬ ∀ (b : Backoff) (attempt : Nat) (r : Draw), 1 ≤ attempt →
      ∃ d, b.computeDelay attempt r = .ok d ∧ 0 ≤ d ∧ d ≤ b.maxDelay := by
  intro h
  obtain ⟨d, hd, -⟩ := h doubling 1025 ⟨0, by decide⟩ (by decide)
  have hfits : ¬ doubling.Fits 1025 := by decide
  rw [doubling.computeDelay_of_not_fits hfits] at hd
  cases hd

end EdgeSentinel.Proofs.Process
