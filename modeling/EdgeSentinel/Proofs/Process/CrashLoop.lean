import EdgeSentinel.Library.Window
import EdgeSentinel.Proofs.Process.StopFinal

/-!
# `EdgeSentinel.Proofs.Process.CrashLoop`: the crash-loop detection is a sliding window

The `n`-th crash reads the clock at `t n`. `Looping t n` says that the last `max_crashes` crashes
up to the `n`-th lie within the window. `crashLoop_window` is about the runs of one loop that
nobody stops and whose events are heard: the supervisor gives up at the first `n` with
`Looping t n`, and restarts its function after each crash before it. A handler that raises when it
is called ends the loop, and nothing is detected (`handler_ends_supervision`).

`Exits` and `Heard` rule out the resumptions that are not a `Round`, and `Watched` is the invariant. The window
itself is `Window.push` of the library, and `Watched.times` says that the code's deque is it.
-/

set_option autoImplicit false

namespace EdgeSentinel.Proofs.Process

open EdgeSentinel.Core
open EdgeSentinel.Process
open EdgeSentinel.Process.Supervisor

variable {τ : Type} {cfg : SupervisorSettings} {t : ℕ → ℚ}

/-- The last `max_crashes` crashes up to the `n`-th lie within the window. -/
def Looping (cfg : SupervisorSettings) (t : ℕ → ℚ) (n : ℕ) : Prop :=
  cfg.maxCrashes ≤ n ∧ t n - t (n - cfg.maxCrashes + 1) ≤ cfg.window

/-! ### What one resumption does -/

/-- A loop that is resumed with this answer exits or raises, reads the clock at its crash, and gets
a delay when it asks for one. -/
structure Exits (cfg : SupervisorSettings) (t : ℕ → ℚ) (w : Supervisor τ) (l : Loop)
    (a : LoopAnswer τ) : Prop where
  exits : l.point = .running → a.outcome ≠ .cancelled
  reads : Registers cfg l a → a.now = t l.attempt
  delayed : Registers cfg l a → (failuresAt cfg w a.now).length < cfg.maxCrashes →
    (cfg.backoff.computeDelay l.attempt a.draw).isOk = true

instance (w : Supervisor τ) (l : Loop) (a : LoopAnswer τ) : Decidable (Exits cfg t w l a) :=
  decidable_of_iff ((l.point = .running → a.outcome ≠ .cancelled) ∧
    (Registers cfg l a → a.now = t l.attempt) ∧
    (Registers cfg l a → (failuresAt cfg w a.now).length < cfg.maxCrashes →
      (cfg.backoff.computeDelay l.attempt a.draw).isOk = true))
    ⟨fun ⟨exits, reads, delayed⟩ => ⟨exits, reads, delayed⟩, fun h => ⟨h.exits, h.reads, h.delayed⟩⟩

/-- Such a loop is not ended by its function or by its delay, and when its event is heard not by
that either. -/
theorem Exits.round {w : Supervisor τ} {l : Loop} {a : LoopAnswer τ} (h : Exits cfg t w l a)
    (hheard : Heard cfg l a)
    {point : LoopPoint} {attempt : ℕ} {times : List ℚ} {events : List (Event τ)}
    {actions : List Action} (hresumed : Resumed cfg w l a point attempt times events actions) :
    Round cfg w l a point attempt times events actions := by
  cases hresumed with
  | round h => exact h
  | cancelled hrun hout => exact absurd hout (h.exits hrun)
  | died e hregisters hbelow hdelay =>
    have hok := h.delayed hregisters hbelow
    rw [hdelay] at hok
    cases hok
  | raised hunheard => exact absurd hheard hunheard

/-! ### The invariant -/

/-- The crashes that the loop has registered. -/
def registered (l : Loop) : ℕ :=
  match l.point with
  | .created | .running | .reporting => l.attempt - 1
  | _ => l.attempt

/-- Invocations that were restarted. -/
def rounds (id : Nat) (n : ℕ) : List Action := (List.replicate n [.invoked id, .restarted id]).flatten

/-- What the loop has done for its function. -/
def performed (l : Loop) : List Action :=
  match l.point with
  | .created | .restarting | .sleeping => rounds l.id l.attempt
  | _ => rounds l.id (l.attempt - 1) ++ [.invoked l.id]

/-- A bound of the resumptions so far. A crash takes at most four until the function runs again. -/
def budget (l : Loop) : ℕ :=
  match l.point with
  | .created => 0
  | .running => 4 * l.attempt - 3
  | .reporting => 4 * l.attempt - 2
  | .restarting | .detecting => 4 * l.attempt - 1
  | .sleeping | .escalating => 4 * l.attempt
  | .ended _ => 4 * l.attempt + 1

/-- The event of a crash loop. -/
def IsDetection (e : Event τ) : Bool := e.type = "task_crash_loop_detected"

/-- The detections of a loop: one from the crash on at which it gives up. -/
inductive Detected (cfg : SupervisorSettings) (crashes : ℕ) (l : Loop) : List (Event τ) → Prop where
  | one (stamp : τ) (h : GivesUp l) (hevents : cfg.hasEvents = true) :
      Detected cfg crashes l [crashLoopEvent cfg crashes stamp]
  | none (h : GivesUp l → cfg.hasEvents = false) : Detected cfg crashes l []

/-- The actions of the escalation so far. -/
def Escalated (cfg : SupervisorSettings) (stopping : Prop) (l : Loop) (actions : List Action) : Prop :=
  if l.point = .escalating ∨ l.point = .ended .gaveUp then
    Escalation cfg stopping l.id l.point actions
  else actions = []

/-- A loop that runs on its own since `before`. -/
structure Watched (cfg : SupervisorSettings) (t : ℕ → ℚ) (before : Supervisor τ) (stopping : Prop)
    (resumes : ℕ) (w : Supervisor τ) (l : Loop) : Prop where
  loops : w.loops = before.loops ++ [l]
  fresh : l.id ∉ before.loops.map (·.id)
  uncancelled : l.cancellation = .none
  attempts : l.attempt = 0 ↔ l.point = .created
  ends : ∀ how, l.point = .ended how → how = .gaveUp
  times : w.failureTimes = Window.recent cfg.window t (registered l)
  below : ∀ n < l.attempt, ¬ Looping cfg t n
  restarted : l.point = .restarting ∨ l.point = .sleeping → ¬ Looping cfg t l.attempt
  gives : GivesUp l → Looping cfg t l.attempt
  crashed : w.crashed = true ↔ l.point = .ended .gaveUp
  task : w.task = if l.point = .ended .gaveUp then none else some l.id
  resumes : resumes ≤ budget l
  history : ∃ actions, Escalated cfg stopping l actions ∧
    w.history = before.history ++ .started l.id :: performed l ++ actions
  published : ∃ events, Detected cfg w.failureTimes.length l (events.filter IsDetection) ∧
    w.published = before.published ++ events

theorem Escalation.mono {stopping stopping' : Prop} (hmono : stopping → stopping') {id : Nat}
    {point : LoopPoint} {actions : List Action} (h : Escalation cfg stopping id point actions) :
    Escalation cfg stopping' id point actions := by
  cases h with
  | tried point hpoint => exact .tried point hpoint
  | skipped why => exact .skipped (why.imp_right hmono)

theorem escalated_nil {stopping : Prop} {l : Loop}
    (h : ¬ (l.point = .escalating ∨ l.point = .ended .gaveUp)) : Escalated cfg stopping l [] := by
  rw [Escalated, if_neg h]

theorem escalated_of_escalation {stopping : Prop} {l : Loop} {actions : List Action}
    (h : Escalation cfg stopping l.id l.point actions) : Escalated cfg stopping l actions := by
  rw [Escalated, if_pos h.point]
  exact h

theorem rounds_succ (id n : Nat) : rounds id (n + 1) = rounds id n ++ [.invoked id, .restarted id] := by
  rw [rounds, List.replicate_succ', List.flatten_append]
  rfl

theorem not_looping_zero : ¬ Looping cfg t 0 := fun h =>
  Nat.not_succ_le_zero _ (cfg.crashes_pos.trans h.1)

/-- The last loop of a list is replaced. -/
theorem replace_last {loops : List Loop} {l : Loop} (hfresh : l.id ∉ loops.map (·.id)) (l' : Loop) :
    Keyed.replace (·.id) l.id l' (loops ++ [l]) = loops ++ [l'] := by
  rw [Keyed.replace, List.map_append, List.map_singleton, if_pos rfl]
  refine congrArg (· ++ [l']) ?_
  rw [List.map_congr_left fun x hx => if_neg fun heq => hfresh (List.mem_map.mpr ⟨x, hx, heq⟩)]
  exact List.map_id' loops

namespace Watched

variable {before w : Supervisor τ} {stopping : Prop} {resumes : ℕ} {l : Loop} {a : LoopAnswer τ}
  {point : LoopPoint} {attempt : ℕ} {times : List ℚ} {events : List (Event τ)}
  {actions : List Action}

/-- An attempt that is counted has begun. -/
theorem attempt_pos (h : Watched cfg t before stopping resumes w l) (hpoint : l.point ≠ .created) :
    1 ≤ l.attempt :=
  Nat.one_le_iff_ne_zero.mpr fun hzero => hpoint (h.attempts.mp hzero)

section
variable (ht : ∀ i j, 1 ≤ i → i ≤ j → t i ≤ t j) (h : Watched cfg t before stopping resumes w l)
include ht h

/-- The deque at a crash. -/
theorem failuresAt_eq (hexits : Exits cfg t w l a) (hregisters : Registers cfg l a) :
    failuresAt cfg w a.now = Window.recent cfg.window t l.attempt := by
  have hpos : 1 ≤ l.attempt := h.attempt_pos hregisters.ne_created
  have hregistered : registered l = l.attempt - 1 := by
    rcases hregisters.point with hp | hp <;> simp only [registered, hp]
  have hsucc : l.attempt - 1 + 1 = l.attempt := by omega
  -- This crash is pushed after the earlier ones.
  have hpush : Window.push cfg.window (Window.recent cfg.window t (l.attempt - 1))
      (t (l.attempt - 1 + 1)) = _ := Window.push_recent ht (l.attempt - 1)
  rw [hsucc] at hpush
  rw [hexits.reads hregisters, ← hpush, ← hregistered, ← h.times]
  rfl

/-- The threshold is reached exactly at a crash with `Looping`. -/
theorem threshold_iff (hexits : Exits cfg t w l a) (hregisters : Registers cfg l a) :
    cfg.maxCrashes ≤ (failuresAt cfg w a.now).length ↔ Looping cfg t l.attempt := by
  rw [h.failuresAt_eq ht hexits hregisters]
  exact Window.le_length_recent_iff ht cfg.crashes_pos l.attempt

end

section
variable (h : Watched cfg t before stopping resumes w l)
  (hround : Round cfg w l a point attempt times events actions)
include h hround

theorem attempts_round : 1 ≤ attempt ∧ point ≠ .created := by
  cases hround with
  | invoked hpoint => exact ⟨Nat.succ_le_succ (Nat.zero_le _), nofun⟩
  | reported hpoint => exact ⟨h.attempt_pos (by rw [hpoint]; nofun), nofun⟩
  | restarted hregisters _ _ hpoint =>
    exact ⟨h.attempt_pos hregisters.ne_created, by rcases hpoint with rfl | rfl <;> nofun⟩
  | detected hregisters => exact ⟨h.attempt_pos hregisters.ne_created, nofun⟩
  | escalated hregisters _ _ _ _ hesc => exact ⟨h.attempt_pos hregisters.ne_created, hesc.ne_created⟩
  | published hpoint _ _ hesc => exact ⟨h.attempt_pos (by rw [hpoint]; nofun), hesc.ne_created⟩
  | moved hpoint => exact ⟨h.attempt_pos (by rw [hpoint]; nofun), nofun⟩
  | announced hpoint => exact ⟨h.attempt_pos (by rw [hpoint]; nofun), nofun⟩

omit h in
/-- The only end is giving up. -/
theorem ends_round : ∀ how, point = .ended how → how = .gaveUp := by
  intro how hend
  cases hround with
  | restarted _ _ _ hpoint => rcases hpoint with rfl | rfl <;> cases hend
  | escalated _ _ _ _ _ hesc => rcases hesc.point with rfl | rfl <;> cases hend; rfl
  | published _ _ _ hesc => rcases hesc.point with rfl | rfl <;> cases hend; rfl
  | moved _ => cases hend; rfl
  | _ => cases hend

/-- A crash takes at most four resumptions. -/
theorem budget_round : budget l + 1 ≤ budget { l with point := point, attempt := attempt } := by
  have hpos := h.attempt_pos
  cases hround with
  | invoked hpoint =>
    -- The first round costs nothing, and a later one begins a new crash.
    rcases hpoint with hp | hp
    · have hzero := h.attempts.mpr hp
      simp only [budget, hp]
      omega
    · simp only [budget, hp]
      omega
  | reported hpoint =>
    have hpos := hpos (by rw [hpoint]; nofun)
    simp only [budget, hpoint]
    omega
  | restarted hregisters _ _ hpoint =>
    have hpos := hpos hregisters.ne_created
    rcases hregisters.point with hp | hp <;> rcases hpoint with rfl | rfl <;>
      simp only [budget, hp] <;> omega
  | detected hregisters =>
    have hpos := hpos hregisters.ne_created
    rcases hregisters.point with hp | hp <;> simp only [budget, hp] <;> omega
  | escalated hregisters _ _ _ _ hesc =>
    have hpos := hpos hregisters.ne_created
    rcases hregisters.point with hp | hp <;> rcases hesc.point with rfl | rfl <;>
      simp only [budget, hp] <;> omega
  | published hpoint _ _ hesc =>
    have hpos := hpos (by rw [hpoint]; nofun)
    rcases hesc.point with rfl | rfl <;> simp only [budget, hpoint] <;> omega
  | moved hpoint => simp only [budget, hpoint]; omega
  | announced hpoint =>
    have hpos := hpos (by rw [hpoint]; nofun)
    simp only [budget, hpoint]
    omega

/-- Before the crash at which the loop stands there was no crash loop. -/
theorem below_round : ∀ n < attempt, ¬ Looping cfg t n := by
  cases hround with
  | invoked hpoint =>
    intro n hn
    -- The crash before the new round was no crash loop, or the loop would not have gone on.
    rcases Nat.lt_succ_iff_lt_or_eq.mp hn with hlt | rfl
    · exact h.below n hlt
    · rcases hpoint with hp | hp
      · rw [h.attempts.mpr hp]
        exact not_looping_zero
      · exact h.restarted (Or.inr hp)
  | _ => exact h.below

/-- What the loop has done for its function grows by the actions of the round. -/
theorem history_round {stopping' : Prop}
    (hnow : w.current ∈ RuntimeState.unsafeToEscalate → stopping') {past : List Action}
    (hpast : Escalated cfg stopping l past) :
    ∃ past', Escalated cfg stopping' { l with point := point, attempt := attempt } past' ∧
      performed l ++ past ++ actions
        = performed { l with point := point, attempt := attempt } ++ past' := by
  -- Only a loop that gives up has escalated.
  have hnone (hp : ¬ (l.point = .escalating ∨ l.point = .ended .gaveUp)) : past = [] := by
    rwa [Escalated, if_neg hp] at hpast
  cases hround with
  | invoked hpoint =>
    obtain rfl := hnone (by rcases hpoint with hp | hp <;> simp [hp])
    refine ⟨[], escalated_nil (by simp), ?_⟩
    rcases hpoint with hp | hp
    · simp only [performed, hp, h.attempts.mpr hp, List.append_nil, Nat.add_sub_cancel]
    · simp only [performed, hp, List.append_nil, Nat.add_sub_cancel]
  | reported hpoint =>
    obtain rfl := hnone (by simp [hpoint])
    exact ⟨[], escalated_nil (by simp), by simp only [performed, hpoint, List.append_nil]⟩
  | restarted hregisters _ _ hpoint =>
    obtain rfl := hnone (by rcases hregisters.point with hp | hp <;> simp [hp])
    obtain ⟨n, hn⟩ : ∃ n, l.attempt = n + 1 :=
      Nat.exists_eq_add_of_le' (h.attempt_pos hregisters.ne_created)
    refine ⟨[], escalated_nil (by rcases hpoint with rfl | rfl <;> simp), ?_⟩
    rcases hregisters.point with hp | hp <;> rcases hpoint with rfl | rfl <;>
      simp only [performed, hp, hn, rounds_succ, Nat.add_sub_cancel, List.append_nil,
        List.append_assoc, List.singleton_append]
  | detected hregisters =>
    obtain rfl := hnone (by rcases hregisters.point with hp | hp <;> simp [hp])
    refine ⟨[], escalated_nil (by simp), ?_⟩
    rcases hregisters.point with hp | hp <;> simp only [performed, hp, List.append_nil]
  | escalated hregisters _ _ _ _ hesc =>
    obtain rfl := hnone (by rcases hregisters.point with hp | hp <;> simp [hp])
    refine ⟨actions, escalated_of_escalation (hesc.mono hnow), ?_⟩
    rcases hregisters.point with hp | hp <;> rcases hesc.point with rfl | rfl <;>
      simp only [performed, hp, List.append_nil]
  | published hpoint _ _ hesc =>
    obtain rfl := hnone (by simp [hpoint])
    refine ⟨actions, escalated_of_escalation (hesc.mono hnow), ?_⟩
    rcases hesc.point with rfl | rfl <;> simp only [performed, hpoint, List.append_nil]
  | moved hpoint =>
    rw [Escalated, if_pos (Or.inl hpoint), hpoint] at hpast
    cases hpast
    exact ⟨_, escalated_of_escalation (.tried _ (Or.inr rfl)), by
      simp only [performed, hpoint, List.append_nil]⟩
  | announced hpoint =>
    obtain rfl := hnone (by simp [hpoint])
    exact ⟨[], escalated_nil (by simp), by simp only [performed, hpoint, List.append_nil]⟩

omit h in
/-- A crash loop is published once, at the crash at which the loop gives up. -/
theorem published_round {past : List (Event τ)} (hpast : Detected cfg w.failureTimes.length l past) :
    Detected cfg times.length { l with point := point, attempt := attempt }
      (past ++ events.filter IsDetection) := by
  -- Only a loop that gives up has published a crash loop.
  have hnone (hp : ¬ GivesUp l) : past = [] := by
    cases hpast with
    | one stamp hgives => exact absurd hgives hp
    | none _ => rfl
  -- On its way to give up the loop publishes nothing.
  have hsame (hp : GivesUp l) {l' : Loop} (hp' : GivesUp l') :
      Detected cfg w.failureTimes.length l' (past ++ []) := by
    rw [List.append_nil]
    cases hpast with
    | one stamp _ hevents => exact .one stamp hp' hevents
    | none h => exact .none fun _ => h hp
  have hquiet {l' : Loop} (hp : ¬ GivesUp l) (hp' : ¬ GivesUp l') {crashes : ℕ}
      (hevents : events.filter IsDetection = []) :
      Detected cfg crashes l' (past ++ events.filter IsDetection) := by
    rw [hnone hp, hevents]
    exact .none fun hgives => absurd hgives hp'
  cases hround with
  | invoked hpoint =>
    exact hquiet (by rcases hpoint with hp | hp <;> simp [GivesUp, hp]) (by simp [GivesUp]) rfl
  | reported hpoint error =>
    refine hquiet (by simp [GivesUp, hpoint]) (by simp [GivesUp]) ?_
    cases error <;> simp [IsDetection, exitEvent]
  | restarted hregisters _ _ hpoint _ hevents =>
    refine hquiet ?_ (by rcases hpoint with rfl | rfl <;> simp [GivesUp]) ?_
    · rcases hregisters.point with hp | hp <;> simp [GivesUp, hp]
    · rw [List.filter_eq_nil_iff]
      intro e he
      simp [IsDetection, hevents e he]
  | detected hregisters _ hevents =>
    rw [hnone (by rcases hregisters.point with hp | hp <;> simp [GivesUp, hp])]
    exact .one a.stamp (Or.inl rfl) hevents
  | escalated hregisters _ hevents =>
    rw [hnone (by rcases hregisters.point with hp | hp <;> simp [GivesUp, hp])]
    exact .none fun _ => hevents
  | published hpoint _ _ hesc => exact hsame (Or.inl hpoint) (Or.inr hesc.point)
  | moved hpoint => exact hsame (Or.inr (Or.inl hpoint)) (Or.inr (Or.inr rfl))
  | announced hpoint => exact hquiet (by simp [GivesUp, hpoint]) (by simp [GivesUp]) rfl

end

section
variable (ht : ∀ i j, 1 ≤ i → i ≤ j → t i ≤ t j) (h : Watched cfg t before stopping resumes w l)
  (hexits : Exits cfg t w l a) (hround : Round cfg w l a point attempt times events actions)
include ht h hexits hround

/-- The deque is the window of the registered crashes. -/
theorem times_round :
    times = Window.recent cfg.window t (registered { l with point := point, attempt := attempt }) := by
  cases hround with
  | invoked hpoint =>
    have hsame : registered l = l.attempt := by
      rcases hpoint with hp | hp
      · simp only [registered, hp, h.attempts.mpr hp]
      · simp only [registered, hp]
    rw [h.times, hsame]
    rfl
  | reported hpoint => rw [h.times]; simp only [registered, hpoint]
  | restarted hregisters _ _ hpoint =>
    rw [h.failuresAt_eq ht hexits hregisters]
    rcases hpoint with rfl | rfl <;> rfl
  | detected hregisters =>
    rw [h.failuresAt_eq ht hexits hregisters]
    rfl
  | escalated hregisters _ _ _ _ hesc =>
    rw [h.failuresAt_eq ht hexits hregisters]
    rcases hesc.point with rfl | rfl <;> rfl
  | published hpoint _ _ hesc =>
    rw [h.times]
    rcases hesc.point with rfl | rfl <;> simp only [registered, hpoint]
  | moved hpoint => rw [h.times]; simp only [registered, hpoint]
  | announced hpoint => rw [h.times]; simp only [registered, hpoint]

/-- A crash at which the loop restarts its function is no crash loop. -/
theorem restarted_round (hpoint' : point = .restarting ∨ point = .sleeping) :
    ¬ Looping cfg t attempt := by
  cases hround with
  | restarted hregisters hbelow =>
    rw [← h.threshold_iff ht hexits hregisters]
    exact Nat.not_le_of_lt hbelow
  | announced hpoint => exact h.restarted (Or.inl hpoint)
  | escalated _ _ _ _ _ hesc =>
    rcases hesc.point with rfl | rfl <;> rcases hpoint' with hp | hp <;> cases hp
  | published _ _ _ hesc =>
    rcases hesc.point with rfl | rfl <;> rcases hpoint' with hp | hp <;> cases hp
  | _ => rcases hpoint' with hp | hp <;> cases hp

/-- A crash at which the loop gives up is a crash loop. -/
theorem gives_round (hgives : GivesUp { l with point := point, attempt := attempt }) :
    Looping cfg t attempt := by
  cases hround with
  | detected hregisters hthreshold => exact (h.threshold_iff ht hexits hregisters).mp hthreshold
  | escalated hregisters hthreshold => exact (h.threshold_iff ht hexits hregisters).mp hthreshold
  | published hpoint => exact h.gives (Or.inl hpoint)
  | moved hpoint => exact h.gives (Or.inr (Or.inl hpoint))
  | restarted _ _ _ hpoint => rcases hpoint with rfl | rfl <;> simp [GivesUp] at hgives
  | _ => simp [GivesUp] at hgives

/-- A resumption keeps the invariant. -/
theorem round {stopping' : Prop} (hnow : w.current ∈ RuntimeState.unsafeToEscalate → stopping')
    (halive : l.isAlive) {w' : Supervisor τ}
    (hmoves : Moves w l point attempt times events actions w') :
    Watched cfg t before stopping' (resumes + 1) w'
      { l with point := point, attempt := attempt } := by
  have hpoint : l.point ≠ .ended .gaveUp := fun hp => by simp [Loop.isAlive, hp] at halive
  obtain ⟨hattempt, hcreated⟩ := h.attempts_round hround
  obtain ⟨past, hpast, hhistory⟩ := h.history
  obtain ⟨past', hpast', heq⟩ := h.history_round hround hnow hpast
  obtain ⟨seen, hseen, hpublished⟩ := h.published
  refine {
    loops := ?_
    fresh := h.fresh
    uncancelled := h.uncancelled
    attempts := ⟨fun hzero => absurd hzero (by simp only []; omega), fun hp => absurd hp hcreated⟩
    ends := Watched.ends_round hround
    times := hmoves.times.trans (h.times_round ht hexits hround)
    below := h.below_round hround
    restarted := h.restarted_round ht hexits hround
    gives := h.gives_round ht hexits hround
    crashed := ?_
    task := ?_
    resumes := (Nat.succ_le_succ h.resumes).trans (h.budget_round hround)
    history := ⟨past', hpast', ?_⟩
    published := ⟨seen ++ events, ?_, ?_⟩ }
  · rw [hmoves.loops, h.loops]
    exact replace_last h.fresh _
  · -- `crashed` becomes true in the round in which the loop gives up.
    rw [hmoves.crashed]
    by_cases hend : point = .ended .gaveUp
    · simp [hend]
    · rw [if_neg hend, h.crashed]
      exact ⟨fun hp => absurd hp hpoint, fun hp => absurd hp hend⟩
  · rw [hmoves.task, h.task, if_neg hpoint]
  · rw [hmoves.history, hhistory]
    simp only [List.append_assoc, List.cons_append] at heq ⊢
    rw [heq]
  · rw [hmoves.times]
    rw [List.filter_append]
    exact Watched.published_round hround hseen
  · rw [hmoves.published, hpublished, List.append_assoc]

end

/-- `stopping` may become true. The state of the runtime may change. -/
theorem mono {stopping' : Prop} {w' : Supervisor τ} (h : Watched cfg t before stopping resumes w l)
    (hmono : stopping → stopping') (hsame : w' = { w with current := w'.current }) :
    Watched cfg t before stopping' resumes w' l := by
  obtain ⟨actions, hactions, hhistory⟩ := h.history
  have hactions' : Escalated cfg stopping' l actions := by
    unfold Escalated at hactions ⊢
    split
    · rename_i hp
      rw [if_pos hp] at hactions
      exact hactions.mono hmono
    · rename_i hp
      rwa [if_neg hp] at hactions
  rw [hsame]
  exact ⟨h.loops, h.fresh, h.uncancelled, h.attempts, h.ends, h.times, h.below, h.restarted, h.gives,
    h.crashed, h.task, h.resumes, ⟨actions, hactions', hhistory⟩, h.published⟩

end Watched

/-! ### Runs -/

/-- The supervisor does not run, and each of its loops has ended. -/
structure Idle (w : Supervisor τ) : Prop where
  task : w.task = none
  ended : ∀ l ∈ w.loops, l.isAlive = false

/-- `start` empties the window. -/
theorem Watched.start (cfg : SupervisorSettings) (t : ℕ → ℚ) {before : Supervisor τ}
    (hidle : Idle before) {id : Nat} (hfresh : id ∉ before.loops.map (·.id)) (stopping : Prop) :
    Watched cfg t before stopping 0 (before.start id) { id := id } := by
  have hstart : before.start id = { before with
      crashed := false
      failureTimes := []
      task := some id
      loops := before.loops ++ [{ id := id }]
      history := before.history ++ [.started id] } := by
    rw [Supervisor.start, hidle.task]
    rfl
  rw [hstart]
  exact {
    loops := rfl
    fresh := hfresh
    uncancelled := rfl
    attempts := ⟨fun _ => rfl, fun _ => rfl⟩
    ends := nofun
    times := rfl
    below := fun n hn => absurd hn (Nat.not_lt_zero n)
    restarted := by simp
    gives := by simp [GivesUp]
    crashed := by simp
    task := rfl
    resumes := le_refl 0
    history := ⟨[], escalated_nil (by simp), (List.append_nil _).symm⟩
    published := ⟨[], .none (by simp [GivesUp]), (List.append_nil _).symm⟩ }

/-- Nobody stops the running supervisor or starts another loop. The function exits or raises, and
the `n`-th crash reads the clock at `t n`. -/
def Undisturbed (cfg : SupervisorSettings) (t : ℕ → ℚ) (w : Supervisor τ) :
    SupervisorStep τ → Supervisor τ → Prop
  | .start _, _ => w.isRunning = true
  | .stop, _ => w.isRunning = false
  | .resume id a, _ => ∀ l ∈ w.loops, l.id = id → Exits cfg t w l a
  | .moved _, _ => True

instance (w : Supervisor τ) : ∀ e w', Decidable (Undisturbed cfg t w e w')
  | .start _, _ => inferInstanceAs (Decidable (w.isRunning = true))
  | .stop, _ => inferInstanceAs (Decidable (w.isRunning = false))
  | .resume id a, _ => inferInstanceAs (Decidable (∀ l ∈ w.loops, l.id = id → Exits cfg t w l a))
  | .moved _, _ => isTrue trivial

/-- A loop resumes. -/
def IsResume : SupervisorStep τ → Bool
  | .resume .. => true
  | _ => false

/-- In one of the states of a run the runtime was stopping. -/
def WasStopping (cfg : SupervisorSettings) (w : Supervisor τ) (es : List (SupervisorStep τ)) : Prop :=
  ∃ past w', past <+: es ∧ Run.exec (step cfg) w past = some w' ∧
    w'.current ∈ RuntimeState.unsafeToEscalate

theorem Watched.step (ht : ∀ i j, 1 ≤ i → i ≤ j → t i ≤ t j) {before w w' : Supervisor τ} {l : Loop}
    (hidle : Idle before) {stopping stopping' : Prop} {resumes : ℕ}
    (h : Watched cfg t before stopping resumes w l) {e : SupervisorStep τ}
    (hstep : step cfg w e = some w') (hguard : Undisturbed cfg t w e w')
    (hheard : AllHeard cfg w e w')
    (hmono : stopping → stopping') (hnow : w.current ∈ RuntimeState.unsafeToEscalate → stopping') :
    ∃ l', l'.id = l.id ∧ Watched cfg t before stopping' (resumes + [e].countP IsResume) w' l' := by
  obtain ⟨hen, rfl⟩ := Run.guarded_eq_some.mp hstep
  cases e with
  | start id =>
    have hsame : next cfg w (.start id) = w := if_pos hguard
    rw [hsame]
    exact ⟨l, rfl, h.mono hmono rfl⟩
  | stop =>
    have hnone : w.task = none := Option.not_isSome_iff_eq_none.mp (Bool.eq_false_iff.mp hguard)
    have hsame : next cfg w .stop = w := by
      rw [next, Supervisor.stop, hnone]
    rw [hsame]
    exact ⟨l, rfl, h.mono hmono rfl⟩
  | resume id a =>
    obtain ⟨x, hx, rfl, halive⟩ := hen
    -- The loops of before have ended.
    obtain rfl : x = l := by
      rw [h.loops] at hx
      rcases List.mem_append.mp hx with hx | hx
      · rw [hidle.ended x hx] at halive
        cases halive
      · exact List.mem_singleton.mp hx
    have hfind : w.loops.find? (·.id = x.id) = some x := by
      have hnone : before.loops.find? (·.id = x.id) = none := by
        rw [List.find?_eq_none]
        intro y hy
        simpa using fun heq => h.fresh (List.mem_map.mpr ⟨y, hy, heq⟩)
      rw [h.loops, List.find?_append, hnone]
      simp
    have hnot : x.cancellation ≠ .requested := by rw [h.uncancelled]; decide
    have hresume : next cfg w (.resume x.id a) = proceed cfg w x a := by
      simp only [next, hfind, Supervisor.resume, if_neg hnot]
    obtain ⟨point, attempt, times, events, actions, hresumed, hmoves⟩ :=
      moves_proceed cfg w halive a
    rw [hresume]
    exact ⟨{ x with point := point, attempt := attempt }, rfl,
      (h.mono hmono rfl).round ht (hguard x hx rfl)
        ((hguard x hx rfl).round (hheard x hx rfl hnot) hresumed) hnow halive hmoves⟩
  | moved current => exact ⟨l, rfl, h.mono hmono rfl⟩

/-! ### What a user sees -/

/-- What a user sees of a supervisor that was started once. `work` and `events` are its actions and
events since then. -/
structure Windowed (cfg : SupervisorSettings) (t : ℕ → ℚ) (id : Nat) (stopping : Prop)
    (resumes : ℕ) (w : Supervisor τ) (work : List Action) (events : List (Event τ)) : Prop where
  /-- The function is not restarted at a crash loop. -/
  stops : ∀ n, Looping cfg t n → work.count (.invoked id) ≤ n ∧ work.count (.restarted id) < n
  gaveUp : w.crashed = true → Looping cfg t (work.count (.invoked id))
  /-- A crash takes at most four resumptions until the function runs again. -/
  goesOn : w.crashed = false →
    (∃ l ∈ w.loops, l.id = id ∧ l.isAlive) ∧ resumes ≤ 4 * work.count (.invoked id)
  together : w.isRunning = !w.crashed
  restarts : ∃ n tail, work = rounds id n ++ tail ∧
    tail ∈ [[], [.invoked id], [.invoked id, .escalated id]]
  published : (events.filter IsDetection).length ≤ 1
  onlyLoops : events.filter IsDetection ≠ [] → Looping cfg t (work.count (.invoked id))
  detected : w.crashed = true → cfg.hasEvents = true →
    ∃ crashes stamp, events.filter IsDetection = [crashLoopEvent cfg crashes stamp]
  escalated : w.crashed = true → cfg.hasSetState = true → .escalated id ∈ work ∨ stopping
  idle : w.crashed = true → Idle w

/-- A loop that has not given up is within its budget. -/
theorem budget_le {l : Loop} (h : l.isAlive) : budget l ≤ 4 * l.attempt := by
  cases hpoint : l.point with
  | ended how => simp [Loop.isAlive, hpoint] at h
  | _ =>
    simp only [budget, hpoint]
    omega

theorem count_rounds (id n : Nat) :
    (rounds id n).count (.invoked id) = n ∧ (rounds id n).count (.restarted id) = n := by
  induction n with
  | zero => exact ⟨rfl, rfl⟩
  | succ n ih =>
    rw [rounds_succ, List.count_append, List.count_append, ih.1, ih.2]
    simp

namespace Watched

variable {before w : Supervisor τ} {stopping : Prop} {resumes : ℕ} {l : Loop}

/-- The actions for the function, and those of the escalation after them. -/
theorem exists_work (h : Watched cfg t before stopping resumes w l) :
    ∃ n tail, w.history = before.history ++ .started l.id :: (rounds l.id n ++ tail) ∧
      ((tail = [] ∧ l.attempt = n ∧ ¬ GivesUp l ∧ ¬ Looping cfg t n) ∨
        (tail = [.invoked l.id] ∧ l.attempt = n + 1 ∧
          (l.point = .ended .gaveUp → cfg.hasSetState = false ∨ stopping)) ∨
        (tail = [.invoked l.id, .escalated l.id] ∧ l.attempt = n + 1)) := by
  obtain ⟨actions, hactions, hhistory⟩ := h.history
  unfold Escalated at hactions
  -- The loop is between two invocations, or in one or after the last one.
  by_cases hbetween : l.point = .created ∨ l.point = .restarting ∨ l.point = .sleeping
  · have hquiet : ¬ (l.point = .escalating ∨ l.point = .ended .gaveUp) := by
      rcases hbetween with hp | hp | hp <;> simp [hp]
    rw [if_neg hquiet] at hactions
    refine ⟨l.attempt, [], ?_, Or.inl ⟨rfl, rfl, ?_, ?_⟩⟩
    · have hperformed : performed l = rounds l.id l.attempt := by
        rcases hbetween with hp | hp | hp <;> simp only [performed, hp]
      rw [hhistory, hactions, hperformed, List.append_nil, List.append_nil]
    · rcases hbetween with hp | hp | hp <;> simp [GivesUp, hp]
    · rcases hbetween with hp | hp
      · rw [h.attempts.mpr hp]
        exact not_looping_zero
      · exact h.restarted hp
  · have hperformed : performed l = rounds l.id (l.attempt - 1) ++ [.invoked l.id] := by
      unfold performed
      split <;> simp_all
    have hpos := h.attempt_pos fun hp => hbetween (Or.inl hp)
    have hattempt : l.attempt = l.attempt - 1 + 1 := by omega
    have hwork : w.history
        = before.history ++ .started l.id :: (rounds l.id (l.attempt - 1) ++ .invoked l.id :: actions) := by
      rw [hhistory, hperformed]
      simp
    split at hactions
    · -- The loop has escalated, or it skipped the escalation.
      cases hpoint : l.point with
      | ended how =>
        rw [hpoint] at hactions
        cases hactions with
        | tried _ _ => exact ⟨_, _, hwork, Or.inr (Or.inr ⟨rfl, hattempt⟩)⟩
        | skipped why => exact ⟨_, _, hwork, Or.inr (Or.inl ⟨rfl, hattempt, fun _ => why⟩)⟩
      | _ =>
        rw [hpoint] at hactions
        cases hactions
        exact ⟨_, _, hwork, Or.inr (Or.inr ⟨rfl, hattempt⟩)⟩
    · rename_i hquiet
      rw [hactions] at hwork
      exact ⟨_, _, hwork, Or.inr (Or.inl ⟨rfl, hattempt, fun hp => absurd (Or.inr hp) hquiet⟩)⟩

/-- What the user sees of a watched loop. -/
theorem windowed (h : Watched cfg t before stopping resumes w l) (hidle : Idle before) :
    ∃ work events, w.history = before.history ++ .started l.id :: work ∧
      w.published = before.published ++ events ∧
      Windowed cfg t l.id stopping resumes w work events := by
  obtain ⟨n, tail, hhistory, htail⟩ := h.exists_work
  obtain ⟨events, hdetected, hpublished⟩ := h.published
  obtain ⟨hinvoked, hrestarted⟩ := count_rounds l.id n
  have hmem : l ∈ w.loops := by rw [h.loops]; simp
  have hgaveUp : w.crashed = true → GivesUp l := fun hc => Or.inr (Or.inr (h.crashed.mp hc))
  obtain ⟨seen, hseen⟩ : ∃ seen, seen = events.filter IsDetection := ⟨_, rfl⟩
  rw [← hseen] at hdetected
  have hinvocations : (rounds l.id n ++ tail).count (.invoked l.id) = l.attempt := by
    rw [List.count_append, hinvoked]
    rcases htail with ⟨rfl, heq, -⟩ | ⟨rfl, heq, -⟩ | ⟨rfl, heq⟩ <;> simp [heq]
  have hrestarts : (rounds l.id n ++ tail).count (.restarted l.id) = n := by
    rw [List.count_append, hrestarted]
    rcases htail with ⟨rfl, -⟩ | ⟨rfl, -⟩ | ⟨rfl, -⟩ <;> simp
  refine ⟨_, events, hhistory, hpublished, ?_⟩
  constructor
  case stops =>
    intro k hk
    -- The loop has not come past a crash loop.
    have hle : l.attempt ≤ k := Nat.le_of_not_lt fun hlt => h.below k hlt hk
    rw [hinvocations, hrestarts]
    refine ⟨hle, ?_⟩
    rcases htail with ⟨-, heq, -, hnot⟩ | ⟨-, heq, -⟩ | ⟨-, heq⟩
    · exact lt_of_le_of_ne (heq ▸ hle) fun hn => hnot (hn ▸ hk)
    · omega
    · omega
  case gaveUp =>
    intro hc
    rw [hinvocations]
    exact h.gives (hgaveUp hc)
  case goesOn =>
    intro hc
    -- A loop that has not given up has not ended.
    have halive : l.isAlive := by
      cases hpoint : l.point with
      | ended how =>
        rw [h.ends how hpoint] at hpoint
        rw [h.crashed.mpr hpoint] at hc
        cases hc
      | _ => simp [Loop.isAlive, hpoint]
    rw [hinvocations]
    exact ⟨⟨l, hmem, rfl, halive⟩, h.resumes.trans (budget_le halive)⟩
  case together =>
    rw [isRunning, h.task]
    by_cases hpoint : l.point = .ended .gaveUp
    · simp [hpoint, h.crashed.mpr hpoint]
    · have hc : w.crashed = false := Bool.eq_false_iff.mpr fun hc => hpoint (h.crashed.mp hc)
      simp [hpoint, hc]
  case restarts =>
    refine ⟨n, tail, rfl, ?_⟩
    rcases htail with ⟨rfl, -⟩ | ⟨rfl, -⟩ | ⟨rfl, -⟩ <;> simp
  case published =>
    rw [← hseen]
    cases hdetected <;> simp
  case onlyLoops =>
    intro hne
    rw [← hseen] at hne
    rw [hinvocations]
    cases hdetected with
    | one stamp hgives _ => exact h.gives hgives
    | none _ => exact absurd rfl hne
  case detected =>
    intro hc hevents
    rw [← hseen]
    cases hdetected with
    | one stamp _ _ => exact ⟨_, stamp, rfl⟩
    | none hnone =>
      rw [hnone (hgaveUp hc)] at hevents
      cases hevents
  case escalated =>
    intro hc hset
    rcases htail with ⟨-, -, hnot, -⟩ | ⟨-, -, hskipped⟩ | ⟨rfl, -⟩
    · exact absurd (hgaveUp hc) hnot
    · rcases hskipped (h.crashed.mp hc) with hno | hstopping
      · rw [hno] at hset
        cases hset
      · exact Or.inr hstopping
    · simp
  case idle =>
    intro hc
    have hpoint := h.crashed.mp hc
    refine ⟨by rw [h.task, if_pos hpoint], fun x hx => ?_⟩
    rw [h.loops] at hx
    rcases List.mem_append.mp hx with hx | hx
    · exact hidle.ended x hx
    · rw [List.mem_singleton.mp hx, Loop.isAlive, hpoint]

end Watched

/-- The crash-loop detection, for every nondecreasing sequence of clock readings and every run of a
supervisor that is started when it is idle and whose events are heard. The window is empty at the
start. -/
theorem crashLoop_window (cfg : SupervisorSettings) (t : ℕ → ℚ)
    (ht : ∀ i j, 1 ≤ i → i ≤ j → t i ≤ t j) (before : Supervisor τ) (hidle : Idle before) (id : Nat)
    (es : List (SupervisorStep τ)) (w : Supervisor τ)
    (hrun : Run.exec (step cfg) before (.start id :: es) = some w)
    (hguard : Run.Along (step cfg)
      (fun w e w' => Undisturbed cfg t w e w' ∧ AllHeard cfg w e w') (before.start id) es) :
    (before.start id).failureTimes = [] ∧
    ∃ work events, w.history = before.history ++ .started id :: work ∧
      w.published = before.published ++ events ∧
      Windowed cfg t id (WasStopping cfg (before.start id) es) (es.countP IsResume) w work events := by
  obtain ⟨w₁, hstart, hrun⟩ := Run.exec_cons_eq_some hrun
  obtain ⟨hfresh, rfl⟩ := Run.guarded_eq_some.mp hstart
  have hbegin (stopping : Prop) := Watched.start cfg t hidle hfresh stopping
  refine ⟨(hbegin False).times, ?_⟩
  -- The invariant reads the past: whether the runtime was stopping, and how often the loop resumed.
  let inv (past : List (SupervisorStep τ)) (w : Supervisor τ) : Prop :=
    Run.exec (step cfg) (before.start id) past = some w ∧
      ∃ l, l.id = id ∧ Watched cfg t before (WasStopping cfg (before.start id) past)
        (past.countP IsResume) w l
  obtain ⟨-, l, rfl, hwatched⟩ : inv es w := by
    refine Run.exec_history inv ?_ es [] _ w ⟨rfl, _, rfl, hbegin _⟩ hrun hguard
    intro past w e w' ⟨hpast, l, hid, hwatched⟩ hstep ⟨hundisturbed, hheard⟩
    refine ⟨Run.exec_snoc hpast hstep, ?_⟩
    have hmono : WasStopping cfg (before.start id) past →
        WasStopping cfg (before.start id) (past ++ [e]) :=
      fun ⟨p, v, hp, hv, hunsafe⟩ => ⟨p, v, hp.trans (List.prefix_append _ _), hv, hunsafe⟩
    obtain ⟨l', hid', hwatched'⟩ := hwatched.step ht hidle hstep hundisturbed hheard hmono
      fun hunsafe => ⟨past, w, List.prefix_append _ _, hpast, hunsafe⟩
    rw [List.countP_append]
    exact ⟨l', hid'.trans hid, hwatched'⟩
  exact hwatched.windowed hidle

/-- A supervisor with events that may move the runtime to FAILED. -/
def gpsReader : SupervisorSettings :=
  { serialReader with
    name := "gps-reader"
    hasEvents := true
    hasSetState := true }

/-- The function crashes at 1, 2 and 3, and the supervisor gives up. -/
def threeCrashes : List (SupervisorStep Nat) :=
  .resume 0 (answer .returned 0) ::
    ([1, 2].flatMap fun n => [.resume 0 (answer (.raised "no fix") n), .resume 0 (answer .returned n),
      .resume 0 (answer .returned n), .resume 0 (answer .returned n)]) ++
    List.replicate 4 (.resume 0 (answer .returned 3))

/-- The third crash is the first crash loop. -/
theorem crashLoop_window_threeCrashes : ∃ w work events,
    Run.exec (step gpsReader) (new .healthy) (.start 0 :: threeCrashes) = some w ∧
    w.crashed = true ∧ w.current = .failed ∧
    Windowed gpsReader (fun n => (n : ℚ)) 0
      (WasStopping gpsReader (Supervisor.start (new .healthy) 0) threeCrashes)
      (threeCrashes.countP IsResume) w work events := by
  have hrun : (Run.exec (step gpsReader) (new .healthy) (.start 0 :: threeCrashes)).map
      (fun w => (w.crashed, w.current)) = some (true, .failed) := by decide +kernel
  obtain ⟨w, hw, heq⟩ := Option.map_eq_some_iff.mp hrun
  obtain ⟨hcrashed, hcurrent⟩ := Prod.mk.inj heq
  obtain ⟨-, work, events, -, -, hwindowed⟩ := crashLoop_window gpsReader (fun n => (n : ℚ))
    (fun i j _ hij => Nat.cast_le.mpr hij) (new .healthy) ⟨rfl, by simp [new]⟩ 0 threeCrashes w hw
    (by decide +kernel)
  exact ⟨w, work, events, hw, hcrashed, hcurrent, hwindowed⟩

/-- The function crashes once, and the `TypeError` of a handler ends the loop: the supervisor looks
as if it ran, but has neither restarted the function nor given up. -/
theorem handler_ends_supervision :
    ¬ ∀ (cfg : SupervisorSettings) (t : ℕ → ℚ), (∀ i j, 1 ≤ i → i ≤ j → t i ≤ t j) →
      ∀ before : Supervisor Nat, Idle before → ∀ (id : Nat) (es : List (SupervisorStep Nat))
        (w : Supervisor Nat), Run.exec (step cfg) before (.start id :: es) = some w →
      Run.Along (step cfg) (Undisturbed cfg t) (before.start id) es →
      ∃ work events, w.history = before.history ++ .started id :: work ∧
        w.published = before.published ++ events ∧
        Windowed cfg t id (WasStopping cfg (before.start id) es) (es.countP IsResume) w work
          events := by
  intro h
  have hrun : (Run.exec (step gpsReader) (new .healthy) [.start 0, .resume 0 (answer .returned 0),
      .resume 0 { answer (.raised "no fix") 1 with audience := Core.uncallable }]).map
      (fun w => (w.loops.map (·.isAlive), w.crashed, w.isRunning)) = some ([false], false, true) := by
    decide +kernel
  obtain ⟨w, hw, heq⟩ := Option.map_eq_some_iff.mp hrun
  obtain ⟨hdead, hnot, -⟩ := by simpa only [Prod.mk.injEq] using heq
  obtain ⟨work, events, -, -, hwindowed⟩ := h gpsReader (fun n => (n : ℚ))
    (fun i j _ hij => Nat.cast_le.mpr hij) (new .healthy) ⟨rfl, by simp [new]⟩ 0 _ w hw
    (by decide +kernel)
  -- The loop has not given up, so it would have to be alive.
  obtain ⟨⟨l, hl, -, halive⟩, -⟩ := hwindowed.goesOn hnot
  have hmem : l.isAlive ∈ w.loops.map (·.isAlive) := List.mem_map_of_mem hl
  rw [hdead, halive] at hmem
  cases List.mem_singleton.mp hmem

end EdgeSentinel.Proofs.Process
