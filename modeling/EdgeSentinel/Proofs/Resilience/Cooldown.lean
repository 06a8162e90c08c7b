import EdgeSentinel.Resilience.CircuitBreaker
import Mathlib.Tactic.Linarith

/-!
# `EdgeSentinel.Proofs.Resilience.Cooldown`: how often a failing dependency is called

A tripped breaker protects its dependency. Until a call succeeds, it admits calls that are at
least `recovery_timeout` apart, whatever the interleaving of the callers is
(`admissions_spaced`). This holds although the trial itself is not protected: a late completion
may end the trial, but a late failure also restarts the timeout.

`Cooling` is the invariant. It names the latest moment at which the timeout was started or a
call was admitted.
-/

set_option autoImplicit false

namespace EdgeSentinel.Proofs.Resilience

open EdgeSentinel.Resilience
open EdgeSentinel.Resilience.System (step arrive_cases next_arrive_of_ok)

variable {cfg : Settings}

/-- `_before_call` lets the call through. -/
def admitted (cfg : Settings) (s : System) : Event → Bool
  | .arrive _ => (s.breaker.beforeCall cfg s.monotonic).isOk
  | _ => false

/-- The monotonic readings at which the calls of a run were admitted. -/
def admissions (cfg : Settings) : System → List Event → List ℚ
  | _, [] => []
  | s, e :: es =>
    (if admitted cfg s e then [s.monotonic] else []) ++ admissions cfg (s.next cfg e) es

/-- The event is the success of a call. -/
def IsSuccess (e : Event) : Prop := ∃ c, e = .finish c .success

/-! ### The failures of a tripped breaker -/

/-- A breaker that has tripped is at its threshold, so each further failure trips it again. -/
def Tripped (cfg : Settings) (s : System) : Prop :=
  s.breaker.state ≠ .closed → cfg.failureThreshold ≤ s.breaker.failureCount + 1

theorem Tripped.step {s s' : System} {e : Event} (h : Tripped cfg s)
    (hstep : step cfg s e = some s') : Tripped cfg s' := by
  obtain ⟨-, rfl⟩ := Run.guarded_eq_some.mp hstep
  cases e with
  | tick monotonic wallclock => exact h
  | persisted saved => exact h
  | cancel c => exact h
  | arrive id =>
    rcases arrive_cases cfg s id with heq | ⟨-, heq⟩ | ⟨hs, -, heq⟩ | ⟨hs, -, heq⟩
    · rw [heq]
      exact h
    · rw [heq]
      exact h
    · rw [heq]
      exact fun _ => h (by simp [hs])
    · rw [heq]
      exact fun _ => h (by simp [hs])
  | finish c r =>
    cases r with
    | success => exact fun hs => absurd rfl hs
    | failure =>
      show Tripped cfg { s.next cfg (.finish c .failure) with
        breaker := s.breaker.onFailure cfg s.monotonic s.wallclock }
      by_cases htrip : s.breaker.state = .halfOpen ∨
          cfg.failureThreshold ≤ s.breaker.failureCount + 1
      · rw [CircuitBreaker.onFailure_of_trip htrip]
        intro _
        show cfg.failureThreshold ≤ s.breaker.failureCount + 1 + 1
        rcases htrip with hs | hle
        · have := h (by simp [hs])
          omega
        · omega
      · rw [CircuitBreaker.onFailure_of_count htrip]
        intro hs
        exact absurd (Or.inr (h hs)) htrip

theorem tripped_of_run {monotonic wallclock : ℚ} {es : List Event} {s : System}
    (hrun : Run.exec (step cfg) (System.start monotonic wallclock) es = some s) :
    Tripped cfg s :=
  Run.exec_invariant_of_step (Tripped cfg) (fun _ _ _ h hstep => h.step hstep) es _ s
    (fun hs => absurd rfl hs) hrun

/-- A failure that leaves the breaker OPEN has started the timeout. -/
theorem openedAt_of_failure {s : System} (h : Tripped cfg s)
    (hopen : (s.settle cfg .failure).state = .opened) :
    (s.settle cfg .failure).openedAtMonotonic = s.monotonic := by
  simp only [System.settle] at hopen ⊢
  by_cases htrip : s.breaker.state = .halfOpen ∨
      cfg.failureThreshold ≤ s.breaker.failureCount + 1
  · rw [CircuitBreaker.onFailure_of_trip htrip]
  · rw [CircuitBreaker.onFailure_of_count htrip] at hopen
    have hs : s.breaker.state = .opened := hopen
    exact absurd (Or.inr (h (by simp [hs]))) htrip

/-! ### The admissions of a tripped breaker -/

/-- `last` is the latest moment at which the timeout was started or a call was admitted. While
OPEN the timeout runs from `last` or later. While HALF_OPEN a call is in flight. -/
structure Cooling (last : ℚ) (s : System) : Prop where
  notClosed : s.breaker.state ≠ .closed
  last_le : last ≤ s.monotonic
  opened : s.breaker.state = .opened → last ≤ s.breaker.openedAtMonotonic
  halfOpen : s.breaker.state = .halfOpen → s.breaker.halfOpenInFlight = true

namespace Cooling

variable {last : ℚ} {s s' : System} {e : Event}

/-- A failure restarts the timeout, or it leaves it running. -/
theorem failure (h : Cooling last s) (c : Call) :
    Cooling last (s.next cfg (.finish c .failure)) := by
  show Cooling last { s.next cfg (.finish c .failure) with
    breaker := s.breaker.onFailure cfg s.monotonic s.wallclock }
  by_cases htrip : s.breaker.state = .halfOpen ∨
      cfg.failureThreshold ≤ s.breaker.failureCount + 1
  · rw [CircuitBreaker.onFailure_of_trip htrip]
    exact ⟨nofun, h.last_le, fun _ => h.last_le, nofun⟩
  · rw [CircuitBreaker.onFailure_of_count htrip]
    exact ⟨h.notClosed, h.last_le, h.opened, fun hs => absurd (Or.inl hs) htrip⟩

/-- An arriving call is rejected, or it is admitted when the timeout has elapsed. -/
theorem arrive (cfg : Settings) (h : Cooling last s) (id : Nat) :
    (admitted cfg s (.arrive id) = false ∧ s.next cfg (.arrive id) = s) ∨
      admitted cfg s (.arrive id) = true ∧ last + cfg.recoveryTimeout ≤ s.monotonic ∧
        Cooling s.monotonic (s.next cfg (.arrive id)) := by
  cases hcb : s.breaker.beforeCall cfg s.monotonic with
  | error e =>
    refine .inl ⟨?_, System.next_arrive_of_error hcb id⟩
    simp [admitted, hcb, Except.isOk, Except.toBool]
  | ok cb =>
    refine .inr ⟨by simp [admitted, hcb, Except.isOk, Except.toBool], ?_⟩
    rw [next_arrive_of_ok hcb id]
    rcases CircuitBreaker.beforeCall_cases hcb with ⟨hs, -⟩ | ⟨hs, hlate, rfl⟩ | ⟨hs, hf, -⟩
    · exact absurd hs h.notClosed
    · have hlast := h.opened hs
      refine ⟨by linarith, ⟨nofun, le_rfl, nofun, fun _ => rfl⟩⟩
    · rw [h.halfOpen hs] at hf
      cases hf

/-- One step without a success. An admission moves `last`. -/
theorem step (h : Cooling last s) (hstep : step cfg s e = some s') (he : ¬ IsSuccess e) :
    (admitted cfg s e = false ∧ Cooling last s') ∨
      admitted cfg s e = true ∧ last + cfg.recoveryTimeout ≤ s.monotonic ∧
        Cooling s.monotonic s' := by
  obtain ⟨hen, rfl⟩ := Run.guarded_eq_some.mp hstep
  cases e with
  | tick monotonic wallclock =>
    exact .inl ⟨rfl, h.notClosed, h.last_le.trans hen, h.opened, h.halfOpen⟩
  | arrive id =>
    rcases h.arrive cfg id with ⟨hno, heq⟩ | hyes
    · rw [heq]
      exact .inl ⟨hno, h⟩
    · exact .inr hyes
  | finish c r =>
    cases r with
    | success => exact absurd ⟨c, rfl⟩ he
    | failure => exact .inl ⟨rfl, h.failure c⟩
  | persisted saved => exact .inl ⟨rfl, h.notClosed, h.last_le, h.opened, h.halfOpen⟩
  | cancel c => exact .inl ⟨rfl, h.notClosed, h.last_le, h.opened, h.halfOpen⟩

/-- A run without a success. The induction carries `last` from one admission to the next. -/
theorem run (es : List Event) :
    ∀ {last : ℚ} {s s' : System}, Cooling last s → Run.exec (System.step cfg) s es = some s' →
      (∀ e ∈ es, ¬ IsSuccess e) →
      List.IsChain (fun t t' => t + cfg.recoveryTimeout ≤ t') (last :: admissions cfg s es) := by
  induction es with
  | nil =>
    intro last s s' _ _ _
    exact .singleton last
  | cons e es ih =>
    intro last s s' h hrun hno
    obtain ⟨s₁, hs₁, hrest⟩ := Run.exec_cons_eq_some hrun
    obtain ⟨he, hno⟩ := List.forall_mem_cons.mp hno
    have hnext : s.next cfg e = s₁ := (Run.guarded_eq_some.mp hs₁).2
    rw [admissions, hnext]
    rcases h.step hs₁ he with ⟨hrejected, h₁⟩ | ⟨hadmitted, hlate, h₁⟩
    · rw [hrejected]
      exact ih h₁ hrest hno
    · rw [hadmitted]
      exact List.isChain_cons_cons.mpr ⟨hlate, ih h₁ hrest hno⟩

end Cooling

/-- A tripped breaker spares its dependency. In every interleaving of callers, completions,
cancellations, saves and clock advances: when a call fails and leaves the breaker OPEN, then
until a call succeeds, this moment and the moments at which calls are admitted follow each
other at a distance of at least `recovery_timeout`. -/
theorem admissions_spaced (cfg : Settings) (monotonic wallclock : ℚ) (es es' : List Event)
    (s s₁ s' : System) (c : Call)
    (hrun : Run.exec (step cfg) (System.start monotonic wallclock) es = some s)
    (hfailure : step cfg s (.finish c .failure) = some s₁) (hopen : s₁.breaker.state = .opened)
    (hrun' : Run.exec (step cfg) s₁ es' = some s') (hno : ∀ e ∈ es', ¬ IsSuccess e) :
    List.IsChain (fun t t' => t + cfg.recoveryTimeout ≤ t')
      (s.monotonic :: admissions cfg s₁ es') := by
  obtain ⟨-, rfl⟩ := Run.guarded_eq_some.mp hfailure
  have hstamp := openedAt_of_failure (tripped_of_run hrun) hopen
  refine Cooling.run es' ⟨?_, le_rfl, fun _ => ?_, fun hs => ?_⟩ hrun' hno
  · rw [hopen]
    decide
  · exact hstamp.ge
  · rw [hopen] at hs
    cases hs

/-- A breaker that trips at the first failure and recovers after ten seconds. -/
def quickToTrip : Settings where
  failureThreshold := 1
  recoveryTimeout := 10
  name := "uploads"
  hasStore := false
  threshold_pos := Nat.one_pos
  timeout_nonneg := by decide

/-- Two rounds of an outage: calls that are rejected, and a trial that fails. -/
def outage : List Event :=
  [.arrive 1, .tick 10 10, .arrive 2, .arrive 3, .finish ⟨2, true⟩ .failure, .tick 19 19,
    .arrive 4, .tick 20 20, .arrive 5]

/-- In the outage two calls are admitted, at 10 and at 20. -/
theorem admissions_spaced_outage : ∃ s s₁ s',
    Run.exec (step quickToTrip) (System.start 0 0) [.arrive 0] = some s ∧
      step quickToTrip s (.finish ⟨0, false⟩ .failure) = some s₁ ∧
        Run.exec (step quickToTrip) s₁ outage = some s' ∧
          admissions quickToTrip s₁ outage = [10, 20] ∧
            List.IsChain (fun t t' => t + quickToTrip.recoveryTimeout ≤ t')
              (s.monotonic :: admissions quickToTrip s₁ outage) := by
  let s : System := (System.start 0 0).next quickToTrip (.arrive 0)
  let s₁ : System := s.next quickToTrip (.finish ⟨0, false⟩ .failure)
  have hrun : (Run.exec (step quickToTrip) s₁ outage).isSome := by decide +kernel
  obtain ⟨s', hs'⟩ := Option.isSome_iff_exists.mp hrun
  have hs : Run.exec (step quickToTrip) (System.start 0 0) [.arrive 0] = some s := by decide
  have hs₁ : step quickToTrip s (.finish ⟨0, false⟩ .failure) = some s₁ := by decide
  refine ⟨s, s₁, s', hs, hs₁, hs', by decide +kernel,
    admissions_spaced quickToTrip 0 0 _ outage s s₁ s' ⟨0, false⟩ hs hs₁ (by decide) hs' ?_⟩
  simp [outage, IsSuccess]

end EdgeSentinel.Proofs.Resilience
