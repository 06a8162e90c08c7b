import EdgeSentinel.Resilience.CircuitBreaker

/-!
# `EdgeSentinel.Proofs.Resilience.FailureCount`: the count and the threshold

`_failure_count` is the number of failed completions since the last successful one, whatever
the order in which the calls were admitted and completed (`counts_of_run`). The count stays
below the threshold while the breaker is CLOSED. So a row of `failure_threshold` failures trips
the breaker, also when some of its calls complete in OPEN or in HALF_OPEN.
-/

set_option autoImplicit false

namespace EdgeSentinel.Proofs.Resilience

open EdgeSentinel.Resilience
open EdgeSentinel.Resilience.System (step arrive_cases)

variable {cfg : Settings}

/-- The outcome that a completion reports to the breaker. -/
def completion? : Event → Option CallResult
  | .finish _ r => some r
  | .tick _ _ | .arrive _ | .persisted _ | .cancel _ => none

/-- The outcomes of the calls that have completed, oldest first. -/
def completions (es : List Event) : List CallResult := es.filterMap completion?

theorem completions_snoc (es : List Event) (e : Event) :
    completions (es ++ [e]) = completions es ++ (completion? e).toList := by
  rw [completions, List.filterMap_append]
  cases e <;> rfl

/-- The number of failures at the end of a list of outcomes. -/
def failuresSinceSuccess (rs : List CallResult) : Nat :=
  (rs.reverse.takeWhile (· = .failure)).length

theorem failuresSinceSuccess_success (rs : List CallResult) :
    failuresSinceSuccess (rs ++ [.success]) = 0 := by
  simp [failuresSinceSuccess]

theorem failuresSinceSuccess_failure (rs : List CallResult) :
    failuresSinceSuccess (rs ++ [.failure]) = failuresSinceSuccess rs + 1 := by
  simp [failuresSinceSuccess]

/-- What the breaker knows of the completions. -/
structure Counts (cfg : Settings) (rs : List CallResult) (cb : CircuitBreaker) : Prop where
  count : cb.failureCount = failuresSinceSuccess rs
  belowThreshold : cb.state = .closed → cb.failureCount < cfg.failureThreshold
  trips : cfg.failureThreshold ≤ failuresSinceSuccess rs → cb.state ≠ .closed

namespace Counts

variable {rs : List CallResult} {cb : CircuitBreaker}

/-- The last field follows from the others. -/
theorem of_count (count : cb.failureCount = failuresSinceSuccess rs)
    (belowThreshold : cb.state = .closed → cb.failureCount < cfg.failureThreshold) :
    Counts cfg rs cb where
  count := count
  belowThreshold := belowThreshold
  trips hle hclosed := by
    have hlt := belowThreshold hclosed
    omega

theorem fresh (cfg : Settings) : Counts cfg [] CircuitBreaker.fresh :=
  .of_count rfl fun _ => cfg.threshold_pos

/-- An admission does not touch the count, and it does not lead to CLOSED. -/
theorem of_admission {cb' : CircuitBreaker} (h : Counts cfg rs cb)
    (hcount : cb'.failureCount = cb.failureCount) (hstate : cb'.state = .halfOpen) :
    Counts cfg rs cb' := by
  refine .of_count (hcount.trans h.count) fun hclosed => ?_
  rw [hstate] at hclosed
  cases hclosed

theorem success (cb : CircuitBreaker) : Counts cfg (rs ++ [.success]) cb.onSuccess := by
  refine .of_count ?_ fun _ => cfg.threshold_pos
  rw [failuresSinceSuccess_success]
  rfl

/-- A failure counts in every state. It trips the breaker, or the count is below the
threshold. -/
theorem failure (h : Counts cfg rs cb) (monotonic wallclock : ℚ) :
    Counts cfg (rs ++ [.failure]) (cb.onFailure cfg monotonic wallclock) := by
  have hcount := failuresSinceSuccess_failure rs
  rw [← h.count] at hcount
  by_cases htrip : cb.state = .halfOpen ∨ cfg.failureThreshold ≤ cb.failureCount + 1
  · rw [CircuitBreaker.onFailure_of_trip htrip]
    exact .of_count hcount.symm nofun
  · rw [CircuitBreaker.onFailure_of_count htrip]
    refine .of_count hcount.symm fun _ => ?_
    show cb.failureCount + 1 < cfg.failureThreshold
    exact Nat.lt_of_not_le (not_or.mp htrip).2

/-- One step of the callers. -/
theorem step {past : List Event} {s s' : System} {e : Event}
    (h : Counts cfg (completions past) s.breaker) (hstep : step cfg s e = some s') :
    Counts cfg (completions (past ++ [e])) s'.breaker := by
  obtain ⟨-, rfl⟩ := Run.guarded_eq_some.mp hstep
  rw [completions_snoc]
  cases e with
  | tick monotonic wallclock => exact (List.append_nil (completions past)).symm ▸ h
  | persisted saved => exact (List.append_nil (completions past)).symm ▸ h
  | cancel c => exact (List.append_nil (completions past)).symm ▸ h
  | arrive id =>
    show Counts cfg (completions past ++ []) (s.next cfg (.arrive id)).breaker
    rw [List.append_nil]
    rcases arrive_cases cfg s id with heq | ⟨-, heq⟩ | ⟨-, -, heq⟩ | ⟨hs, -, heq⟩
    · rw [heq]
      exact h
    · rw [heq]
      exact h
    · rw [heq]
      exact h.of_admission rfl rfl
    · rw [heq]
      exact h.of_admission rfl hs
  | finish c r =>
    cases r with
    | success => exact success s.breaker
    | failure => exact h.failure s.monotonic s.wallclock

end Counts

/-- After every run of a fresh breaker the count is the number of failures since the last
success, and the breaker has tripped when this number has come to the threshold. -/
theorem counts_of_run (cfg : Settings) (monotonic wallclock : ℚ) (es : List Event) (s : System)
    (hrun : Run.exec (step cfg) (System.start monotonic wallclock) es = some s) :
    Counts cfg (completions es) s.breaker := by
  have hfresh : Counts cfg (completions []) (System.start monotonic wallclock).breaker :=
    Counts.fresh cfg
  exact Run.exec_history_of_step (fun past s => Counts cfg (completions past) s.breaker)
    (fun _ _ _ _ h hstep => h.step hstep) hfresh hrun

/-- Four calls are admitted while CLOSED. The last one fails when the breaker has tripped. -/
def fourFailures : List Event :=
  [.arrive 0, .arrive 1, .arrive 2, .arrive 3, .finish ⟨1, false⟩ .failure,
    .finish ⟨0, false⟩ .failure, .finish ⟨3, false⟩ .failure, .tick 3 3,
    .finish ⟨2, false⟩ .failure]

/-- The breaker trips at the third failure and counts the fourth. -/
theorem counts_of_run_fourFailures :
    ∃ (cfg : Settings) (s : System), cfg.failureThreshold = 3 ∧
      Run.exec (step cfg) (System.start 0 0) fourFailures = some s ∧
      Counts cfg (completions fourFailures) s.breaker ∧ s.breaker.failureCount = 4 := by
  have hrun : (Run.exec (step ⟨3, 10, "uploads", false, by decide, by decide⟩)
      (System.start 0 0) fourFailures).map (fun s => s.breaker.failureCount) = some 4 := by decide
  obtain ⟨s, hs, hcount⟩ := Option.map_eq_some_iff.mp hrun
  exact ⟨_, s, rfl, hs, counts_of_run _ 0 0 fourFailures s hs, hcount⟩

end EdgeSentinel.Proofs.Resilience
