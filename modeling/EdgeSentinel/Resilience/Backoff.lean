import Mathlib.Algebra.Order.Ring.Rat
import Mathlib.Tactic.Linarith

/-!
# `EdgeSentinel.Resilience.Backoff`: the delay before the next attempt

`computeDelay` is `resilience/backoff.py`. Its numbers are doubles. The model keeps one thing
of them: a power of two that does not fit a double raises `OverflowError`. All other
arithmetic is exact.

`rng.uniform(0, base)` is `0 + (base - 0) * rng.random()`, and a draw is the value of
`rng.random()`.
-/

set_option autoImplicit false

namespace EdgeSentinel.Resilience

/-- `BackoffAlgorithm`. -/
inductive BackoffAlgorithm where
  | fixed
  | linear
  | exponential
  deriving DecidableEq, Repr

/-- What `compute_delay` raises. -/
inductive BackoffError where
  /-- `ValueError`: the attempt is not at least 1. -/
  | valueError (attempt : Nat)
  /-- `OverflowError`: the power does not fit a double. -/
  | overflowError
  deriving DecidableEq, Repr

/-- The parameters of `compute_delay` that a policy or a supervisor holds. -/
structure Backoff where
  algorithm : BackoffAlgorithm
  initialDelay : ℚ
  maxDelay : ℚ
  jitter : Bool
  initial_nonneg : 0 ≤ initialDelay
  initial_le_max : initialDelay ≤ maxDelay

/-- A value of `rng.random()`. -/
abbrev Draw : Type := { r : ℚ // 0 ≤ r ∧ r < 1 }

/-- `2.0 ** k`. The largest finite double is below `2 ^ 1024`. -/
def twoPow (k : Nat) : Except BackoffError ℚ :=
  if 1024 ≤ k then .error .overflowError else .ok (2 ^ k)

/-- `rng.uniform(0, base)`. -/
def uniform (base : ℚ) (r : Draw) : ℚ := 0 + (base - 0) * r.val

namespace Backoff

variable (b : Backoff)

/-- `_fixed`, `_linear` and `_exponential`. -/
def baseDelay (attempt : Nat) : Except BackoffError ℚ :=
  match b.algorithm with
  | .fixed => .ok (min b.initialDelay b.maxDelay)
  | .linear => .ok (min (b.initialDelay * attempt) b.maxDelay)
  -- The cap comes after the power.
  | .exponential => do
    let power ← twoPow (attempt - 1)
    return min (b.initialDelay * power) b.maxDelay

/-- `compute_delay`. -/
def computeDelay (attempt : Nat) (r : Draw) : Except BackoffError ℚ := do
  if attempt < 1 then throw (.valueError attempt)
  let base ← b.baseDelay attempt
  if !b.jitter then return base
  if base ≤ 0 then return 0
  return uniform base r

/-- The power of the attempt fits a double. -/
def Fits (attempt : Nat) : Prop := b.algorithm ≠ .exponential ∨ attempt ≤ 1024

instance (attempt : Nat) : Decidable (b.Fits attempt) :=
  inferInstanceAs (Decidable (b.algorithm ≠ .exponential ∨ attempt ≤ 1024))

/-! ### The delay is within its bounds -/

theorem uniform_mem {base : ℚ} (h : 0 ≤ base) (r : Draw) :
    0 ≤ uniform base r ∧ uniform base r ≤ base := by
  obtain ⟨r, hr, hr'⟩ := r
  have hle : base * r ≤ base * 1 := mul_le_mul_of_nonneg_left (le_of_lt hr') h
  have hnonneg : 0 ≤ base * r := mul_nonneg h hr
  show 0 ≤ 0 + (base - 0) * r ∧ 0 + (base - 0) * r ≤ base
  rw [zero_add, sub_zero]
  exact ⟨hnonneg, by linarith⟩

/-- A base delay that fits lies between 0 and the cap. -/
theorem baseDelay_of_fits {attempt : Nat} (h : b.Fits attempt) (hpos : 1 ≤ attempt) :
    ∃ base, b.baseDelay attempt = .ok base ∧ 0 ≤ base ∧ base ≤ b.maxDelay := by
  have hmax : 0 ≤ b.maxDelay := le_trans b.initial_nonneg b.initial_le_max
  unfold baseDelay
  cases halg : b.algorithm with
  | fixed =>
    exact ⟨_, rfl, le_min b.initial_nonneg hmax, min_le_right _ _⟩
  | linear =>
    have hmul : 0 ≤ b.initialDelay * (attempt : ℚ) :=
      mul_nonneg b.initial_nonneg (Nat.cast_nonneg attempt)
    exact ⟨_, rfl, le_min hmul hmax, min_le_right _ _⟩
  | exponential =>
    have hle : attempt ≤ 1024 := h.resolve_left fun hne => hne halg
    have hpow : twoPow (attempt - 1) = .ok (2 ^ (attempt - 1)) := by
      rw [twoPow, if_neg (by omega)]
    have hmul : 0 ≤ b.initialDelay * 2 ^ (attempt - 1) :=
      mul_nonneg b.initial_nonneg (pow_nonneg (by norm_num) _)
    exact ⟨min (b.initialDelay * 2 ^ (attempt - 1)) b.maxDelay, by simp [hpow],
      le_min hmul hmax, min_le_right _ _⟩

/-- The exponential delay of a later attempt overflows. -/
theorem baseDelay_of_not_fits {attempt : Nat} (h : ¬ b.Fits attempt) :
    b.baseDelay attempt = .error .overflowError := by
  obtain ⟨halg, hlt⟩ := not_or.mp h
  have hpow : twoPow (attempt - 1) = .error .overflowError := by
    rw [twoPow, if_pos (by omega)]
  simp only [baseDelay, not_not.mp halg, hpow]
  rfl

/-- The delay of an attempt that fits lies between 0 and the cap. -/
theorem computeDelay_of_fits {attempt : Nat} (h : b.Fits attempt) (hpos : 1 ≤ attempt)
    (r : Draw) : ∃ d, b.computeDelay attempt r = .ok d ∧ 0 ≤ d ∧ d ≤ b.maxDelay := by
  obtain ⟨base, hbase, hnonneg, hle⟩ := b.baseDelay_of_fits h hpos
  have hnot : ¬ attempt < 1 := by omega
  simp only [computeDelay, hnot, hbase, if_false]
  cases b.jitter with
  | false => exact ⟨base, rfl, hnonneg, hle⟩
  | true =>
    show ∃ d, (if base ≤ 0 then Except.ok 0 else Except.ok (uniform base r)) = Except.ok d ∧ _
    by_cases hzero : base ≤ 0
    · exact ⟨0, if_pos hzero, le_refl 0, le_trans hnonneg hle⟩
    · obtain ⟨hlow, hhigh⟩ := uniform_mem hnonneg r
      exact ⟨uniform base r, if_neg hzero, hlow, le_trans hhigh hle⟩

/-- `compute_delay` raises for a later attempt. -/
theorem computeDelay_of_not_fits {attempt : Nat} (h : ¬ b.Fits attempt) (r : Draw) :
    b.computeDelay attempt r = .error .overflowError := by
  have hnot : ¬ attempt < 1 := by
    have := (not_or.mp h).2
    omega
  simp only [computeDelay, hnot, b.baseDelay_of_not_fits h, if_false]
  rfl

end Backoff

end EdgeSentinel.Resilience
