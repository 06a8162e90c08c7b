import EdgeSentinel.Resilience.Backoff

/-!
# `EdgeSentinel.Resilience.Retry`: the attempts of an operation

`RetryPolicy.run` is `resilience/retry.py`, for an operation with values in `α` and exceptions
in `ε`. What the attempts do is a function of the attempt's number, and so are the draws of
the jitter. The callback `on_retry` and the sleep return.
-/

set_option autoImplicit false

namespace EdgeSentinel.Resilience

/-- A retry policy. `retryOn` says whether an exception is an instance of `retry_on`. -/
structure RetryPolicy (ε : Type) where
  maxAttempts : Nat
  backoff : Backoff
  retryOn : ε → Bool
  attempts_pos : 1 ≤ maxAttempts

/-- How an attempt ends. -/
inductive Attempt (α ε : Type) where
  | returned (value : α)
  | raised (exception : ε)
  /-- A `CancelledError`, which no `retry_on` catches. -/
  | cancelled
  deriving DecidableEq, Repr

/-- How `run` ends. -/
inductive RetryResult (α ε : Type) where
  | returned (value : α)
  | raised (exception : ε)
  | cancelled
  /-- An exception of `compute_delay`, in place of the operation's. -/
  | replaced (error : BackoffError)
  deriving DecidableEq, Repr

/-- What `on_retry` receives before the sleep. -/
structure RetryAttempt (ε : Type) where
  attempt : Nat
  delay : ℚ
  exception : ε
  deriving DecidableEq, Repr

/-- A call of `run`: how it ends, how often the operation was invoked, and the retries. -/
structure RetryRun (α ε : Type) where
  result : RetryResult α ε
  invocations : Nat := 1
  retries : List (RetryAttempt ε) := []
  deriving DecidableEq

namespace RetryPolicy

variable {α ε : Type} (p : RetryPolicy ε) (outcome : Nat → Attempt α ε) (draw : Nat → Draw)

/-- The loop of `run` from an attempt on, when `remaining` attempts are left after it. -/
def runFrom (remaining attempt : Nat) : RetryRun α ε :=
  match outcome attempt with
  | .returned value => { result := .returned value }
  | .cancelled => { result := .cancelled }
  | .raised e =>
    if !p.retryOn e then { result := .raised e }
    else
      match remaining with
      | 0 => { result := .raised e }
      | remaining + 1 =>
        match p.backoff.computeDelay attempt (draw attempt) with
        | .error err => { result := .replaced err }
        | .ok delay =>
          let rest := runFrom remaining (attempt + 1)
          { result := rest.result
            invocations := rest.invocations + 1
            retries := ⟨attempt, delay, e⟩ :: rest.retries }

/-- `run`. -/
def run : RetryRun α ε := p.runFrom outcome draw (p.maxAttempts - 1) 1

/-- The attempt raises an exception that is retried. -/
def Retried (attempt : Nat) : Prop := ∃ e, outcome attempt = .raised e ∧ p.retryOn e = true

/-- `run` gets to the delay after attempt 1025 of an exponential backoff. -/
def Overflows : Prop :=
  p.backoff.algorithm = .exponential ∧ 1025 < p.maxAttempts ∧
    ∀ k, 1 ≤ k → k ≤ 1025 → p.Retried outcome k

/-! ### When the operation's exception is replaced -/

variable {p outcome draw}

/-- An attempt that is not retried ends the run with its own outcome. -/
theorem runFrom_of_not_retried {remaining attempt : Nat} (h : ¬ p.Retried outcome attempt)
    (err : BackoffError) :
    (p.runFrom outcome draw remaining attempt).result ≠ .replaced err := by
  unfold runFrom
  cases hout : outcome attempt with
  | returned value => simp
  | cancelled => simp
  | raised e =>
    have hno : p.retryOn e = false := by
      by_contra hyes
      exact h ⟨e, hout, by simpa using hyes⟩
    simp [hno]

/-- The last attempt ends the run with its own outcome. -/
theorem runFrom_zero (attempt : Nat) (err : BackoffError) :
    (p.runFrom outcome draw 0 attempt).result ≠ .replaced err := by
  unfold runFrom
  cases outcome attempt with
  | returned value => simp
  | cancelled => simp
  | raised e => cases p.retryOn e <;> simp

/-- A retried attempt whose delay fits goes on to the next attempt. -/
theorem runFrom_of_fits {remaining attempt : Nat} (h : p.Retried outcome attempt)
    (hfits : p.backoff.Fits attempt) (hpos : 1 ≤ attempt) :
    (p.runFrom outcome draw (remaining + 1) attempt).result
      = (p.runFrom outcome draw remaining (attempt + 1)).result := by
  obtain ⟨e, hout, hretry⟩ := h
  obtain ⟨d, hd, -⟩ := p.backoff.computeDelay_of_fits hfits hpos (draw attempt)
  rw [runFrom]
  simp [hout, hretry, hd]

/-- A retried attempt whose delay overflows ends the run. -/
theorem runFrom_of_not_fits {remaining attempt : Nat} (h : p.Retried outcome attempt)
    (hfits : ¬ p.backoff.Fits attempt) :
    (p.runFrom outcome draw (remaining + 1) attempt).result = .replaced .overflowError := by
  obtain ⟨e, hout, hretry⟩ := h
  have herr := p.backoff.computeDelay_of_not_fits hfits (draw attempt)
  rw [runFrom]
  simp [hout, hretry, herr]

/-- A backoff that is not exponential never replaces the exception. -/
theorem runFrom_ne_replaced (halg : p.backoff.algorithm ≠ .exponential) (remaining : Nat) :
    ∀ attempt, 1 ≤ attempt → ∀ err,
      (p.runFrom outcome draw remaining attempt).result ≠ .replaced err := by
  induction remaining with
  | zero => exact fun attempt _ err => runFrom_zero attempt err
  | succ remaining ih =>
    intro attempt hpos err
    by_cases hretry : p.Retried outcome attempt
    · rw [runFrom_of_fits hretry (Or.inl halg) hpos]
      exact ih (attempt + 1) (by omega) err
    · exact runFrom_of_not_retried hretry err

/-- From an attempt up to 1025 on, the exception is replaced exactly when the run gets to the
delay after attempt 1025. The induction is on the attempts that are left. -/
theorem runFrom_replaced_iff (remaining : Nat) :
    ∀ attempt, 1 ≤ attempt → attempt ≤ 1025 →
      ((∃ err, (p.runFrom outcome draw remaining attempt).result = .replaced err) ↔
        p.backoff.algorithm = .exponential ∧ 1025 < attempt + remaining ∧
          ∀ k, attempt ≤ k → k ≤ 1025 → p.Retried outcome k) := by
  induction remaining with
  | zero =>
    intro attempt _ hle
    constructor
    · rintro ⟨err, herr⟩
      exact absurd herr (runFrom_zero attempt err)
    · rintro ⟨-, hlt, -⟩
      omega
  | succ remaining ih =>
    intro attempt hpos hle
    by_cases hretry : p.Retried outcome attempt
    · by_cases hfits : p.backoff.Fits attempt
      · rw [runFrom_of_fits hretry hfits hpos]
        by_cases hlast : attempt = 1025
        · -- It fits only when the backoff is not exponential: then it always does.
          have halg : p.backoff.algorithm ≠ .exponential :=
            hfits.resolve_right (by omega)
          constructor
          · rintro ⟨err, herr⟩
            exact absurd herr (runFrom_ne_replaced halg remaining (attempt + 1) (by omega) err)
          · rintro ⟨hexp, -, -⟩
            exact absurd hexp halg
        · rw [ih (attempt + 1) (by omega) (by omega)]
          have hsum : attempt + 1 + remaining = attempt + (remaining + 1) := by omega
          rw [hsum]
          constructor
          · rintro ⟨hexp, hlt, hall⟩
            refine ⟨hexp, hlt, fun k hk hk' => ?_⟩
            rcases Nat.eq_or_lt_of_le hk with rfl | hk
            · exact hretry
            · exact hall k hk hk'
          · rintro ⟨hexp, hlt, hall⟩
            exact ⟨hexp, hlt, fun k hk hk' => hall k (by omega) hk'⟩
      -- The delay after this attempt overflows, so this is attempt 1025.
      · rw [runFrom_of_not_fits hretry hfits]
        obtain ⟨hexp, hlt⟩ := not_or.mp hfits
        obtain rfl : attempt = 1025 := by omega
        constructor
        · intro _
          refine ⟨not_not.mp hexp, by omega, fun k hk hk' => ?_⟩
          obtain rfl : k = 1025 := by omega
          exact hretry
        · intro _
          exact ⟨_, rfl⟩
    · constructor
      · rintro ⟨err, herr⟩
        exact absurd herr (runFrom_of_not_retried hretry err)
      · rintro ⟨-, -, hall⟩
        exact absurd (hall attempt (le_refl _) hle) hretry

/-- `run` replaces the operation's exception exactly when it overflows. -/
theorem run_replaced_iff (p : RetryPolicy ε) (outcome : Nat → Attempt α ε) (draw : Nat → Draw) :
    (∃ err, (p.run outcome draw).result = .replaced err) ↔ p.Overflows outcome := by
  have hsum : 1 + (p.maxAttempts - 1) = p.maxAttempts := by
    have := p.attempts_pos
    omega
  rw [run, runFrom_replaced_iff (p.maxAttempts - 1) 1 (by omega) (by omega), hsum]
  rfl

end RetryPolicy

end EdgeSentinel.Resilience
