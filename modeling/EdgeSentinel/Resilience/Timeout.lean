import EdgeSentinel.Resilience.Reliable

/-!
# `EdgeSentinel.Resilience.Timeout`: a bound on the time of an attempt

`withTimeout` is `with_timeout` of `resilience/timeout.py`. An `Invocation` is one awaiting of
the function: how it ends when nothing interrupts it, and what comes of it under a deadline.
`isTimeoutError` says whether an exception of the function is an instance of `TimeoutError`.

The task of the call is not cancelled from outside.
-/

set_option autoImplicit false

namespace EdgeSentinel.Resilience

/-- The exceptions of an attempt. An exception stands for the object that is raised. -/
inductive AttemptError (ε : Type) where
  | function (exception : ε)
  /-- `OperationTimeoutError("operation timed out after {seconds}s")`. The cause is the
  function's own exception, or the `TimeoutError` of the deadline (`none`). -/
  | operationTimeout (seconds : ℚ) (cause : Option ε)
  deriving DecidableEq, Repr

/-- What a deadline does to an invocation. -/
inductive Deadline (ε α : Type) where
  | notReached
  /-- The function is cancelled. It ends with the `CancelledError` (`none`), or in a way of its
  own. -/
  | reached (ends : Option (Except ε α))
  deriving DecidableEq

/-- One awaiting of the function. -/
structure Invocation (ε α : Type) where
  outcome : Except ε α
  /-- What a timeout of so many seconds does to it. -/
  deadline : ℚ → Deadline ε α

namespace Invocation

variable {ε α : Type} (i : Invocation ε α)

/-- The block under `asyncio.timeout(seconds)`. The exception `none` is the `TimeoutError` that
the context manager puts in place of its `CancelledError`. -/
def underTimeout (seconds : ℚ) : Except (Option ε) α :=
  match i.deadline seconds with
  | .notReached => i.outcome.mapError some
  | .reached none => .error none
  | .reached (some ends) => ends.mapError some

/-- `with_timeout`. -/
def withTimeout (isTimeoutError : ε → Bool) : Option ℚ → Except (AttemptError ε) α
  | none => i.outcome.mapError .function
  | some seconds =>
    match i.underTimeout seconds with
    | .ok value => .ok value
    | .error none => .error (.operationTimeout seconds none)
    | .error (some e) =>
      -- `except TimeoutError` does not ask where the exception comes from.
      if isTimeoutError e then .error (.operationTimeout seconds (some e))
      else .error (.function e)

/-- The function raises a `TimeoutError` of its own. -/
def RaisesTimeout (isTimeoutError : ε → Bool) (e : ε) : Prop :=
  i.outcome = .error e ∧ isTimeoutError e = true

variable {i} {isTimeoutError : ε → Bool} {seconds : ℚ}

theorem withTimeout_none_of_error {e : ε} (h : i.outcome = .error e) :
    i.withTimeout isTimeoutError none = .error (.function e) := by
  rw [withTimeout, h]
  rfl

/-- A `TimeoutError` of the function is taken for one of the deadline. -/
theorem withTimeout_of_raisesTimeout {e : ε} (hdeadline : i.deadline seconds = .notReached)
    (h : i.RaisesTimeout isTimeoutError e) :
    i.withTimeout isTimeoutError (some seconds) = .error (.operationTimeout seconds (some e)) := by
  have hunder : i.underTimeout seconds = .error (some e) := by
    rw [underTimeout, hdeadline, h.1]
    rfl
  simp only [withTimeout, hunder, h.2, if_true]

/-- Every other outcome passes through. -/
theorem withTimeout_of_not_raisesTimeout (hdeadline : i.deadline seconds = .notReached)
    (h : ∀ e, ¬ i.RaisesTimeout isTimeoutError e) :
    i.withTimeout isTimeoutError (some seconds) = i.withTimeout isTimeoutError none := by
  cases hout : i.outcome with
  | ok value =>
    have hunder : i.underTimeout seconds = .ok value := by
      rw [underTimeout, hdeadline, hout]
      rfl
    simp only [withTimeout, hunder, hout]
    rfl
  | error e =>
    have hunder : i.underTimeout seconds = .error (some e) := by
      rw [underTimeout, hdeadline, hout]
      rfl
    have hno : isTimeoutError e = false := by
      by_contra hyes
      exact h e ⟨hout, by simpa using hyes⟩
    rw [withTimeout_none_of_error hout]
    simp [withTimeout, hunder, hno]

end Invocation

/-- What a decorated call meets whose attempts are these invocations under `timeout`. -/
def Surroundings.timed {ε τ α : Type} (w : Surroundings (AttemptError ε) τ α)
    (isTimeoutError : ε → Bool) (invocation : Nat → Invocation ε α) (timeout : Option ℚ) :
    Surroundings (AttemptError ε) τ α :=
  { w with outcome := fun n => (invocation n).withTimeout isTimeoutError timeout }

end EdgeSentinel.Resilience
