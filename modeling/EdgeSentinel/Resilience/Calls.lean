import EdgeSentinel.Core.EventBus
import EdgeSentinel.Library.Proc
import EdgeSentinel.Resilience.Backoff
import EdgeSentinel.Resilience.CircuitBreaker

/-!
# `EdgeSentinel.Resilience.Calls`: `call` from its beginning to its end

`Resilient.call` is the method `call` of `resilience/circuit_breaker.py` as a procedure. It
works on a `Bench`: the breaker, the clocks that the breaker reads, and a `host` for whatever
else the function works on. The function is a procedure over the same bench, so the clocks may
advance while it is awaited.

`serve` makes calls one after the other. Only their functions take time. Saving to a store
takes no part here: it changes nothing in the breaker.
-/

set_option autoImplicit false

namespace EdgeSentinel.Resilience

open Async

/-- The exceptions of a resilient call. `function` is one of the function itself. -/
inductive ResilienceError (ε : Type) where
  | circuitOpen (error : CircuitBreakerOpenError)
  | backoff (error : BackoffError)
  | function (exception : ε)
  | report (error : Core.ReportError ε)
  deriving DecidableEq

/-- What the procedures of a resilient call work on. -/
structure Bench (ρ : Type) where
  breaker : CircuitBreaker
  monotonic : ℚ
  wallclock : ℚ
  host : ρ

/-- A procedure of a resilient call. -/
abbrev ResilientProc (ε ρ α : Type) : Type := Proc (ResilienceError ε) (Bench ρ) α

namespace Resilient

variable {ε ρ α : Type} (cfg : Settings)

/-- `_before_call`. -/
def beforeCall : ResilientProc ε ρ Unit := ⟨fun b =>
  match b.breaker.beforeCall cfg b.monotonic with
  | .ok breaker => (.returned (), { b with breaker := breaker })
  | .error e => (.raised (.circuitOpen e), b)⟩

/-- `_on_success`. -/
def onSuccess : ResilientProc ε ρ Unit :=
  Proc.modify fun b => { b with breaker := b.breaker.onSuccess }

/-- `_on_failure`. -/
def onFailure : ResilientProc ε ρ Unit :=
  Proc.modify fun b => { b with breaker := b.breaker.onFailure cfg b.monotonic b.wallclock }

/-- `call`. -/
def call (func : ResilientProc ε ρ α) : ResilientProc ε ρ α := do
  beforeCall cfg
  let result ← Proc.tryExcept func fun e => do
    onFailure cfg
    Proc.raise e
  onSuccess
  return result

variable {cfg} {func : ResilientProc ε ρ α} {b b' : Bench ρ} {cb : CircuitBreaker}

/-- A rejected call does not invoke the function, and changes nothing. -/
theorem run_call_of_rejected {e : CircuitBreakerOpenError}
    (h : b.breaker.beforeCall cfg b.monotonic = .error e) :
    (call cfg func).run b = (.raised (.circuitOpen e), b) := by
  have hbefore : (beforeCall (ε := ε) cfg).run b = (.raised (.circuitOpen e), b) := by
    simp only [beforeCall, h]
  unfold call
  exact Proc.run_bind_of_raised hbefore _

/-- An admitted call begins with the function. -/
theorem run_call_of_admitted (h : b.breaker.beforeCall cfg b.monotonic = .ok cb) :
    (call cfg func).run b = (do
      let result ← Proc.tryExcept func fun e => do
        onFailure cfg
        Proc.raise e
      onSuccess
      return result : ResilientProc ε ρ α).run { b with breaker := cb } := by
  have hbefore : (beforeCall (ε := ε) cfg).run b = (.returned (), { b with breaker := cb }) := by
    simp only [beforeCall, h]
  unfold call
  exact Proc.run_bind_of_returned hbefore _

/-- A value is returned after `_on_success`. -/
theorem run_call_of_returned (h : b.breaker.beforeCall cfg b.monotonic = .ok cb) {value : α}
    (hfunc : func.run { b with breaker := cb } = (.returned value, b')) :
    (call cfg func).run b
      = (.returned value, { b' with breaker := b'.breaker.onSuccess }) := by
  rw [run_call_of_admitted h,
    Proc.run_bind_of_returned (Proc.run_tryExcept_of_returned hfunc _)]
  rfl

/-- An exception is raised again after `_on_failure`. -/
theorem run_call_of_raised (h : b.breaker.beforeCall cfg b.monotonic = .ok cb)
    {e : ResilienceError ε} (hfunc : func.run { b with breaker := cb } = (.raised e, b')) :
    (call cfg func).run b = (.raised e,
      { b' with breaker := b'.breaker.onFailure cfg b'.monotonic b'.wallclock }) := by
  rw [run_call_of_admitted h]
  refine Proc.run_bind_of_raised ?_ _
  rw [Proc.run_tryExcept_of_raised hfunc]
  rfl

end Resilient

/-! ### Calls one after the other -/

/-- A call of a sequence: the reading at which it arrives, the readings of the two clocks when
its function ends, and how the function ends. -/
structure TimedCall (ε α : Type) where
  arrival : ℚ
  completion : ℚ
  wallclock : ℚ
  outcome : Except ε α

/-- What is seen of a call. -/
structure Served (ε α : Type) where
  before : CircuitBreaker
  /-- The function was invoked. -/
  invoked : Bool
  ends : Outcome (ResilienceError ε) α
  after : CircuitBreaker

namespace TimedCall

variable {ε α : Type} (c : TimedCall ε α)

/-- The function of the call. The host notes that it was invoked. -/
def func : ResilientProc ε Bool α := do
  Proc.modify fun b => ⟨b.breaker, c.completion, c.wallclock, true⟩
  Proc.exit (match c.outcome with
    | .ok value => .returned value
    | .error e => .raised (.function e))

/-- Make the call. -/
def serve (cfg : Settings) (breaker : CircuitBreaker) : Served ε α :=
  let ended := (Resilient.call cfg c.func).run ⟨breaker, c.arrival, c.wallclock, false⟩
  ⟨breaker, ended.2.host, ended.1, ended.2.breaker⟩

end TimedCall

/-- Make the calls one after the other. -/
def serve {ε α : Type} (cfg : Settings) (breaker : CircuitBreaker) :
    List (TimedCall ε α) → List (Served ε α)
  | [] => []
  | c :: calls =>
    let served := c.serve cfg breaker
    served :: serve cfg served.after calls

end EdgeSentinel.Resilience
