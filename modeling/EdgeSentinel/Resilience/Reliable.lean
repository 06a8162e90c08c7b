import EdgeSentinel.Core.Events
import EdgeSentinel.Resilience.Calls
import EdgeSentinel.Resilience.Retry

/-!
# `EdgeSentinel.Resilience.Reliable`: a decorated call

`wrapper` is the function that `build_reliable_decorator` of `resilience/policy.py` puts
around `func`: the breaker around the attempts of the retry policy, and the events. An
`attempt` is one invocation of `func` under `with_timeout`, and its outcome is the outcome of
`with_timeout`.

A `Course` is what the call has done so far. `Surroundings` is what it meets. All of it is
indexed by the number of invocations so far: the clocks, the draws of the jitter, the
timestamps, and what other callers have meanwhile done to a shared breaker.

`Reporting` is what the events of a call meet. No two events of a call are the same, so the event
says which publication it is. An exception of `publish`, or of the `str` of an exception that an
event names, is not caught where the event is reported.
-/

set_option autoImplicit false

namespace EdgeSentinel.Resilience

open Async
open EdgeSentinel.Core (Severity MetadataValue)

/-- What a decorated call does. `κ` are the arguments of its caller. -/
inductive Act (κ τ : Type) where
  | invoked (arguments : κ)
  | slept (delay : ℚ)
  | published (event : Core.Event τ)

namespace Act

variable {κ τ : Type}

def invoked? : Act κ τ → Option κ
  | .invoked arguments => some arguments
  | _ => none

def slept? : Act κ τ → Option ℚ
  | .slept delay => some delay
  | _ => none

def published? : Act κ τ → Option (Core.Event τ)
  | .published event => some event
  | _ => none

end Act

/-- How far a decorated call has come. -/
structure Course (κ τ : Type) where
  invocations : Nat
  acts : List (Act κ τ)

/-- What `build_reliable_decorator` has made of its arguments. -/
structure ReliableSettings (ε : Type) where
  opName : String
  component : String
  /-- Whether `events` were given. -/
  hasEvents : Bool
  retry : RetryPolicy (ResilienceError ε)
  breaker : Option Settings
  no_store : ∀ cfg ∈ breaker, cfg.hasStore = false

/-- What a decorated call meets, by the number of its invocations so far. -/
structure Surroundings (ε τ α : Type) where
  outcome : Nat → Except ε α
  monotonic : Nat → ℚ
  wallclock : Nat → ℚ
  /-- What other callers have done to the breaker by the end of an invocation. -/
  others : Nat → CircuitBreaker → CircuitBreaker
  draw : Nat → Draw
  /-- `datetime.now(UTC)` of an event. -/
  now : Nat → τ
  /-- `str` of an exception. -/
  str : ResilienceError ε → String

/-- What the events of a decorated call meet. By default their reports do not raise. -/
structure Reporting (ε τ : Type) where
  /-- What `str` raises, where it does. -/
  unprintable : ε → Option ε := fun _ => none
  audience : Core.Event τ → Core.Audience ε := fun _ => {}

/-- What `str` raises for an exception of the call. The exceptions of the package and of `gather`
have a text. -/
def Reporting.raisedByStr {ε τ : Type} (r : Reporting ε τ) : ResilienceError ε → Option ε
  | .function e => r.unprintable e
  | .report (.str e) => r.unprintable e
  | .report (.publish (.handler e)) => r.unprintable e
  | _ => none

/-- A procedure of a decorated call. -/
abbrev ReliableProc (ε κ τ α : Type) : Type := ResilientProc ε (Course κ τ) α

/-- `compute_delay`, which raises its exceptions. -/
def Backoff.delay {ε ρ : Type} (b : Backoff) (attempt : Nat) (r : Draw) : ResilientProc ε ρ ℚ :=
  Proc.exit (match b.computeDelay attempt r with
    | .ok delay => .returned delay
    | .error e => .raised (.backoff e))

/-- The loop of `RetryPolicy.run` from an attempt on, when `remaining` attempts are left after
it. The exceptions of `on_retry` and `sleep` are not caught. -/
def RetryPolicy.loop {ε ρ α : Type} (p : RetryPolicy (ResilienceError ε))
    (func : ResilientProc ε ρ α) (onRetry : RetryAttempt (ResilienceError ε) → ResilientProc ε ρ Unit)
    (sleep : ℚ → ResilientProc ε ρ Unit) (draw : Nat → Draw) :
    (remaining attempt : Nat) → ResilientProc ε ρ α
  | remaining, attempt => Proc.tryExcept func fun e =>
    if !p.retryOn e then Proc.raise e
    else
      match remaining with
      | 0 => Proc.raise e
      | remaining + 1 => do
        let delay ← p.backoff.delay attempt (draw attempt)
        onRetry ⟨attempt, delay, e⟩
        sleep delay
        p.loop func onRetry sleep draw remaining (attempt + 1)

namespace Surroundings

variable {ε κ τ α : Type} (w : Surroundings ε τ α)

/-- The breaker `cb` after so many invocations, as the other callers leave it. -/
def breakerAfter (cb : CircuitBreaker) : Nat → CircuitBreaker
  | 0 => cb
  | n + 1 => w.others (n + 1) (breakerAfter cb n)

/-- Where the call stands after so many invocations. -/
def bench (cb : CircuitBreaker) (n : Nat) (acts : List (Act κ τ)) : Bench (Course κ τ) :=
  ⟨w.breakerAfter cb n, w.monotonic n, w.wallclock n, ⟨n, acts⟩⟩

/-- How an attempt ends. -/
def ends (n : Nat) : Outcome (ResilienceError ε) α :=
  match w.outcome n with
  | .ok value => .returned value
  | .error e => .raised (.function e)

end Surroundings

namespace ReliableSettings

variable {ε κ τ α : Type} (s : ReliableSettings ε) (w : Surroundings ε τ α)

def act (a : Act κ τ) : ReliableProc ε κ τ Unit :=
  Proc.modify fun b => { b with host := { b.host with acts := b.host.acts ++ [a] } }

/-- An event of the call. -/
def event (type : String) (severity : Severity) (metadata : List (String × MetadataValue))
    (invocations : Nat) : Core.Event τ where
  type := type
  component := s.component
  severity := severity
  timestamp := w.now invocations
  metadata := ("operation", .str s.opName) :: metadata

/-- The `retry_attempt` event. -/
def retryAttempt (info : RetryAttempt (ResilienceError ε)) : Nat → Core.Event τ :=
  s.event w "retry_attempt" .warning [("attempt", .num info.attempt), ("delay", .num info.delay),
    ("error", .str (w.str info.exception))]

/-- The `operation_failed` event. -/
def operationFailed (e : ResilienceError ε) : Nat → Core.Event τ :=
  s.event w "operation_failed" .error [("error", .str (w.str e))]

/-- The `operation_succeeded` event. -/
def operationSucceeded : Nat → Core.Event τ := s.event w "operation_succeeded" .info []

/-- `events.publish`, with the construction of its event. The event names an exception, or none. -/
def publish (r : Reporting ε τ) (named : Option (ResilienceError ε)) (event : Nat → Core.Event τ) :
    ReliableProc ε κ τ Unit := do
  let b ← Proc.read
  if s.hasEvents then
    match named.bind r.raisedByStr with
    | some e => Proc.raise (.report (.str e))
    | none =>
      let event := event b.host.invocations
      act (.published event)
      match (r.audience event).raised event with
      | some e => Proc.raise (.report (.publish e))
      | none => pure ()

/-- `attempt`: one invocation of the function. -/
def attempt (arguments : κ) : ReliableProc ε κ τ α := do
  Proc.modify fun b =>
    let n := b.host.invocations + 1
    ⟨w.others n b.breaker, w.monotonic n, w.wallclock n,
      ⟨n, b.host.acts ++ [.invoked arguments]⟩⟩
  let b ← Proc.read
  Proc.exit (w.ends b.host.invocations)

/-- `on_retry`. -/
def onRetry (r : Reporting ε τ) (info : RetryAttempt (ResilienceError ε)) :
    ReliableProc ε κ τ Unit :=
  s.publish r info.exception (s.retryAttempt w info)

/-- `sleep`. -/
def sleep (delay : ℚ) : ReliableProc ε κ τ Unit := act (.slept delay)

/-- `run_with_retry`. -/
def runWithRetry (arguments : κ) (r : Reporting ε τ) : ReliableProc ε κ τ α :=
  s.retry.loop (attempt w arguments) (s.onRetry w r) sleep w.draw (s.retry.maxAttempts - 1) 1

/-- The attempts, behind the breaker when there is one. -/
def guarded (arguments : κ) (r : Reporting ε τ) : ReliableProc ε κ τ α :=
  match s.breaker with
  | none => s.runWithRetry w arguments r
  | some cfg => Resilient.call cfg (s.runWithRetry w arguments r)

/-- `wrapper`. -/
def wrapper (arguments : κ) (r : Reporting ε τ := {}) : ReliableProc ε κ τ α := do
  let result ← Proc.tryExcept (s.guarded w arguments r) fun e => do
    s.publish r e (s.operationFailed w e)
    Proc.raise e
  s.publish r none (s.operationSucceeded w)
  return result

/-- What the breaker makes of the call: it is rejected, or admitted with the breaker as it is
from then on. -/
def admission (reading : ℚ) (cb : CircuitBreaker) :
    Except CircuitBreakerOpenError CircuitBreaker :=
  match s.breaker with
  | none => .ok cb
  | some cfg => cb.beforeCall cfg reading

/-- The breaker with the outcome of the call recorded. -/
def recorded (monotonic wallclock : ℚ) (cb : CircuitBreaker) : Outcome (ResilienceError ε) α →
    CircuitBreaker
  | .returned _ => if s.breaker.isSome then cb.onSuccess else cb
  | .raised _ =>
    match s.breaker with
    | none => cb
    | some cfg => cb.onFailure cfg monotonic wallclock
  | .cancelled => cb

/-! ### How the parts run -/

variable {w} {cb : CircuitBreaker} {n : Nat} {acts : List (Act κ τ)}

/-- The events that are published where `event` is. -/
def told (s : ReliableSettings ε) (event : Core.Event τ) : List (Act κ τ) :=
  if s.hasEvents then [.published event] else []

theorem run_sleep (delay : ℚ) :
    (sleep delay : ReliableProc ε κ τ Unit).run (w.bench cb n acts)
      = (.returned (), w.bench cb n (acts ++ [.slept delay])) := rfl

/-- An attempt ends with its outcome, one invocation later. -/
theorem run_attempt (arguments : κ) :
    (attempt w arguments : ReliableProc ε κ τ α).run (w.bench cb n acts)
      = (w.ends (n + 1), w.bench cb (n + 1) (acts ++ [.invoked arguments])) := rfl

end ReliableSettings

end EdgeSentinel.Resilience
