import EdgeSentinel.Library.Run
import Mathlib.Algebra.Order.Ring.Rat

/-!
# `EdgeSentinel.Resilience.CircuitBreaker`: the breaker and its concurrent callers

`CircuitBreaker` and its three updates `beforeCall`, `onSuccess` and `onFailure` are
`resilience/circuit_breaker.py`. Each update runs under the breaker's lock and has no
suspension point before `_persist`, so it is one step.

`System` is a breaker with its callers. A call is in `calls` from its admission until its
function has ended and `_on_success` or `_on_failure` has run. With a store, the call then
holds the lock in `saving` until `_persist` ends, and no other caller can enter. A call may
be cancelled while its function is awaited, while it waits for the lock, or while it
saves: `call()` catches `Exception`, so no update runs then.

Every list of events that can happen is an interleaving of callers, clock advances and
cancellations, and every interleaving is such a list.
-/

set_option autoImplicit false

namespace EdgeSentinel.Resilience

/-- States of a circuit breaker: CLOSED, OPEN, HALF_OPEN. -/
inductive CircuitState where
  | closed
  | opened
  | halfOpen
  deriving DecidableEq, Repr

/-- The parameters of a breaker that its constructor accepts. -/
structure Settings where
  failureThreshold : Nat
  recoveryTimeout : ℚ
  name : String
  /-- Whether a `store` was given. -/
  hasStore : Bool
  threshold_pos : 1 ≤ failureThreshold
  timeout_nonneg : 0 ≤ recoveryTimeout

/-- The mutable fields of a breaker. -/
structure CircuitBreaker where
  state : CircuitState
  failureCount : Nat
  openedAtMonotonic : ℚ
  openedAtWallclock : Option ℚ
  halfOpenInFlight : Bool
  deriving DecidableEq

/-- `CircuitBreakerOpenError`: the call was rejected. -/
structure CircuitBreakerOpenError where
  name : String
  deriving DecidableEq

/-- The record that `_persist` saves. -/
structure BreakerRecord where
  state : CircuitState
  failureCount : Nat
  openedAt : Option ℚ
  deriving DecidableEq

namespace CircuitBreaker

/-- A fresh breaker. -/
def fresh : CircuitBreaker := ⟨.closed, 0, 0, none, false⟩

/-- `_before_call` at the monotonic reading `monotonic`. -/
def beforeCall (cfg : Settings) (monotonic : ℚ) (cb : CircuitBreaker) :
    Except CircuitBreakerOpenError CircuitBreaker :=
  match cb.state with
  | .closed => .ok cb
  | .opened =>
    if monotonic - cb.openedAtMonotonic < cfg.recoveryTimeout then .error ⟨cfg.name⟩
    else .ok { cb with state := .halfOpen, halfOpenInFlight := true }
  | .halfOpen =>
    if cb.halfOpenInFlight then .error ⟨cfg.name⟩
    else .ok { cb with halfOpenInFlight := true }

/-- `_on_success`. -/
def onSuccess (_ : CircuitBreaker) : CircuitBreaker :=
  { state := .closed
    failureCount := 0
    openedAtMonotonic := 0
    openedAtWallclock := none
    halfOpenInFlight := false }

/-- `_on_failure` at the readings of the two clocks. -/
def onFailure (cfg : Settings) (monotonic wallclock : ℚ) (cb : CircuitBreaker) :
    CircuitBreaker :=
  if cb.state = .halfOpen ∨ cfg.failureThreshold ≤ cb.failureCount + 1 then
    { state := .opened
      failureCount := cb.failureCount + 1
      openedAtMonotonic := monotonic
      openedAtWallclock := some wallclock
      halfOpenInFlight := false }
  else { cb with failureCount := cb.failureCount + 1, halfOpenInFlight := false }

/-- What `_persist` saves. -/
def record (cb : CircuitBreaker) : BreakerRecord :=
  ⟨cb.state, cb.failureCount, cb.openedAtWallclock⟩

end CircuitBreaker

/-- A call that was admitted. It is a trial when `_before_call` found the breaker OPEN or
HALF_OPEN. -/
structure Call where
  id : Nat
  trial : Bool
  deriving DecidableEq, Repr

/-- How the function of a call ends: it returns, or it raises an `Exception`. -/
inductive CallResult where
  | success
  | failure
  deriving DecidableEq, Repr

/-- A breaker with its clocks and its callers. -/
structure System where
  breaker : CircuitBreaker
  monotonic : ℚ
  wallclock : ℚ
  /-- The monotonic reading at the last move to OPEN. -/
  trippedAt : Option ℚ
  /-- Admitted calls whose outcome the breaker has not seen. -/
  calls : List Call
  /-- The call that awaits `_persist` and holds the lock. -/
  saving : Option Call
  stored : Option BreakerRecord
  deriving DecidableEq

/-- What happens next among the callers of a breaker. -/
inductive Event where
  /-- The clocks are read later. The wall clock may jump. -/
  | tick (monotonic wallclock : ℚ)
  /-- A new caller runs `_before_call`. -/
  | arrive (id : Nat)
  /-- The function of a call has ended, and `_on_success` or `_on_failure` runs. -/
  | finish (c : Call) (r : CallResult)
  /-- `_persist` ends, with the record saved or with an error. -/
  | persisted (saved : Bool)
  /-- A `CancelledError` ends the call. -/
  | cancel (c : Call)
  deriving DecidableEq

namespace System

/-- A fresh breaker without callers. -/
def start (monotonic wallclock : ℚ) : System :=
  ⟨.fresh, monotonic, wallclock, none, [], none, none⟩

/-- When an event can happen. -/
def Enabled (s : System) : Event → Prop
  | .tick monotonic _ => s.monotonic ≤ monotonic
  | .arrive id => s.saving = none ∧ ∀ c ∈ s.calls, c.id ≠ id
  | .finish c _ => s.saving = none ∧ c ∈ s.calls
  | .persisted _ => s.saving ≠ none
  | .cancel c => c ∈ s.calls ∨ s.saving = some c

instance (s : System) : ∀ e, Decidable (s.Enabled e)
  | .tick monotonic _ => inferInstanceAs (Decidable (s.monotonic ≤ monotonic))
  | .arrive id => inferInstanceAs (Decidable (s.saving = none ∧ ∀ c ∈ s.calls, c.id ≠ id))
  | .finish c _ => inferInstanceAs (Decidable (s.saving = none ∧ c ∈ s.calls))
  | .persisted _ => inferInstanceAs (Decidable (s.saving ≠ none))
  | .cancel c => inferInstanceAs (Decidable (c ∈ s.calls ∨ s.saving = some c))

/-- The breaker after the outcome of a call. -/
def settle (cfg : Settings) (s : System) : CallResult → CircuitBreaker
  | .success => s.breaker.onSuccess
  | .failure => s.breaker.onFailure cfg s.monotonic s.wallclock

/-- What an event does. -/
def next (cfg : Settings) (s : System) : Event → System
  | .tick monotonic wallclock => { s with monotonic := monotonic, wallclock := wallclock }
  | .arrive id =>
    match s.breaker.beforeCall cfg s.monotonic with
    | .ok breaker =>
      { s with
        breaker := breaker
        calls := ⟨id, decide (s.breaker.state ≠ .closed)⟩ :: s.calls }
    | .error _ => s
  | .finish c r =>
    { s with
      breaker := s.settle cfg r
      trippedAt :=
        if s.breaker.state ≠ .opened ∧ (s.settle cfg r).state = .opened then some s.monotonic
        else s.trippedAt
      calls := s.calls.filter (· ≠ c)
      saving := if cfg.hasStore then some c else none }
  | .persisted saved =>
    { s with
      saving := none
      stored := if saved then some s.breaker.record else s.stored }
  | .cancel c =>
    { s with
      calls := s.calls.filter (· ≠ c)
      saving := if s.saving = some c then none else s.saving }

/-- One step of the callers of a breaker. -/
def step (cfg : Settings) : System → Event → Option System :=
  Run.guarded Enabled (next cfg)

/-- The trial calls that were admitted and have not finished. -/
def trials (s : System) : List Call :=
  (s.calls ++ s.saving.toList).filter (·.trial)

end System

/-! ### What each update does -/

namespace CircuitBreaker

variable {cfg : Settings} {monotonic wallclock : ℚ} {cb cb' : CircuitBreaker}

/-- `beforeCall` admits in three ways: while CLOSED, out of OPEN once the timeout has
elapsed, and while HALF_OPEN with no trial flagged. -/
theorem beforeCall_cases (h : cb.beforeCall cfg monotonic = .ok cb') :
    (cb.state = .closed ∧ cb' = cb) ∨
    (cb.state = .opened ∧ cb.openedAtMonotonic + cfg.recoveryTimeout ≤ monotonic ∧
      cb' = { cb with state := .halfOpen, halfOpenInFlight := true }) ∨
    (cb.state = .halfOpen ∧ cb.halfOpenInFlight = false ∧
      cb' = { cb with halfOpenInFlight := true }) := by
  unfold beforeCall at h
  split at h
  · rename_i hs
    exact Or.inl ⟨hs, (Except.ok.inj h).symm⟩
  · rename_i hs
    split at h
    · cases h
    · rename_i hlate
      refine Or.inr (Or.inl ⟨hs, ?_, (Except.ok.inj h).symm⟩)
      rw [not_lt] at hlate
      rw [add_comm]
      exact le_sub_iff_add_le.mp hlate
  · rename_i hs
    split at h
    · cases h
    · rename_i hflag
      exact Or.inr (Or.inr ⟨hs, by simpa using hflag, (Except.ok.inj h).symm⟩)

/-- `onFailure` trips the breaker out of HALF_OPEN and at the threshold. -/
theorem onFailure_of_trip (h : cb.state = .halfOpen ∨ cfg.failureThreshold ≤ cb.failureCount + 1) :
    cb.onFailure cfg monotonic wallclock
      = ⟨.opened, cb.failureCount + 1, monotonic, some wallclock, false⟩ := by
  rw [onFailure, if_pos h]

/-- `onFailure` otherwise only counts, and lowers the flag. -/
theorem onFailure_of_count
    (h : ¬ (cb.state = .halfOpen ∨ cfg.failureThreshold ≤ cb.failureCount + 1)) :
    cb.onFailure cfg monotonic wallclock
      = { cb with failureCount := cb.failureCount + 1, halfOpenInFlight := false } := by
  rw [onFailure, if_neg h]

end CircuitBreaker

namespace System

variable {cfg : Settings}

theorem next_arrive_of_ok {s : System} {cb : CircuitBreaker}
    (h : s.breaker.beforeCall cfg s.monotonic = .ok cb) (id : Nat) :
    s.next cfg (.arrive id) = { s with
      breaker := cb
      calls := ⟨id, decide (s.breaker.state ≠ .closed)⟩ :: s.calls } := by
  simp only [next, h]

theorem next_arrive_of_error {s : System} {e : CircuitBreakerOpenError}
    (h : s.breaker.beforeCall cfg s.monotonic = .error e) (id : Nat) :
    s.next cfg (.arrive id) = s := by
  simp only [next, h]

/-- An arriving call is rejected, or it is admitted in one of the three ways. -/
theorem arrive_cases (cfg : Settings) (s : System) (id : Nat) :
    s.next cfg (.arrive id) = s ∨
    (s.breaker.state = .closed ∧
      s.next cfg (.arrive id) = { s with calls := ⟨id, false⟩ :: s.calls }) ∨
    (s.breaker.state = .opened ∧
      s.breaker.openedAtMonotonic + cfg.recoveryTimeout ≤ s.monotonic ∧
      s.next cfg (.arrive id) = { s with
        breaker := { s.breaker with state := .halfOpen, halfOpenInFlight := true }
        calls := ⟨id, true⟩ :: s.calls }) ∨
    (s.breaker.state = .halfOpen ∧ s.breaker.halfOpenInFlight = false ∧
      s.next cfg (.arrive id) = { s with
        breaker := { s.breaker with halfOpenInFlight := true }
        calls := ⟨id, true⟩ :: s.calls }) := by
  cases hcb : s.breaker.beforeCall cfg s.monotonic with
  | error e => exact Or.inl (next_arrive_of_error hcb id)
  | ok cb =>
    have hnext := next_arrive_of_ok hcb id
    rcases CircuitBreaker.beforeCall_cases hcb with ⟨hs, rfl⟩ | ⟨hs, hlate, rfl⟩ | ⟨hs, hf, rfl⟩
    · exact Or.inr (Or.inl ⟨hs, by rw [hnext]; simp [hs]⟩)
    · exact Or.inr (Or.inr (Or.inl ⟨hs, hlate, by rw [hnext]; simp [hs]⟩))
    · exact Or.inr (Or.inr (Or.inr ⟨hs, hf, by rw [hnext]; simp [hs]⟩))

/-- Every outcome of a call lowers the in-flight flag, whichever call it is. -/
theorem settle_halfOpenInFlight (s : System) (r : CallResult) :
    (s.settle cfg r).halfOpenInFlight = false := by
  cases r with
  | success => rfl
  | failure =>
    show (s.breaker.onFailure cfg _ _).halfOpenInFlight = false
    unfold CircuitBreaker.onFailure
    split <;> rfl

end System

end EdgeSentinel.Resilience
