import EdgeSentinel.Resilience.CircuitBreaker

/-!
# `EdgeSentinel.Resilience.Restore`: a breaker over several processes

`restore` is the method of `resilience/circuit_breaker.py`. A breaker with a store lives
through crashes: each new process constructs a breaker with the same settings and restores
it. `System.restarted` is that, from any point of the old process, and `Life.step` is a
breaker with callers that come one at a time. Saves and loads are faithful: a save that the
process lives to see the end of is in the store. The two clocks of a process advance
together. A new process has a new monotonic clock, and the wall clock goes on.

`Original` is the same breaker in a process that never crashes. Where the other one
restarts, it forgets the interrupted calls, and its clocks go on. A call is interrupted when
the process dies before its outcome is saved, or when it was cancelled.
-/

set_option autoImplicit false

namespace EdgeSentinel.Resilience

namespace CircuitBreaker

/-- `restore`, with the record that the store has for the breaker's name. -/
def restore (cfg : Settings) (monotonic wallclock : ℚ) (loaded : Option BreakerRecord)
    (cb : CircuitBreaker) : CircuitBreaker :=
  if !cfg.hasStore then cb
  else
    match loaded with
    | none => cb
    | some ⟨.opened, failureCount, some openedAt⟩ =>
      -- The recovery window may have passed while the process was down.
      if cfg.recoveryTimeout ≤ wallclock - openedAt then
        { cb with failureCount := failureCount, state := .halfOpen }
      else
        { cb with
          failureCount := failureCount
          state := .opened
          openedAtMonotonic := monotonic - (wallclock - openedAt)
          openedAtWallclock := some openedAt }
    | some ⟨_, failureCount, _⟩ => { cb with failureCount := failureCount }

/-- A call at the reading `monotonic` would be admitted. -/
def admits (cfg : Settings) (monotonic : ℚ) (cb : CircuitBreaker) : Bool :=
  (cb.beforeCall cfg monotonic).isOk

end CircuitBreaker

/-- What happens next to a breaker that lives through restarts. -/
inductive LifeEvent where
  /-- Time passes, for both clocks. -/
  | elapse (d : ℚ)
  /-- The next caller runs `_before_call`. -/
  | arrive (id : Nat)
  /-- The function of the call has ended, and `_on_success` or `_on_failure` runs. -/
  | finish (c : Call) (r : CallResult)
  /-- `_persist` ends. -/
  | saved
  /-- A `CancelledError` ends the call while its function is awaited. -/
  | cancel (c : Call)
  /-- The process dies. After the downtime a new one, whose monotonic clock stands at
  `monotonic`, restores the breaker. -/
  | restart (downtime monotonic : ℚ)
  deriving DecidableEq

namespace Life

/-- When an event can happen: the next call waits for the end of the one before. -/
def Enabled (s : System) : LifeEvent → Prop
  | .elapse d => 0 ≤ d
  | .arrive _ => s.calls = [] ∧ s.saving = none
  | .finish c _ => s.saving = none ∧ c ∈ s.calls
  | .saved => s.saving ≠ none
  | .cancel c => c ∈ s.calls
  | .restart downtime _ => 0 ≤ downtime

instance (s : System) : ∀ e, Decidable (Enabled s e)
  | .elapse d => inferInstanceAs (Decidable (0 ≤ d))
  | .arrive _ => inferInstanceAs (Decidable (s.calls = [] ∧ s.saving = none))
  | .finish c _ => inferInstanceAs (Decidable (s.saving = none ∧ c ∈ s.calls))
  | .saved => inferInstanceAs (Decidable (s.saving ≠ none))
  | .cancel c => inferInstanceAs (Decidable (c ∈ s.calls))
  | .restart downtime _ => inferInstanceAs (Decidable (0 ≤ downtime))

/-- What an event other than a restart does, within a process. -/
def within (cfg : Settings) (s : System) : LifeEvent → System
  | .elapse d => s.next cfg (.tick (s.monotonic + d) (s.wallclock + d))
  | .arrive id => s.next cfg (.arrive id)
  | .finish c r => s.next cfg (.finish c r)
  | .saved => s.next cfg (.persisted true)
  | .cancel c => s.next cfg (.cancel c)
  | .restart _ _ => s

/-- The new process. Only the store is left of the old one. -/
def restarted (cfg : Settings) (s : System) (downtime monotonic : ℚ) : System :=
  { System.start monotonic (s.wallclock + downtime) with
    breaker := CircuitBreaker.fresh.restore cfg monotonic (s.wallclock + downtime) s.stored
    stored := s.stored }

/-- What an event does. -/
def next (cfg : Settings) (s : System) : LifeEvent → System
  | .restart downtime monotonic => restarted cfg s downtime monotonic
  | e => within cfg s e

/-- The step function. -/
def step (cfg : Settings) : System → LifeEvent → Option System :=
  Run.guarded Enabled (next cfg)

end Life

/-- A breaker whose process does not crash. `settled` is the breaker without the calls
whose outcome was never saved. -/
structure Original where
  system : System
  settled : CircuitBreaker
  deriving DecidableEq

namespace Original

def start (monotonic wallclock : ℚ) : Original := ⟨.start monotonic wallclock, .fresh⟩

/-- What an event does. At a restart the interrupted calls are forgotten. -/
def next (cfg : Settings) (o : Original) : LifeEvent → Original
  | .restart downtime _ =>
    { o with
      system := { o.system with
        breaker := o.settled
        calls := []
        saving := none
        monotonic := o.system.monotonic + downtime
        wallclock := o.system.wallclock + downtime } }
  | .saved => ⟨Life.within cfg o.system .saved, o.system.breaker⟩
  | e => { o with system := Life.within cfg o.system e }

/-- The step function. -/
def step (cfg : Settings) : Original → LifeEvent → Option Original :=
  Run.guarded (fun o => Life.Enabled o.system) (next cfg)

end Original

end EdgeSentinel.Resilience
