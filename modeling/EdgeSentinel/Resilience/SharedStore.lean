import EdgeSentinel.Persistence.SavedStates
import EdgeSentinel.Resilience.Restore
import Mathlib.Logic.Function.Basic

/-!
# `EdgeSentinel.Resilience.SharedStore`: the breakers of one database

An application has any number of breakers, and the store of all of them is one database. `_persist`
saves the record of a breaker under its name, which is "default" when the application gives none,
and `restore` loads what was saved under that name last. `Breakers.step` is `Life.step` of each
breaker over the table that they share. The processes restart, and with them all breakers.

As in `Life.step`, a breaker has one call at a time, and a save that ends is in the table, as is
a load that `restore` makes. The calls of different breakers interleave at every await.
-/

set_option autoImplicit false

namespace EdgeSentinel.Resilience

open EdgeSentinel.Persistence

/-- An event of one breaker. -/
def LifeEvent.isOwn : LifeEvent → Bool
  | .elapse _ => false
  | .restart _ _ => false
  | _ => true

/-- The breakers of an application, and the table `circuit_breaker_state`. -/
structure Breakers (ι : Type) where
  systems : ι → System
  table : List (BreakerRow BreakerRecord) := []

/-- What happens next. -/
inductive BreakersEvent (ι : Type) where
  /-- Time passes. -/
  | elapse (d : ℚ)
  /-- An event of the breaker `i`. -/
  | own (i : ι) (e : LifeEvent)
  /-- The process dies, and a new one restores every breaker. -/
  | restart (downtime monotonic : ℚ)

namespace Breakers

variable {ι : Type} [DecidableEq ι] (cfg : ι → Settings)

/-- New breakers, and an empty table. -/
def start (monotonic wallclock : ℚ) : Breakers ι := ⟨fun _ => .start monotonic wallclock, []⟩

/-- What a breaker finds in its store. -/
def loaded (c : Settings) (table : List (BreakerRow BreakerRecord)) : Option BreakerRecord :=
  if c.hasStore then loadCircuitBreakerState c.name table else none

/-- When an event can happen. -/
def Enabled (s : Breakers ι) : BreakersEvent ι → Prop
  | .elapse d => 0 ≤ d
  | .own i e => e.isOwn = true ∧ Life.Enabled (s.systems i) e
  | .restart downtime _ => 0 ≤ downtime

instance (s : Breakers ι) : ∀ e, Decidable (s.Enabled e)
  | .elapse d => inferInstanceAs (Decidable (0 ≤ d))
  | .own i e => inferInstanceAs (Decidable (e.isOwn = true ∧ Life.Enabled (s.systems i) e))
  | .restart downtime _ => inferInstanceAs (Decidable (0 ≤ downtime))

/-- What an event does. -/
def next (s : Breakers ι) : BreakersEvent ι → Breakers ι
  | .elapse d => { s with systems := fun i => Life.next (cfg i) (s.systems i) (.elapse d) }
  | .own i e =>
    let system := Life.next (cfg i) (s.systems i) e
    { systems := Function.update s.systems i system
      table :=
        if e = .saved then saveCircuitBreakerState (cfg i).name system.breaker.record s.table
        else s.table }
  | .restart downtime monotonic =>
    { s with
      systems := fun i => Life.restarted (cfg i)
        { s.systems i with stored := loaded (cfg i) s.table } downtime monotonic }

/-- The step function. -/
def step : Breakers ι → BreakersEvent ι → Option (Breakers ι) := Run.guarded Enabled (next cfg)

/-- What the breaker `i` sees of an event. -/
def seenBy (i : ι) : BreakersEvent ι → Option LifeEvent
  | .elapse d => some (.elapse d)
  | .own j e => if j = i then some e else none
  | .restart downtime monotonic => some (.restart downtime monotonic)

variable {cfg}

theorem systems_own_self (s : Breakers ι) (i : ι) (e : LifeEvent) :
    (next cfg s (.own i e)).systems i = Life.next (cfg i) (s.systems i) e :=
  Function.update_self _ _ _

/-- The other breakers do not move. -/
theorem systems_own_of_ne (s : Breakers ι) {i j : ι} (h : j ≠ i) (e : LifeEvent) :
    (next cfg s (.own i e)).systems j = s.systems j :=
  Function.update_of_ne h _ _

end Breakers

end EdgeSentinel.Resilience
