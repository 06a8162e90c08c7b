import EdgeSentinel.Process.Watchdog
import Mathlib.Data.List.Chain

/-!
# `EdgeSentinel.Process.Rounds`: the calls of a watchdog, one after the other

`Does` is a call of a method of a `Watchdog` that runs to its end before the next call: the
steps of a `check_once` are its own turns and resumptions, and what other parts of the runtime
do to the state. A `Done` call is kept with the events that it published and the names that it
returned.

The rest reads a history of such calls. `registration` is the registration of a name that is in
force, with the calls since then. It has the last heartbeat of the target (`lastSeen`) and what
the events have said about it (`notices`). `Reports` is what a check owes to the history before
it. Nothing here reads the flag of a target.
-/

set_option autoImplicit false

namespace EdgeSentinel.Process

open EdgeSentinel.Core

/-- A call around a watchdog. -/
inductive WatchdogCall where
  | register (name : String) (timeout now : ℚ)
  | unregister (name : String)
  | heartbeat (name : String) (now : ℚ)
  | checkOnce (now : ℚ)
  /-- Another part of the runtime moves the state. -/
  | moved (current : RuntimeState)
  deriving DecidableEq, Repr

/-- A call that has returned. -/
structure Done (τ : Type) where
  call : WatchdogCall
  /-- The events that it has published. -/
  events : List (Event τ) := []
  /-- The names that `check_once` has returned. -/
  returned : List String := []
  deriving DecidableEq, Repr

/-! ### One call -/

namespace Watchdog

variable {τ : Type}

/-- A step of the check `id`, or one that does not touch the watchdog. -/
def OwnStep (id : Nat) : WatchdogStep τ → Prop
  | .turn id' _ _ | .resume id' => id' = id
  | .moved _ => True
  | .register _ _ _ _ | .unregister _ | .heartbeat _ _ | .check _ _ => False

instance (id : Nat) : ∀ e : WatchdogStep τ, Decidable (OwnStep id e)
  | .turn id' _ _ | .resume id' => inferInstanceAs (Decidable (id' = id))
  | .moved _ => isTrue trivial
  | .register _ _ _ _ | .unregister _ | .heartbeat _ _ | .check _ _ =>
    inferInstanceAs (Decidable False)

variable (cfg : WatchdogSettings)

/-- The steps of a call lead from `w` to `w'`. `check_once` runs until it returns, and no other
call comes in between. -/
def Runs (w : Watchdog τ) (d : Done τ) (w' : Watchdog τ) : Prop :=
  match d.call with
  | .register name timeout now =>
    d.returned = [] ∧ ∃ compacts, step cfg w (.register name timeout now compacts) = some w'
  | .unregister name => d.returned = [] ∧ step cfg w (.unregister name) = some w'
  | .heartbeat name now => d.returned = [] ∧ step cfg w (.heartbeat name now) = some w'
  | .moved current => d.returned = [] ∧ step cfg w (.moved current) = some w'
  | .checkOnce now => ∃ id steps, (∀ e ∈ steps, OwnStep id e) ∧
      Run.exec (step cfg) w (.check id now :: steps) = some w' ∧
      ∃ c ∈ w'.checks, c.id = id ∧ c.point = .returned ∧ c.newlyStale = d.returned

/-- A call from its beginning to its end, with what it publishes. -/
def Does (w : Watchdog τ) (d : Done τ) (w' : Watchdog τ) : Prop :=
  Runs cfg w d w' ∧ w'.published = w.published ++ d.events

end Watchdog

/-! ### What a history tells -/

/-- What an event says about a target. -/
inductive Notice where
  | stale
  | recovered
  deriving DecidableEq, Repr

/-- What the event says about the target `name`. -/
def notice? {τ : Type} (name : String) (e : Event τ) : Option Notice :=
  if e.metadata.lookup "name" = some (.str name) then
    if e.type = "watchdog_target_stale" then some .stale
    else if e.type = "watchdog_target_recovered" then some .recovered
    else none
  else none

/-- What the events say about the target `name`, in order. -/
def notices {τ : Type} (name : String) (events : List (Event τ)) : List Notice :=
  events.filterMap (notice? name)

/-- The registration of a name. -/
structure Registration (τ : Type) where
  timeout : ℚ
  registeredAt : ℚ
  /-- The calls since then. -/
  since : List (Done τ) := []

namespace Registration

variable {τ : Type}

/-- The heartbeats that the call gives to the target `name`. -/
def beat? (name : String) (d : Done τ) : Option ℚ :=
  match d.call with
  | .heartbeat name' now => if name' = name then some now else none
  | _ => none

/-- When the target was last heard of: its last heartbeat, or its registration. -/
def lastSeen (name : String) (r : Registration τ) : ℚ :=
  (r.since.filterMap (beat? name)).getLast?.getD r.registeredAt

/-- What the events have said about the target since it was registered. -/
def notices (name : String) (r : Registration τ) : List Notice :=
  Process.notices name (r.since.flatMap (·.events))

/-- The target is overdue for a heartbeat. -/
def Overdue (name : String) (now : ℚ) (r : Registration τ) : Prop :=
  r.timeout < now - r.lastSeen name

/-- One more call. A `timeout` that is not positive is rejected. -/
def after (name : String) (r : Option (Registration τ)) (d : Done τ) :
    Option (Registration τ) :=
  let kept := r.map fun r => { r with since := r.since ++ [d] }
  match d.call with
  | .register name' timeout now =>
    if name' = name ∧ 0 < timeout then some { timeout := timeout, registeredAt := now } else kept
  | .unregister name' => if name' = name then none else kept
  | _ => kept

end Registration

/-- The registration of the name that is in force after the calls. -/
def registration {τ : Type} (name : String) (past : List (Done τ)) : Option (Registration τ) :=
  past.foldl (Registration.after name) none

/-- One more call. A name that is registered already keeps its place. -/
def registeredAfter {τ : Type} (names : List String) (d : Done τ) : List String :=
  match d.call with
  | .register name timeout _ =>
    if 0 < timeout ∧ name ∉ names then names ++ [name] else names
  | .unregister name => names.filter (· ≠ name)
  | _ => names

/-- The names that are registered after the calls, in the order of their registration. -/
def registered {τ : Type} (past : List (Done τ)) : List String := past.foldl registeredAfter []

/-- The notices alternate, and the first one is `stale`. -/
def Alternate (ks : List Notice) : Prop :=
  (∀ k ∈ ks.head?, k = .stale) ∧ ks.IsChain (· ≠ ·)

/-- What a check at `now` owes to the calls before it. -/
structure Reports {τ : Type} (past : List (Done τ)) (now : ℚ) (d : Done τ) : Prop where
  stale : ∀ name, ∀ r ∈ registration name past,
    (.stale ∈ notices name d.events ↔
      r.Overdue name now ∧ (r.notices name).getLast? ≠ some .stale)
  recovered : ∀ name, ∀ r ∈ registration name past,
    (.recovered ∈ notices name d.events ↔
      ¬ r.Overdue name now ∧ (r.notices name).getLast? = some .stale)
  /-- One event about a target at most, and none about a name that is not registered. -/
  once : ∀ name, (notices name d.events).length ≤ 1
  unregistered : ∀ name, registration name past = none → notices name d.events = []
  /-- Each event is about a target. -/
  about : ∀ e ∈ d.events, ∃ name, notice? name e ≠ none
  returned : d.returned = (registered past).filter fun name => .stale ∈ notices name d.events

/-- The check leaves the other targets alone. It changes at most the flag of a target, and only
when it publishes an event about it. -/
def Spares {τ : Type} (w : Watchdog τ) (d : Done τ) (w' : Watchdog τ) : Prop :=
  w'.names = w.names ∧ ∀ x ∈ Slots.live w.watches, ∃ y ∈ Slots.live w'.watches,
    y.name = x.name ∧ y.timeout = x.timeout ∧ y.lastSeen = x.lastSeen ∧
      (notices x.name d.events = [] → y = x)

end EdgeSentinel.Process
