import EdgeSentinel.Monitoring.Fleet

/-!
# `EdgeSentinel.Monitoring.Solo`: a runtime with one monitor, from its start on

The only subsystem of the runtime is one monitor, registered before `start`. `start` enters
INITIALIZING, awaits the initial poll, and enters HEALTHY. Other calls of `check_once` may
overlap, before `start` returns and after.

The checks of a poll touch nothing that is shared, so a poll begins here when they are over. Its
publications meet handlers that return awaitables (`Answer.awaitables`), so they do not raise. A
poll that raises inside `start` ends it, and the runtime is FAILED. Only the monitor and the
lifecycle move the state.
-/

set_option autoImplicit false

namespace EdgeSentinel.Monitoring

open EdgeSentinel.Core

/-- The polls of a monitor with the attributes `α`, part by part. -/
structure Routine (α β τ : Type) where
  /-- The attributes before the first poll. -/
  initial : α
  turn : τ → Answer → RuntimeState → α → Option β → Turn α β τ
  /-- The part of a poll ends with an exception. -/
  raises : Answer → Option β → Bool

section
variable {τ : Type}

/-- A check that raises counts as a layer that fails. -/
def NetworkMonitor.routine (m : NetworkMonitor) :
    Routine (Option NetworkStatus) NetworkPoll τ where
  initial := none
  turn now a state status poll := (m.turn now a state status poll).met a.audience
  raises _ _ := false

/-- `usage_check` (`metrics_check`) raises at the beginning of a poll or after an action. -/
def PressureMonitor.routine {σ : Type} (p : PressureMonitor σ τ) (reading : Answer → Option σ) :
    Routine (Gauge σ) PressurePoll τ where
  initial := {}
  turn now a state g poll := (p.turn now (reading a) state g poll).met a.audience
  raises a
    | none | some (.acting _) => (reading a).isNone
    | some _ => false

def StorageMonitor.routine (m : StorageMonitor) :
    Routine (Gauge StorageStatus) PressurePoll τ :=
  m.pressure.routine Answer.usage

def MetricsMonitor.routine (m : MetricsMonitor) :
    Routine (Gauge HardwareStatus) PressurePoll τ :=
  m.pressure.routine Answer.metrics

end

/-- How far the runtime is. -/
inductive Phase where
  | created
  /-- `start` is in progress. The number is the one of the initial poll, once it has begun. -/
  | starting (initial : Option Nat)
  /-- The initial poll has raised, and `start` is in progress. -/
  | failing
  /-- `start` has raised. -/
  | failed
  | started
  | stopping
  | stopped
  deriving DecidableEq, Repr

/-- `start` is in progress. -/
def Phase.inStart : Phase → Bool
  | starting _ | failing => true
  | _ => false

/-- A poll that is going on, at an await. -/
structure Ongoing (β : Type) where
  id : Nat
  point : β
  deriving DecidableEq, Repr

/-- A runtime with one monitor. -/
structure Solo (α β τ : Type) where
  current : RuntimeState := .booting
  phase : Phase := .created
  attributes : α
  polls : List (Ongoing β) := []
  published : List (Event τ) := []

/-- What happens next. -/
inductive SoloStep (τ : Type) where
  | start
  /-- The poll inside `start`, up to its first await. -/
  | initialPoll (id : Nat) (now : τ) (a : Answer)
  /-- Another poll, up to its first await. -/
  | poll (id : Nat) (now : τ) (a : Answer)
  | resume (id : Nat) (now : τ) (a : Answer)
  /-- The end of `start`. -/
  | boot
  /-- The end of a `start` whose recovery or initial poll has raised. -/
  | bootFails
  | stop
  | stopped

namespace Solo

variable {α β τ : Type} (r : Routine α β τ)

/-- The runtime before its start. -/
def new : Solo α β τ := { attributes := r.initial }

/-- The numbers of the polls that are going on. -/
def ids (w : Solo α β τ) : List Nat := w.polls.map (·.id)

/-- The initial poll has returned. -/
def initialized (w : Solo α β τ) : Bool :=
  match w.phase with
  | .starting (some id) => id ∉ w.ids
  | _ => false

/-- The poll `id` makes its next part. `point` is the await at which it stands. -/
def advance (w : Solo α β τ) (id : Nat) (now : τ) (a : Answer) (point : Option β) :
    Solo α β τ :=
  let t := r.turn now a w.current w.attributes point
  { current := t.current
    phase := if r.raises a point ∧ w.phase = .starting (some id) then .failing else w.phase
    attributes := t.attributes
    polls := w.polls.filter (·.id ≠ id) ++ (t.poll.map fun point => ⟨id, point⟩).toList
    published := w.published ++ t.published }

/-- The end of `start`. The move to HEALTHY is refused when the runtime has FAILED. -/
def boot (w : Solo α β τ) : Solo α β τ :=
  let current := StateMachine.ask w.current .healthy
  { w with
    current := current
    phase := if current = .healthy then .started else .failed }

/-- The lifecycle asks for a state. -/
def enter (w : Solo α β τ) (target : RuntimeState) (phase : Phase) : Solo α β τ :=
  { w with current := StateMachine.ask w.current target, phase := phase }

/-- When a step can happen. -/
def Enabled (w : Solo α β τ) : SoloStep τ → Prop
  | .start => w.phase = .created
  | .initialPoll id _ _ => w.phase = .starting none ∧ id ∉ w.ids
  | .poll id _ _ => w.phase ≠ .starting (some id) ∧ id ∉ w.ids
  | .resume id _ _ => ∃ poll ∈ w.polls, poll.id = id
  | .boot => w.initialized
  | .bootFails => w.phase = .failing ∨ w.phase = .starting none
  | .stop => w.phase = .started
  | .stopped => w.phase = .stopping

instance (w : Solo α β τ) : ∀ e, Decidable (w.Enabled e)
  | .start => inferInstanceAs (Decidable (w.phase = .created))
  | .initialPoll id _ _ => inferInstanceAs (Decidable (w.phase = .starting none ∧ id ∉ w.ids))
  | .poll id _ _ =>
    inferInstanceAs (Decidable (w.phase ≠ .starting (some id) ∧ id ∉ w.ids))
  | .resume id _ _ => inferInstanceAs (Decidable (∃ poll ∈ w.polls, poll.id = id))
  | .boot => inferInstanceAs (Decidable (w.initialized = true))
  | .bootFails =>
    inferInstanceAs (Decidable (w.phase = .failing ∨ w.phase = .starting none))
  | .stop => inferInstanceAs (Decidable (w.phase = .started))
  | .stopped => inferInstanceAs (Decidable (w.phase = .stopping))

/-- What a step does. -/
def next (w : Solo α β τ) : SoloStep τ → Solo α β τ
  -- BOOTING is the state of a new runtime.
  | .start => w.enter .initializing (.starting none)
  | .initialPoll id now a => advance r { w with phase := .starting (some id) } id now a none
  | .poll id now a => advance r w id now a none
  | .resume id now a =>
    (w.polls.find? (·.id = id)).elim w fun poll => advance r w id now a (some poll.point)
  | .boot => w.boot
  | .bootFails => w.enter .failed .failed
  | .stop => w.enter .stopping .stopping
  | .stopped => w.enter .stopped .stopped

/-- The step function. -/
def step : Solo α β τ → SoloStep τ → Option (Solo α β τ) :=
  Run.guarded Enabled (next r)

end Solo

end EdgeSentinel.Monitoring
