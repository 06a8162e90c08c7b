import EdgeSentinel.Core.Events
import EdgeSentinel.Library.Run

/-!
# `EdgeSentinel.Core.EventBus`: one publication

`EventBus` is the bus of `core/events.py`. `publish` calls each handler of a copy of the list,
and passes what the calls return to `asyncio.gather`. Up to there nothing else runs. Then every
awaitable is a task of its own: the tasks take turns in any order, and `publish` resumes when all
of them have ended.

How the handlers behave is given by their positions in the copy. A handler may subscribe and
unsubscribe handlers in its call and in every turn of its task. Two calls do not return the same
awaitable.

An `Audience` is what one publication meets. The components that publish get one for each of their
publications, and `raised` is what they see of it: the exception that `publish` lets through.
-/

set_option autoImplicit false

namespace EdgeSentinel.Core

variable {η ε τ : Type}

/-- What a handler does to the bus. -/
inductive BusCall (η : Type) where
  | subscribe (handler : η)
  | unsubscribe (handler : η)
  deriving DecidableEq, Repr

/-- The bus, with its `_handlers`. -/
structure EventBus (η : Type) where
  handlers : List η := []
  deriving DecidableEq, Repr

namespace EventBus

variable [DecidableEq η]

/-- `subscribe`. -/
def subscribe (bus : EventBus η) (handler : η) : EventBus η :=
  { bus with handlers := bus.handlers ++ [handler] }

/-- `unsubscribe`, which removes the first occurrence, if there is one. -/
def unsubscribe (bus : EventBus η) (handler : η) : EventBus η :=
  { bus with handlers := bus.handlers.erase handler }

def apply (bus : EventBus η) : BusCall η → EventBus η
  | .subscribe handler => bus.subscribe handler
  | .unsubscribe handler => bus.unsubscribe handler

end EventBus

/-- How a task ends. -/
inductive TaskEnd (ε : Type) where
  | completed
  | raised (exception : ε)
  /-- A `CancelledError`. -/
  | cancelled
  deriving DecidableEq, Repr

/-- What comes of `handler(event)`. -/
inductive CallResult (η ε : Type) where
  /-- An awaitable: what it does in each turn, and how it ends. -/
  | awaitable (turns : List (List (BusCall η))) (ends : TaskEnd ε)
  /-- A value that is not awaitable. -/
  | value
  | raised (exception : ε)
  deriving DecidableEq, Repr

def CallResult.isAwaitable : CallResult η ε → Bool
  | .awaitable _ _ => true
  | _ => false

/-- A call `handler(event)`: what it does itself, and what comes of it. -/
structure HandlerCall (η ε : Type) where
  made : List (BusCall η) := []
  result : CallResult η ε
  deriving DecidableEq, Repr

/-- An exception that `publish` lets through. -/
inductive PublishError (ε : Type) where
  | handler (exception : ε)
  /-- `TypeError` of `gather`: an awaitable is required. -/
  | awaitableRequired
  deriving DecidableEq, Repr

/-- An exception that the report of an event raises. -/
inductive ReportError (ε : Type) where
  /-- One of `str` of the exception that the event names. -/
  | str (exception : ε)
  | publish (error : PublishError ε)
  deriving DecidableEq, Repr

/-- The task of an awaitable. -/
structure Task (η ε : Type) where
  /-- The position of its handler. -/
  position : Nat
  turns : List (List (BusCall η))
  ends : TaskEnd ε
  ended : Bool := false
  deriving DecidableEq, Repr

/-- A record of `logger.error`. -/
structure LogRecord (ε : Type) where
  type : String
  component : String
  excInfo : TaskEnd ε
  deriving DecidableEq, Repr

/-- A call of `publish` with the bus. -/
structure Publication (η ε τ : Type) where
  bus : EventBus η
  event : Event τ
  /-- The calls of handlers that were made, in order. -/
  called : List (η × Event τ) := []
  tasks : List (Task η ε) := []
  /-- How `publish` has ended. Until then it awaits the tasks. -/
  outcome : Option (Except (PublishError ε) Unit) := none
  logged : List (LogRecord ε) := []

namespace Publication

variable [DecidableEq η]

/-- The calls of the handlers from a position on. The first exception ends them. The results are
the tasks that `gather` makes of them, or the exception. -/
def callHandlers (answer : Nat → HandlerCall η ε) :
    List η → Nat → Publication η ε τ →
      Publication η ε τ × Except ε (List (Nat × CallResult η ε))
  | [], _, p => (p, .ok [])
  | handler :: handlers, position, p =>
    let call := answer position
    let p := { p with
      bus := call.made.foldl EventBus.apply p.bus
      called := p.called ++ [(handler, p.event)] }
    match call.result with
    | .raised e => (p, .error e)
    | result =>
      match callHandlers answer handlers (position + 1) p with
      | (p, .ok results) => (p, .ok ((position, result) :: results))
      | (p, .error e) => (p, .error e)

/-- The tasks that `gather` makes of its arguments, up to the first one that is not awaitable. -/
def ensureFutures : List (Nat × CallResult η ε) → List (Task η ε) × Except (PublishError ε) Unit
  | [] => ([], .ok ())
  | (position, .awaitable turns ends) :: results =>
    let (tasks, rest) := ensureFutures results
    ({ position := position, turns := turns, ends := ends } :: tasks, rest)
  | _ :: _ => ([], .error .awaitableRequired)

/-- `publish`, up to its await. -/
def publish (bus : EventBus η) (event : Event τ) (answer : Nat → HandlerCall η ε) :
    Publication η ε τ :=
  let p : Publication η ε τ := { bus := bus, event := event }
  if bus.handlers = [] then { p with outcome := some (.ok ()) }
  else
    match callHandlers answer bus.handlers 0 p with
    | (p, .error e) => { p with outcome := some (.error (.handler e)) }
    | (p, .ok results) =>
      match ensureFutures results with
      | (tasks, .ok ()) => { p with tasks := tasks }
      | (tasks, .error e) => { p with tasks := tasks, outcome := some (.error e) }

/-- What happens next: a task takes a turn, or `publish` resumes. -/
inductive Move where
  | turn (task : Nat)
  | resume
  deriving DecidableEq, Repr

/-- The records of the tasks that did not complete. -/
def records (p : Publication η ε τ) : List (LogRecord ε) :=
  (p.tasks.filter fun t => match t.ends with
    | .completed => false
    | _ => true).map fun t => ⟨p.event.type, p.event.component, t.ends⟩

/-- One move. `gather` has its results when the last task has ended. -/
def step (p : Publication η ε τ) : Move → Option (Publication η ε τ)
  | .turn k =>
    match p.tasks[k]? with
    | none => none
    | some t =>
      if t.ended then none
      else
        match t.turns with
        | [] => some { p with tasks := p.tasks.set k { t with ended := true } }
        | turn :: turns => some { p with
            bus := turn.foldl EventBus.apply p.bus
            tasks := p.tasks.set k { t with turns := turns } }
  | .resume =>
    if p.outcome = none ∧ p.tasks.all (·.ended) then
      some { p with outcome := some (.ok ()), logged := p.records }
    else none

end Publication

/-! ### What a publisher meets -/

/-- Each call of a handler returns an awaitable. -/
def Awaitables (bus : EventBus η) (answer : Nat → HandlerCall η ε) : Prop :=
  ∀ i < bus.handlers.length, (answer i).result.isAwaitable = true

/-- The bus that an event is published on, and how its handlers answer. By default there are no
handlers. -/
structure Audience (ε : Type) where
  bus : EventBus Nat := {}
  answer : Nat → HandlerCall Nat ε := fun _ => { result := .value }

namespace Audience

/-- The exception of `publish`, if it raises one. It raises before it suspends, or not at all. -/
def raised (a : Audience ε) (event : Event τ) : Option (PublishError ε) :=
  match (Publication.publish a.bus event a.answer).outcome with
  | some (.error e) => some e
  | _ => none

/-- Each call of a handler returns an awaitable. -/
def Awaitables (a : Audience ε) : Prop := Core.Awaitables a.bus a.answer

instance (a : Audience ε) : Decidable a.Awaitables :=
  inferInstanceAs (Decidable (∀ i < a.bus.handlers.length, (a.answer i).result.isAwaitable = true))

/-- Without handlers there is nothing to call. -/
theorem awaitables_default : ({} : Audience ε).Awaitables := fun i hi => absurd hi (Nat.not_lt_zero i)

end Audience

end EdgeSentinel.Core
