import EdgeSentinel.Durability.Recovery

/-!
# `EdgeSentinel.Durability.Nesting`: durable functions that call durable functions

In `Operations.lean` a durable function is a box: it is invoked and it ends. Here it has a body,
a program whose operations are durable calls. A body awaits a call before it makes the next one.

A call runs the wrapper of its operation, and the wrapper awaits the body of that operation, which
may call again. `depth` is how deep the calls may nest. With too little depth there is no result.
-/

set_option autoImplicit false

namespace EdgeSentinel.Durability

open Coroutine EdgeSentinel.Core

variable {π ρ : Type}

/-- A call of a decorated function, with its bound arguments. -/
structure DurableCall (cfg : Config π) where
  operation : String
  registered : (cfg.registry operation).isSome
  arguments : π

/-- The operation that is called. -/
def DurableCall.op {cfg : Config π} (c : DurableCall cfg) : Operation :=
  (cfg.registry c.operation).get c.registered

/-- The body of a durable function. A durable call returns or raises, and the body goes on from
either. -/
abbrev Body (cfg : Config π) (ρ : Type) : Type :=
  Prog (DurableCall cfg) (fun _ => Except DurableError ρ) String ρ

/-- The functions of the registered operations by their payloads, the clock, and `uuid4`. -/
structure Application (cfg : Config π) (ρ : Type) where
  body : String → π → Body cfg ρ
  now : Op π → Store π → String
  uuid : Store π → IntentId

namespace Application

variable {cfg : Config π} (app : Application cfg ρ)

/-- An operation of an execution. `invoke` is the function that the execution awaits. -/
def answer (invoke : IntentId → π → Store π → Option (Except String ρ × Store π)) :
    (o : Op π) → Store π → Option (Op.Ret ρ o × Store π)
  | .outcome id payload, s =>
    match invoke id payload s with
    | some (result, s') =>
      some (s'.perform (.outcome id payload) ⟨app.now (.outcome id payload) s', result⟩)
    | none => none
  | o, s => some (s.perform o ⟨app.now o s, .error "no function is awaited"⟩)

/-- A durable call: the wrapper of its operation. `started` is the answer of `is_started`. -/
def call (started : Bool) : Nat → DurableCall cfg → Store π →
    Option (Except DurableError ρ × Store π)
  | 0, _, _ => none
  | depth + 1, c, s =>
    (wrapper cfg c.operation c.op started (app.uuid s) c.arguments).interp
      (app.answer fun _ payload => (app.body c.operation payload).interp (call started depth)) s

/-- The function of an operation is invoked. -/
def invoke (started : Bool) (depth : Nat) (operation : String) (payload : π) :
    Store π → Option (Except String ρ × Store π) :=
  (app.body operation payload).interp (app.call started depth)

/-- `replay_pending`, in a `start()` that has not set `_started` yet. -/
def replay (depth : Nat) (s : Store π) : Option (Except DurableError Unit × Store π) :=
  (replayPending cfg s).interp (app.answer fun id payload t =>
    match (IntentJournal.pending cfg.codec s.intents).find? fun intent => intent.id = id with
    | some intent => app.invoke false depth intent.operation payload t
    | none => none) s

end Application

end EdgeSentinel.Durability
