import EdgeSentinel.Durability.Operations

/-!
# `EdgeSentinel.Durability.Recovery`: `replay_pending` when nothing else happens

`System` of `Operations.lean` lets durable calls and crashes fall into a replay. Here nothing
falls into it: `replayPending` is one program that goes through the replay set, and the only
other parties are the clock, the replayed functions, and the handlers on the bus.

`Reporting` is what the reports of a replay meet. Nothing in `execute` catches an exception of
`publish` or of `str(exc)`, and the loop catches it only around `execute`.
-/

set_option autoImplicit false

namespace EdgeSentinel.Durability

open Coroutine EdgeSentinel.Core

variable {π ρ : Type} (cfg : Config π)

/-- What the reports of a replay meet. No two events of a replay are of the same type and about the
same intent. By default the reports do not raise. -/
structure Reporting where
  /-- What `str` raises for an exception of the intent's function, where it does. -/
  unprintable : IntentId → Option String := fun _ => none
  audience : String → IntentId → Audience String := fun _ _ => {}

/-- What comes after an operation of a replay at once, if it is an exception. `execute` takes the
text of an exception as soon as it has caught it. -/
def Reporting.raised (r : Reporting) (outcome : IntentId → Except String ρ) :
    Op π → Option DurableError
  | .outcome id _ =>
    match outcome id with
    | .ok _ => none
    | .error _ => (r.unprintable id).map fun e => .report (.str e)
  | .publish id type component severity metadata =>
    ((r.audience type id).raised ⟨type, component, severity, (), metadata⟩).map fun e =>
      .report (.publish e)
  | _ => none

/-- One round of the loop. -/
def replayIntent (intent : Intent π) (raised : Op π → Option DurableError) : Execution π ρ Unit :=
  match cfg.registry intent.operation with
  | none => (Op.ask (.publish intent.id "durable_operation_unhandled" cfg.component .warning
      [("operation", .str intent.operation), ("intent_id", .str intent.id)])).raising raised
  | some op =>
    -- `execute` has journaled the failure. Here it is only logged.
    Prog.tryExcept (Prog.raising raised do
      let _ : ρ ← execute cfg intent.operation op intent
      return ()) fun _ => return ()

/-- The loop. -/
def replayAll (raised : Op π → Option DurableError) : List (Intent π) → Execution π ρ Unit
  | [] => return ()
  | intent :: queue => do
    replayIntent cfg intent raised
    replayAll raised queue

/-- `replay_pending`. It begins with the SELECT of the replay set. -/
def replayPending (s : Store π) (raised : Op π → Option DurableError := fun _ => none) :
    Execution π ρ Unit :=
  replayAll cfg raised (IntentJournal.pending cfg.codec s.intents)

/-- The clock, and how the function of each intent ends. A payload that does not bind is an
exception of the function. -/
def replayWorld (now : Op π → Store π → String) (outcome : IntentId → Except String ρ) :
    Op π → Store π → Answer ρ :=
  fun o s => ⟨now o s, outcome o.id⟩

/-- The invocation that an operation makes. -/
def Op.invocation? : Op π → Option (IntentId × π)
  | .call id payload => some (id, payload)
  | _ => none

/-- The operation reports an event, or ends with an exception whose text is reported. -/
def Op.isReport : Op π → Bool
  | .outcome .. => true
  | .publish .. => true
  | _ => false

/-- The operation concerns a function and not the journal. -/
def Op.isFunction : Op π → Bool
  | .call .. => true
  | .outcome .. => true
  | _ => false

end EdgeSentinel.Durability
