import EdgeSentinel.Durability.Operations
import EdgeSentinel.Durability.Table

/-!
# `EdgeSentinel.Durability.Pruning`: a process that prunes its journal

`prune_completed` is the one call of the journal that the durable layer does not make. The
application makes it, at any time while the process runs. Its DELETE is one job of the database, so
it falls between two operations of the executions.
-/

set_option autoImplicit false

namespace EdgeSentinel.Durability

variable {π ρ : Type}

/-- One step of the process or of its surroundings, or a pruning. -/
inductive PruneEvent (π ρ : Type) where
  | step (e : Event π ρ)
  /-- `prune_completed`, with the text of its cutoff. -/
  | prune (olderThan : String)

/-- The step without the prunings. -/
def PruneEvent.step? : PruneEvent π ρ → Option (Event π ρ)
  | .step e => some e
  | .prune _ => none

/-- The UUID that a call draws. -/
def PruneEvent.drawn? : PruneEvent π ρ → Option IntentId
  | .step (.call id _ _) => some id
  | _ => none

/-- DELETE of the completed intents that were updated before `olderThan`. -/
def Store.pruneCompleted (s : Store π) (olderThan : String) : Store π :=
  { s with intents := (pruneCompletedIntents s.intents olderThan).2 }

/-- The step function of a process whose journal is pruned. -/
def pruneStep (cfg : Config π) (s : System π ρ) : PruneEvent π ρ → Option (System π ρ)
  | .step e => step cfg s e
  | .prune olderThan =>
    if s.mode.isUp then some { s with store := s.store.pruneCompleted olderThan } else none

end EdgeSentinel.Durability
