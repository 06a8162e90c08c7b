import EdgeSentinel.Library.Keyed

/-!
# `EdgeSentinel.Persistence.SavedStates`: the saved states of the runtime and of its breakers

`save_runtime_state`, `load_runtime_state`, `save_circuit_breaker_state` and
`load_circuit_breaker_state` are the methods of `persistence/database.py`. Both saves are upserts.
The table `runtime_state` has one row at most, with the id 1, and the table `circuit_breaker_state`
has one row for each name. The column `updated_at` is left out.
-/

set_option autoImplicit false

namespace EdgeSentinel.Persistence

/-- A row of `runtime_state`. -/
structure RuntimeStateRow where
  id : Nat
  name : String
  state : String
  deriving DecidableEq, Repr

/-- `save_runtime_state`. -/
def saveRuntimeState (name state : String) (table : List RuntimeStateRow) :
    List RuntimeStateRow :=
  Keyed.upsert (·.id) ⟨1, name, state⟩ table

/-- `load_runtime_state`. -/
def loadRuntimeState (table : List RuntimeStateRow) : Option (String × String) :=
  (table.find? (·.id = 1)).map fun row => (row.name, row.state)

/-- The row that was saved is loaded. -/
theorem loadRuntimeState_saveRuntimeState (name state : String) (table : List RuntimeStateRow) :
    loadRuntimeState (saveRuntimeState name state table) = some (name, state) := by
  have hfound : (saveRuntimeState name state table).find? (·.id = 1) = some ⟨1, name, state⟩ := by
    unfold saveRuntimeState
    exact Keyed.find?_upsert_self (by rfl) table
  rw [loadRuntimeState, hfound]
  rfl

/-- A row of `circuit_breaker_state`. `record` holds the state, the count and `opened_at`. -/
structure BreakerRow (ρ : Type) where
  name : String
  record : ρ
  deriving DecidableEq, Repr

variable {ρ : Type}

/-- `save_circuit_breaker_state`. -/
def saveCircuitBreakerState (name : String) (record : ρ) (table : List (BreakerRow ρ)) :
    List (BreakerRow ρ) :=
  Keyed.upsert (·.name) ⟨name, record⟩ table

/-- `load_circuit_breaker_state`. -/
def loadCircuitBreakerState (name : String) (table : List (BreakerRow ρ)) : Option ρ :=
  (table.find? (·.name = name)).map (·.record)

/-- A breaker loads what was saved under its name. -/
theorem loadCircuitBreakerState_save_self (name : String) (record : ρ)
    (table : List (BreakerRow ρ)) :
    loadCircuitBreakerState name (saveCircuitBreakerState name record table) = some record := by
  have hfound : (saveCircuitBreakerState name record table).find? (·.name = name)
      = some ⟨name, record⟩ := by
    unfold saveCircuitBreakerState
    exact Keyed.find?_upsert_self (by rfl) table
  rw [loadCircuitBreakerState, hfound]
  rfl

/-- A save under another name does not change it. -/
theorem loadCircuitBreakerState_save_of_ne {name name' : String} (hne : name' ≠ name)
    (record : ρ) (table : List (BreakerRow ρ)) :
    loadCircuitBreakerState name (saveCircuitBreakerState name' record table)
      = loadCircuitBreakerState name table := by
  have hfound : (saveCircuitBreakerState name' record table).find? (·.name = name)
      = table.find? (·.name = name) := Keyed.find?_upsert_of_ne hne table
  rw [loadCircuitBreakerState, hfound]
  rfl

end EdgeSentinel.Persistence
