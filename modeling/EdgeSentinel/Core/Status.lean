import EdgeSentinel.Core.Runtime
import EdgeSentinel.Persistence.SavedStates

/-!
# `EdgeSentinel.Core.Status`: what `edgesentinel status` prints

The file of a runtime holds the writes of `save_runtime_state`, oldest first. `runtimeState` is the
table that they leave, and `cmdStatus` is `_cmd_status` of `cli/main.py`.
-/

set_option autoImplicit false

namespace EdgeSentinel.Core

open EdgeSentinel.Persistence

/-- The table `runtime_state` after the saves. -/
def runtimeState (saves : List (String × String)) : List RuntimeStateRow :=
  saves.foldl (fun table save => saveRuntimeState save.1 save.2 table) []

/-- The line of a row. `updatedAt` is the time of its save. -/
def statusLine (name state updatedAt : String) : String :=
  name ++ ": " ++ state ++ " (as of " ++ updatedAt ++ ")"

/-- What `_cmd_status` prints. -/
def cmdStatus (saves : List (String × String)) (updatedAt : String) : String :=
  match loadRuntimeState (runtimeState saves) with
  | none => "no runtime state recorded yet"
  | some (name, state) => statusLine name state updatedAt

@[simp] theorem cmdStatus_nil (updatedAt : String) :
    cmdStatus [] updatedAt = "no runtime state recorded yet" := rfl

/-- The last save is shown. -/
@[simp] theorem cmdStatus_snoc (saves : List (String × String)) (name state updatedAt : String) :
    cmdStatus (saves ++ [(name, state)]) updatedAt = statusLine name state updatedAt := by
  have hload : loadRuntimeState (runtimeState (saves ++ [(name, state)])) = some (name, state) := by
    rw [runtimeState, List.foldl_append]
    exact loadRuntimeState_saveRuntimeState name state _
  rw [cmdStatus, hload]

end EdgeSentinel.Core
