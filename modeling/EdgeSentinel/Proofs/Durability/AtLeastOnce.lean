import EdgeSentinel.Proofs.Durability.Executions

/-!
# `EdgeSentinel.Proofs.Durability.AtLeastOnce`: the journal loses nothing

`Kept` is what the journal keeps about a recorded intent. It relates the row to the history:
every invocation came after an IN_PROGRESS mark and had the stored payload, a COMPLETED row
has a run that returned, and a FAILED row has a last permitted attempt that raised.

`Kept` holds at every moment, so it is both the property of an executing intent and of an
idle one, and a crash may fall anywhere. `intent_kept` is the result for every run.
-/

set_option autoImplicit false

namespace EdgeSentinel.Proofs.Durability

open Coroutine EdgeSentinel.Durability

variable {π ρ : Type}

/-- The invocations in a history: the payload and the stored row of each. -/
def invocations (h : List (Entry π)) : List (π × Option IntentRow) :=
  h.filterMap fun
    | .invoked payload stored => some (payload, stored)
    | _ => none

@[simp] theorem invocations_append (h h' : List (Entry π)) :
    invocations (h ++ h') = invocations h ++ invocations h' :=
  List.filterMap_append

@[simp] theorem invocations_invoked (payload : π) (stored : Option IntentRow) :
    invocations [.invoked payload stored] = [(payload, stored)] := rfl

@[simp] theorem invocations_recorded (operation payload : String) :
    invocations [(.recorded operation payload : Entry π)] = [] := rfl

@[simp] theorem invocations_ended (payload : π) (result : Except String ρ)
    (stored : Option IntentRow) : invocations [Entry.ended payload result stored] = [] := by
  cases result <;> rfl

/-- What the journal keeps about a recorded intent. -/
structure Kept (cfg : Config π) (row : IntentRow) (h : List (Entry π)) : Prop where
  registered : (cfg.registry row.operation).isSome
  recorded : ∀ operation payload, .recorded operation payload ∈ h →
    operation = row.operation ∧ payload = row.payload
  invoked : ∀ payload stored, .invoked payload stored ∈ h →
    payload = cfg.codec.loads row.payload ∧ ∃ r, stored = some r ∧ r.status = .inProgress
  count : (invocations h).length ≤ row.attempts
  completed : row.status = .completed → ∃ stored,
    .invoked (cfg.codec.loads row.payload) stored ∈ h ∧
      .returned (cfg.codec.loads row.payload) stored ∈ h
  failed : row.status = .failed → ∃ op, cfg.registry row.operation = some op ∧
    op.exhausted row.attempts = true ∧ ∃ e r, row.lastError = some e ∧
      r.attempts = row.attempts ∧ .invoked (cfg.codec.loads row.payload) (some r) ∈ h ∧
        .raised e (some r) ∈ h

/-- `Kept` for a recorded intent. An intent without a row has no history. -/
def KeptCell (cfg : Config π) (_ : IntentId) (c : Cell π) : Prop :=
  match c.row with
  | none => c.history = []
  | some row => Kept cfg row c.history

namespace Kept

variable {cfg : Config π} {row : IntentRow} {h : List (Entry π)}

/-- The IN_PROGRESS mark. -/
theorem attempted (hk : Kept cfg row h) (now : String) :
    Kept cfg (Durability.attempted row now) h where
  registered := hk.registered
  recorded := hk.recorded
  invoked := hk.invoked
  count := Nat.le_succ_of_le hk.count
  completed hs := by cases hs
  failed hs := by cases hs

/-- The invocation after the mark. It uses up the attempt that the mark counted. -/
theorem invoke (hk : Kept cfg row h) (now : String) :
    Kept cfg (Durability.attempted row now)
      (h ++ [.invoked (cfg.codec.loads row.payload) (some (Durability.attempted row now))]) where
  registered := hk.registered
  recorded operation payload hmem := hk.recorded operation payload (by simpa using hmem)
  invoked payload stored hmem := by
    rcases List.mem_append.mp hmem with hmem | hmem
    · exact hk.invoked payload stored hmem
    · simp only [List.mem_singleton, Entry.invoked.injEq] at hmem
      exact ⟨hmem.1, _, hmem.2, rfl⟩
  count := by
    have := hk.count
    simp only [invocations_append, invocations_invoked, List.length_append,
      List.length_singleton]
    show _ ≤ row.attempts + 1
    omega
  completed hs := by cases hs
  failed hs := by cases hs

/-- An entry that is no invocation and no recording changes nothing while IN_PROGRESS. -/
theorem ended (hk : Kept cfg row h) (hs : row.status = .inProgress) (payload : π)
    (result : Except String ρ) (stored : Option IntentRow) :
    Kept cfg row (h ++ [.ended payload result stored]) where
  registered := hk.registered
  recorded operation payload' hmem := hk.recorded operation payload' (by
    cases result <;> simpa [Entry.ended] using hmem)
  invoked payload' stored' hmem := hk.invoked payload' stored' (by
    cases result <;> simpa [Entry.ended] using hmem)
  count := by simpa using hk.count
  completed hs' := by rw [hs] at hs'; cases hs'
  failed hs' := by rw [hs] at hs'; cases hs'

/-- The final mark, after the invocation and the end of the function are in the history. -/
theorem settled {op : Operation} {result : Except String ρ} (hk : Kept cfg row h)
    (hop : cfg.registry row.operation = some op)
    (hinvoked : .invoked (cfg.codec.loads row.payload) (some row) ∈ h)
    (hended : .ended (cfg.codec.loads row.payload) result (some row) ∈ h) (now : String) :
    Kept cfg (Durability.settled op row result now) h := by
  cases result with
  | ok value =>
    refine ⟨hk.registered, hk.recorded, hk.invoked, hk.count, fun _ => ?_, fun hs => ?_⟩
    · exact ⟨some row, hinvoked, hended⟩
    · cases hs
  | error e =>
    refine ⟨hk.registered, hk.recorded, hk.invoked, hk.count, fun hs => ?_, fun hs => ?_⟩
    · simp only [Durability.settled, IntentRow.update] at hs
      split at hs <;> cases hs
    · -- FAILED means that the attempts are exhausted.
      simp only [Durability.settled, IntentRow.update] at hs
      split at hs
      · rename_i hexhausted
        exact ⟨op, hop, hexhausted, e, row, rfl, rfl, hinvoked, hended⟩
      · cases hs

end Kept

/-- `Kept` meets the obligations of a property of each intent. -/
theorem upholds_kept (ρ : Type) (cfg : Config π) :
    Upholds ρ cfg (KeptCell cfg) (KeptCell cfg) where
  inv_of_idle _ _ h := h
  fresh _ := rfl
  recorded id operation payload now hregistered h hidle := by
    obtain rfl : h = [] := hidle
    refine ⟨hregistered, fun o p hmem => ?_, fun _ _ hmem => ?_, Nat.zero_le _, ?_, ?_⟩
    · simpa [IntentRow.new] using hmem
    · simp at hmem
    · intro hs
      cases hs
    · intro hs
      cases hs
  execute op intent c hop hready hidle := by
    obtain ⟨row, h⟩ := c
    obtain ⟨row, rfl, rfl, -⟩ := hready
    have hk : Kept cfg row h := hidle
    have hcalled := hk.invoke
    refine safe_execute (fun _ h => h) hk (fun now => hk.attempted now) hcalled ?_ ?_ _
    · intro now result
      exact (hcalled now).ended rfl _ result _
    · intro now now' result
      refine ((hcalled now).ended rfl _ result _).settled hop ?_ ?_ now'
      · simp [rowToIntent, Durability.attempted, IntentRow.update]
      · simp [rowToIntent, Durability.attempted, IntentRow.update]

/-- In every reachable state the journal keeps what it says about each intent. -/
theorem keptCell_of_run {cfg : Config π} {es : List (Event π ρ)} {s : System π ρ}
    (hrun : Run.exec (step cfg) {} es = some s) (id : IntentId) :
    KeptCell cfg id (s.store.cell id) := by
  have hup := upholds_kept ρ cfg
  -- A cell is kept at every moment, so a crash may come at any.
  have hinv : SystemInv cfg (KeptCell cfg) (KeptCell cfg) s :=
    SystemInv.of_run hup (fun _ _ _ h _ _ => h.inv_cell hup) hrun
      (Run.along_of_forall (fun _ _ _ => trivial) es _)
  exact hinv.inv_cell hup id

/-- A recorded intent has its row, and the row is kept. -/
theorem kept_of_recorded {cfg : Config π} {es : List (Event π ρ)} {s : System π ρ}
    (hrun : Run.exec (step cfg) {} es = some s) {id : IntentId} {operation payload : String}
    (hrecorded : .recorded operation payload ∈ s.store.history id) :
    ∃ row, (s.store.cell id).row = some row ∧ Kept cfg row (s.store.history id) := by
  have hcell : KeptCell cfg id (s.store.cell id) := keptCell_of_run hrun id
  unfold KeptCell at hcell
  cases hrow : (s.store.cell id).row with
  | none =>
    -- Without a row there is no history, and nothing was recorded.
    rw [hrow] at hcell
    have hnil : s.store.history id = [] := hcell
    rw [hnil] at hrecorded
    cases hrecorded
  | some row =>
    rw [hrow] at hcell
    exact ⟨row, rfl, hcell⟩

/-- Durable operations lose nothing across crashes. In every state that calls, steps of
executions, crashes, restarts and replays can reach, and for every recorded intent:

* its row is there, with the recorded operation and payload;
* its function was invoked with the stored payload only, each time with the row IN_PROGRESS
  in the journal, and at most as often as the stored attempts say;
* when the row is COMPLETED, one of these invocations returned;
* when the row is FAILED, `max_attempts` is set and reached, and the invocation of the last
  attempt raised;
* otherwise the row is PENDING or IN_PROGRESS, and the intent is in the replay set of a
  registered operation. -/
theorem intent_kept (cfg : Config π) (es : List (Event π ρ)) (s : System π ρ)
    (hrun : Run.exec (step cfg) {} es = some s) (id : IntentId) (operation payload : String)
    (hrecorded : .recorded operation payload ∈ s.store.history id) :
    ∃ row, loadIntent s.store.intents id = some row ∧
      row.operation = operation ∧ row.payload = payload ∧
      (∀ p stored, .invoked p stored ∈ s.store.history id →
        p = cfg.codec.loads payload ∧ ∃ r, stored = some r ∧ r.status = .inProgress) ∧
      (invocations (s.store.history id)).length ≤ row.attempts ∧
      (row.status = .completed → ∃ stored,
        .invoked (cfg.codec.loads payload) stored ∈ s.store.history id ∧
          .returned (cfg.codec.loads payload) stored ∈ s.store.history id) ∧
      (row.status = .failed → ∃ op m, cfg.registry operation = some op ∧
        op.maxAttempts = some m ∧ m ≤ row.attempts ∧ ∃ e r, r.attempts = row.attempts ∧
          .invoked (cfg.codec.loads payload) (some r) ∈ s.store.history id ∧
            .raised e (some r) ∈ s.store.history id) ∧
      (row.status ≠ .completed → row.status ≠ .failed →
        (row.status = .pending ∨ row.status = .inProgress) ∧
          (cfg.registry operation).isSome ∧
            rowToIntent cfg.codec row ∈ IntentJournal.pending cfg.codec s.store.intents) := by
  obtain ⟨row, hrow, hk⟩ := kept_of_recorded hrun hrecorded
  obtain ⟨rfl, rfl⟩ := hk.recorded operation payload hrecorded
  refine ⟨row, hrow, rfl, rfl, hk.invoked, hk.count, hk.completed, fun hs => ?_, fun hnc hnf => ?_⟩
  · obtain ⟨op, hop, hexhausted, e, r, -, hattempts, hinvoked, hraised⟩ := hk.failed hs
    obtain ⟨m, hm, hle⟩ : ∃ m, op.maxAttempts = some m ∧ m ≤ row.attempts := by
      simpa [Operation.exhausted, Option.any_eq_true] using hexhausted
    exact ⟨op, m, hop, hm, hle, e, r, hattempts, hinvoked, hraised⟩
  · have hstatus : row.status = .pending ∨ row.status = .inProgress := by
      cases hs : row.status <;> simp_all
    refine ⟨hstatus, hk.registered, List.mem_map.mpr ⟨row, List.mem_filter.mpr ⟨?_, ?_⟩, rfl⟩⟩
    · exact List.mem_of_find?_eq_some hrow
    · simpa using hstatus

/-- A runtime with one durable operation that has a single attempt. -/
def publishOnce : Config Nat where
  codec := ⟨fun _ => .ok "\x7b\x7d", fun _ => 0⟩
  component := "edge"
  registry operation := if operation = "publish_reading" then some ⟨some 1, by simp⟩ else none

/-- A row of that operation. -/
def reading (status : IntentStatus) (attempts : Nat) (lastError : Option String) : IntentRow :=
  ⟨"a", "publish_reading", "\x7b\x7d", status, attempts, lastError, "", ""⟩

/-- A call of the durable operation, and a crash while its function runs. -/
def crashedCall : List (Event Nat Unit) :=
  [.start, .ready, .call "a" "publish_reading" 0] ++
    List.replicate 6 (.advance "a" ⟨"", .ok ()⟩) ++ [.crash]

/-- The crashed call is in the replay set. -/
theorem intent_kept_crashedCall : ∃ s row,
    Run.exec (step publishOnce) {} crashedCall = some s ∧
      loadIntent s.store.intents "a" = some row ∧
        rowToIntent publishOnce.codec row
          ∈ IntentJournal.pending publishOnce.codec s.store.intents := by
  have hrun : (Run.exec (step publishOnce) {} crashedCall).map (fun s =>
      (s.store.intents.map (·.status), s.store.history "a")) = some
        ([.inProgress], [.recorded "publish_reading" "\x7b\x7d",
          .invoked 0 (some (reading .inProgress 1 none))]) := by
    rfl
  obtain ⟨s, hs, hdata⟩ := Option.map_eq_some_iff.mp hrun
  obtain ⟨hstatus, hhistory⟩ := Prod.mk.inj hdata
  obtain ⟨row, hrow, -, -, -, -, -, -, hpending⟩ :=
    intent_kept publishOnce crashedCall s hs "a" "publish_reading" "\x7b\x7d" (by simp [hhistory])
  have hmem : row.status ∈ s.store.intents.map (·.status) :=
    List.mem_map.mpr ⟨row, List.mem_of_find?_eq_some hrow, rfl⟩
  have hrow' : row.status = .inProgress := by simpa [hstatus] using hmem
  exact ⟨s, row, hs, hrow, (hpending (by simp [hrow']) (by simp [hrow'])).2.2⟩

end EdgeSentinel.Proofs.Durability
