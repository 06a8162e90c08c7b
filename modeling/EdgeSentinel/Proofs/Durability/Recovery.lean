import EdgeSentinel.Durability.Recovery
import EdgeSentinel.Proofs.Core.Publication
import EdgeSentinel.Proofs.Durability.Executions
import EdgeSentinel.Proofs.Durability.ReplaySet

/-!
# `EdgeSentinel.Proofs.Durability.Recovery`: each unfinished intent is replayed on its own

One round of the loop invokes at most one function, and changes at most the row of its own intent
(`runs_replayIntent`). So a round leaves the later intents as the SELECT has read them, and the
loop does to each row what one round does (`runs_replayAll`).

The reports of a round may raise. The event that a function has ended comes after its mark, so its
exception changes nothing that is asked for here. Every other one leaves its intent IN_PROGRESS or
ends the loop. So `replayPending_run` holds exactly when none of these is raised.
-/

set_option autoImplicit false

namespace EdgeSentinel.Proofs.Durability

open Coroutine EdgeSentinel.Core
open EdgeSentinel.Durability

variable {π ρ : Type} {cfg : Config π} {now : Op π → Store π → String}
  {outcome : IntentId → Except String ρ}

/-- The type of the event for an intent that no operation is registered for. -/
def Unhandled (e : Event String) : Bool := e.type = "durable_operation_unhandled"

/-- A change that an attempt of the intent `id` makes to the rows. -/
structure RowChange (id : IntentId) (f : IntentRow → IntentRow) : Prop where
  keeps_id : ∀ row, (f row).id = row.id
  others : ∀ row, row.id ≠ id → f row = row

theorem RowChange.comp {id : IntentId} {f g : IntentRow → IntentRow} (hg : RowChange id g)
    (hf : RowChange id f) : RowChange id (g ∘ f) where
  keeps_id row := (hg.keeps_id _).trans (hf.keeps_id row)
  others row hne := by rw [Function.comp, hf.others row hne, hg.others row hne]

/-- An UPDATE as a change of the rows. -/
theorem exists_updateIntent (id : IntentId) (status : IntentStatus) (attempts : Nat)
    (lastError : Option String) (now : String) :
    ∃ f, RowChange id f ∧
      (∀ rows, updateIntent rows id status attempts lastError now = rows.map f) ∧
      ∀ row, row.id = id → f row = row.update status attempts lastError now := by
  refine ⟨fun row => if row.id = id then row.update status attempts lastError now else row,
    ⟨fun row => ?_, fun row hne => if_neg hne⟩, fun rows => rfl, fun row hid => if_pos hid⟩
  split <;> rfl

/-- What one attempt leaves: the row of the intent is settled, and the other rows are as they
were. -/
structure Attempt (op : Operation) (id : IntentId) (row : IntentRow) (result : Except String ρ)
    (s s' : Store π) : Prop where
  intents : ∃ f now now', RowChange id f ∧ s'.intents = s.intents.map f ∧
    f row = settled op (attempted row now) result now'
  published : ∃ events, s'.published = s.published ++ events ∧
    events.filter Unhandled = []

/-- What `execute` does once the function has ended. -/
def conclude (cfg : Config π) (operation : String) (op : Operation) (id : IntentId)
    (attempts : Nat) : Except String ρ → Execution π ρ ρ
  | .error exc =>
    if op.exhausted attempts then do
      IntentJournal.markFailed cfg.codec id exc
      Op.ask (.publish id "durable_operation_exhausted" cfg.component .error
        [("operation", .str operation), ("intent_id", .str id), ("attempt", .num attempts),
          ("error", .str exc)])
      Prog.fail (.durableOperationExhausted operation id attempts)
    else do
      IntentJournal.markPendingForRetry cfg.codec id exc
      Op.ask (.publish id "durable_operation_retry_pending" cfg.component .warning
        [("operation", .str operation), ("intent_id", .str id), ("attempt", .num attempts),
          ("error", .str exc)])
      Prog.fail (.function exc)
  | .ok value => do
    IntentJournal.markCompleted cfg.codec id
    Op.ask (.publish id "durable_operation_completed" cfg.component .info
      [("operation", .str operation), ("intent_id", .str id)])
    return value

theorem execute_eq (operation : String) (op : Operation) (intent : Intent π) :
    (execute cfg operation op intent : Execution π ρ ρ) = (do
      let updated ← IntentJournal.markInProgress cfg.codec intent.id
      Op.ask (.publish intent.id "durable_operation_started" cfg.component .info
        [("operation", .str operation), ("intent_id", .str intent.id),
          ("attempt", .num updated.attempts)])
      Op.ask (.call intent.id intent.payload)
      let result : Except String ρ ← Op.ask (.outcome intent.id intent.payload)
      conclude cfg operation op intent.id updated.attempts result) := rfl

section
variable (cfg now outcome)
variable {s : Store π} {id : IntentId} {row : IntentRow} (h : loadIntent s.intents id = some row)
include h

/-- A mark that keeps the attempts, and the event after it. -/
theorem runs_mark {α : Type} (status : IntentStatus) (lastError : Option String)
    (type : String) (severity : Severity) (metadata : List (String × MetadataValue))
    (last : Execution π ρ α) (r : Except DurableError α)
    (hlast : ∀ s : Store π, Prog.Runs (Store.alone (replayWorld now outcome)) last s r s [])
    (htype : type ≠ "durable_operation_unhandled") :
    ∃ s' now', Prog.Runs (Store.alone (replayWorld now outcome)) (do
        (do
          let current ← IntentJournal.require cfg.codec id
          Op.ask (.updateIntent id status current.attempts lastError))
        Op.ask (.publish id type cfg.component severity metadata)
        last) s r s' [.loadIntent id, .updateIntent id status row.attempts lastError,
          .publish id type cfg.component severity metadata] ∧
      (∃ f, RowChange id f ∧ s'.intents = s.intents.map f ∧
        ∀ x, x.id = id → f x = x.update status row.attempts lastError now') ∧
      ∃ events, s'.published = s.published ++ events ∧ events.filter Unhandled = [] := by
  obtain ⟨s₁, hs₁⟩ : ∃ s₁, s₁ =
    (Store.alone (replayWorld now outcome) (.updateIntent id status row.attempts lastError) s).2 :=
    ⟨_, rfl⟩
  have hmark : Prog.Runs (Store.alone (replayWorld now outcome)) (do
        let current ← IntentJournal.require cfg.codec id
        Op.ask (.updateIntent id status current.attempts lastError) : Execution π ρ Unit) s (.ok ())
      s₁ [.loadIntent id, .updateIntent id status row.attempts lastError] :=
    IntentJournal.runs_require_bind h ⟨by rw [hs₁]; rfl, rfl⟩
  obtain ⟨f, hf, hrows, heq⟩ := exists_updateIntent id status row.attempts lastError
    (now (.updateIntent id status row.attempts lastError) s)
  refine ⟨_, _, hmark.bind (Prog.Runs.perform_bind (hlast _)),
    ⟨f, hf, ?_, heq⟩, ⟨[⟨type, cfg.component, severity,
      now (.publish id type cfg.component severity metadata) s₁, metadata⟩], ?_, ?_⟩⟩
  · rw [← hrows, hs₁]
    rfl
  · rw [hs₁]
    rfl
  · simp [Unhandled, htype]

/-- The mark and the event after the function. -/
theorem runs_conclude (operation : String) (op : Operation) (result : Except String ρ) :
    ∃ r s' status lastError event now', Prog.Runs (Store.alone (replayWorld now outcome))
        (conclude cfg operation op id row.attempts result) s r s'
        [.loadIntent id, .updateIntent id status row.attempts lastError, event] ∧
      event.isFunction = false ∧
      (∃ f, RowChange id f ∧ s'.intents = s.intents.map f ∧
        ∀ x, x.id = id → x.attempts = row.attempts → f x = settled op x result now') ∧
      ∃ events, s'.published = s.published ++ events ∧ events.filter Unhandled = [] := by
  cases result with
  | ok value =>
    obtain ⟨s', now', hruns, ⟨f, hf, hrows, heq⟩, hevents⟩ :=
      runs_mark cfg now outcome h .completed none "durable_operation_completed" .info
        [("operation", .str operation), ("intent_id", .str id)] (pure value) (.ok value)
        (Prog.Runs.pure value) (by decide)
    exact ⟨_, s', _, _, _, now', hruns, rfl, ⟨f, hf, hrows, fun x hid hattempts => by
      rw [heq x hid, settled, hattempts]⟩, hevents⟩
  | error exc =>
    simp only [conclude]
    by_cases hexhausted : op.exhausted row.attempts = true
    · rw [if_pos hexhausted]
      obtain ⟨s', now', hruns, ⟨f, hf, hrows, heq⟩, hevents⟩ :=
        runs_mark cfg now outcome h .failed (some exc) "durable_operation_exhausted" .error
          [("operation", .str operation), ("intent_id", .str id), ("attempt", .num row.attempts),
            ("error", .str exc)] (Prog.fail (.durableOperationExhausted operation id row.attempts) :
              Execution π ρ ρ) _ (Prog.Runs.fail _) (by decide)
      exact ⟨_, s', _, _, _, now', hruns, rfl, ⟨f, hf, hrows, fun x hid hattempts => by
        rw [heq x hid, settled, hattempts, if_pos hexhausted]⟩, hevents⟩
    · rw [if_neg hexhausted]
      obtain ⟨s', now', hruns, ⟨f, hf, hrows, heq⟩, hevents⟩ :=
        runs_mark cfg now outcome h .pending (some exc) "durable_operation_retry_pending" .warning
          [("operation", .str operation), ("intent_id", .str id), ("attempt", .num row.attempts),
            ("error", .str exc)] (Prog.fail (.function exc) : Execution π ρ ρ) _
          (Prog.Runs.fail _) (by decide)
      exact ⟨_, s', _, _, _, now', hruns, rfl, ⟨f, hf, hrows, fun x hid hattempts => by
        rw [heq x hid, settled, hattempts, if_neg hexhausted]⟩, hevents⟩

end

/-- The operations that invoke the function of an intent and await it. -/
def invocation (id : IntentId) (payload : π) : List (Op π) := [.call id payload, .outcome id payload]

/-- The operations that count the attempt. -/
def marking (row : IntentRow) : List (Op π) :=
  [.loadIntent row.id, .updateIntent row.id .inProgress (row.attempts + 1) row.lastError]

/-- The event of an attempt that begins. -/
def startedEvent (cfg : Config π) (row : IntentRow) : Op π :=
  .publish row.id "durable_operation_started" cfg.component .info [("operation", .str row.operation),
    ("intent_id", .str row.id), ("attempt", .num ((row.attempts + 1 : Nat) : ℚ))]

/-- The operations of an attempt before its function ends. -/
def beginning (cfg : Config π) (row : IntentRow) : List (Op π) :=
  marking row ++ [startedEvent cfg row, .call row.id (cfg.codec.loads row.payload)]

/-- One attempt of an intent whose row is there. -/
theorem runs_execute (cfg : Config π) (now : Op π → Store π → String)
    (outcome : IntentId → Except String ρ) {s : Store π} {row : IntentRow}
    (h : loadIntent s.intents row.id = some row) (op : Operation) :
    ∃ r s' concluding event, Prog.Runs (Store.alone (replayWorld now outcome))
        (execute cfg row.operation op (rowToIntent cfg.codec row)) s r s'
        (beginning cfg row ++ .outcome row.id (cfg.codec.loads row.payload)
          :: (concluding ++ [event])) ∧
      (∀ o ∈ concluding, o.isReport = false ∧ o.isFunction = false) ∧ event.isFunction = false ∧
      Attempt op row.id row (outcome row.id) s s' := by
  obtain ⟨marked, hmarked⟩ : ∃ marked, marked =
    now (.updateIntent row.id .inProgress (row.attempts + 1) row.lastError) s := ⟨_, rfl⟩
  obtain ⟨f, hf, hrows, heq⟩ := exists_updateIntent row.id .inProgress (row.attempts + 1)
    row.lastError marked
  have hmark : Prog.Runs (Store.alone (replayWorld now outcome))
      (IntentJournal.markInProgress cfg.codec row.id : Execution π ρ _) s
      (.ok { rowToIntent cfg.codec row with status := .inProgress, attempts := row.attempts + 1 })
      { s with intents := s.intents.map f } (marking row) := by
    refine IntentJournal.runs_require_bind h ⟨?_, rfl⟩
    rw [← hrows, hmarked]
    rfl
  -- The stores after the event, the call and the end of the function.
  let payload : π := cfg.codec.loads row.payload
  let s₁ : Store π := { s with intents := s.intents.map f }
  let s₂ : Store π := (Store.alone (replayWorld now outcome) (startedEvent cfg row) s₁).2
  let s₃ : Store π := (Store.alone (replayWorld now outcome) (.call row.id payload) s₂).2
  let s₄ : Store π := (Store.alone (replayWorld now outcome) (.outcome row.id payload) s₃).2
  have hload : loadIntent s₄.intents row.id = some (attempted row marked) := by
    show loadIntent (s.intents.map f) row.id = _
    rw [← hrows, loadIntent_updateIntent, if_pos rfl, h]
    rfl
  obtain ⟨r, s', status, lastError, event, now', hruns, hevent, ⟨g, hg, hgrows, hgeq⟩, events,
    hevents, hquiet⟩ :=
    runs_conclude cfg now outcome hload row.operation op (outcome row.id)
  refine ⟨r, s', [.loadIntent row.id, .updateIntent row.id status (row.attempts + 1) lastError],
    event, ?_, ?_, hevent, ⟨⟨g ∘ f, marked, now', hg.comp hf, ?_, ?_⟩,
    ⟨"durable_operation_started", cfg.component, .info, now (startedEvent cfg row) s₁,
      [("operation", .str row.operation), ("intent_id", .str row.id),
        ("attempt", .num ((row.attempts + 1 : Nat) : ℚ))]⟩ :: events, ?_, ?_⟩⟩
  · rw [execute_eq]
    exact hmark.bind (Prog.Runs.perform_bind (Prog.Runs.perform_bind
      (Prog.Runs.perform_bind hruns)))
  · intro o ho
    rcases List.mem_cons.mp ho with rfl | ho
    · exact ⟨rfl, rfl⟩
    · rw [List.mem_singleton.mp ho]
      exact ⟨rfl, rfl⟩
  · rw [hgrows, ← List.map_map]
    rfl
  · rw [Function.comp, hgeq _ (hf.keeps_id row) (by rw [heq row rfl]; rfl), heq row rfl]
    rfl
  · rw [hevents]
    exact List.append_assoc _ _ _
  · rw [List.filter_cons_of_neg (by simp [Unhandled])]
    exact hquiet

/-! ### One round, and the loop -/

/-- What replaying an intent makes of its row. -/
inductive RowReplayed (cfg : Config π) (outcome : IntentId → Except String ρ) (row row' : IntentRow) :
    Prop where
  | settled (op : Operation) (now now' : String) (hop : cfg.registry row.operation = some op)
      (hrow : row' = settled op (attempted row now) (outcome row.id) now')
  | unhandled (hop : cfg.registry row.operation = none) (hrow : row' = row)

/-- The event for an intent of an operation that is not registered. -/
def unhandledMetadata (row : IntentRow) : List (String × MetadataValue) :=
  [("operation", .str row.operation), ("intent_id", .str row.id)]

/-- The operation of the row is registered. -/
def Handled (cfg : Config π) (row : IntentRow) : Bool := (cfg.registry row.operation).isSome

/-- What is done with functions, and what is published, in the replay of some rows. -/
structure Seen (cfg : Config π) (rows : List IntentRow) (ops : List (Op π)) (s s' : Store π) :
    Prop where
  invoked : ops.filter Op.isFunction
    = (rows.filter (Handled cfg)).flatMap fun row => invocation row.id (cfg.codec.loads row.payload)
  published : ∃ events, s'.published = s.published ++ events ∧
    (events.filter Unhandled).map (·.metadata)
      = (rows.filter fun row => !Handled cfg row).map unhandledMetadata

/-- The event for an intent of an operation that is not registered, as an operation. -/
def unhandledEvent (cfg : Config π) (row : IntentRow) : Op π :=
  .publish row.id "durable_operation_unhandled" cfg.component .warning (unhandledMetadata row)

/-- No exception keeps the intent from being replayed: none of the event that its attempt begins, and
none of `str` after its function, or else none of the event that it is not handled. -/
def Answers (cfg : Config π) (raised : Op π → Option DurableError) (row : IntentRow) : Prop :=
  match cfg.registry row.operation with
  | some _ => raised (startedEvent cfg row) = none ∧
      raised (.outcome row.id (cfg.codec.loads row.payload)) = none
  | none => raised (unhandledEvent cfg row) = none

theorem answers_none (row : IntentRow) : Answers cfg (fun _ => none) row := by
  unfold Answers
  cases cfg.registry row.operation with
  | none => rfl
  | some op => exact ⟨rfl, rfl⟩

/-- Only reports raise. -/
def OnlyReports (raised : Op π → Option DurableError) : Prop :=
  ∀ o : Op π, o.isReport = false → raised o = none

section
variable (cfg now outcome)
variable {raised : Op π → Option DurableError} (hraised : OnlyReports raised)
  {s : Store π} {row : IntentRow} (h : loadIntent s.intents row.id = some row)

theorem answers_of_some {op : Operation} (hop : cfg.registry row.operation = some op) :
    Answers cfg raised row ↔ raised (startedEvent cfg row) = none ∧
      raised (.outcome row.id (cfg.codec.loads row.payload)) = none := by
  unfold Answers
  rw [hop]

include hraised in
theorem raised_marking : ∀ o ∈ marking row, raised o = none :=
  List.forall_mem_cons.mpr ⟨hraised _ rfl, List.forall_mem_singleton.mpr (hraised _ rfl)⟩

include hraised in
theorem raised_beginning (hstarted : raised (startedEvent cfg row) = none) :
    ∀ o ∈ beginning cfg row, raised o = none :=
  List.forall_mem_append.mpr ⟨raised_marking hraised, List.forall_mem_cons.mpr
    ⟨hstarted, List.forall_mem_singleton.mpr (hraised _ rfl)⟩⟩

/-- An attempt in the loop, when nothing is raised by its reports. -/
def attempt (cfg : Config π) (row : IntentRow) (op : Operation) : Execution π ρ Unit := do
  let _ : ρ ← execute cfg row.operation op (rowToIntent cfg.codec row)
  return ()

include h in
theorem runs_attempt (op : Operation) :
    ∃ r s' concluding event, Prog.Runs (Store.alone (replayWorld now outcome))
        (attempt (ρ := ρ) cfg row op) s r s'
        (beginning cfg row ++ .outcome row.id (cfg.codec.loads row.payload)
          :: (concluding ++ [event])) ∧
      (∀ o ∈ concluding, o.isReport = false ∧ o.isFunction = false) ∧ event.isFunction = false ∧
      Attempt op row.id row (outcome row.id) s s' := by
  obtain ⟨r, s', concluding, event, hruns, hrest⟩ := runs_execute cfg now outcome h op
  cases r with
  | ok value =>
    have hbody := hruns.bind (f := fun _ => pure ()) (Prog.Runs.pure () s')
    rw [List.append_nil] at hbody
    exact ⟨_, s', concluding, event, hbody, hrest⟩
  | error e => exact ⟨_, s', concluding, event, hruns.bind_error fun _ => pure (), hrest⟩

section
include hraised h

/-- An attempt whose reports are answered. An exception of its last event comes after everything
else. -/
theorem runs_raising_of_answers {op : Operation} (hop : cfg.registry row.operation = some op)
    (hanswers : Answers cfg raised row) :
    ∃ r s' ops f, Prog.Runs (Store.alone (replayWorld now outcome))
        ((attempt (ρ := ρ) cfg row op).raising raised) s r s' ops ∧
      RowChange row.id f ∧ s'.intents = s.intents.map f ∧ Seen cfg [row] ops s s' ∧
      RowReplayed cfg outcome row (f row) := by
  have hyes : Handled cfg row = true := by rw [Handled, hop]; rfl
  obtain ⟨hstarted, houtcome⟩ := (answers_of_some cfg hop).mp hanswers
  obtain ⟨r, s', concluding, event, hruns, hconcluding, hevent,
    ⟨⟨f, now₁, now₂, hf, hrows, hrow⟩, events, hevents, hquiet⟩⟩ :=
    runs_attempt cfg now outcome h op
  have hsilent : ∀ o ∈ beginning cfg row ++ .outcome row.id (cfg.codec.loads row.payload)
      :: concluding, raised o = none :=
    List.forall_mem_append.mpr ⟨raised_beginning cfg hraised hstarted,
      List.forall_mem_cons.mpr ⟨houtcome, fun o ho => hraised o (hconcluding o ho).1⟩⟩
  rw [← List.cons_append, ← List.append_assoc] at hruns
  have hend : ∃ r', Prog.Runs (Store.alone (replayWorld now outcome))
      ((attempt (ρ := ρ) cfg row op).raising raised) s r' s'
      (beginning cfg row ++ .outcome row.id (cfg.codec.loads row.payload) :: concluding
        ++ [event]) := by
    cases hlast : raised event with
    | none =>
      exact ⟨r, hruns.raising_of_none
        (List.forall_mem_append.mpr ⟨hsilent, List.forall_mem_singleton.mpr hlast⟩)⟩
    | some e =>
      rw [hruns.store_eq]
      exact ⟨_, hruns.raising_of_some hlast hsilent⟩
  obtain ⟨r', hend⟩ := hend
  refine ⟨r', s', _, f, hend, hf, hrows, ⟨?_, events, hevents, ?_⟩, .settled op _ _ hop hrow⟩
  · have hfunctions : concluding.filter Op.isFunction = [] :=
      List.filter_eq_nil_iff.mpr fun o ho => by simp [(hconcluding o ho).2]
    rw [List.filter_append, List.filter_append, List.filter_cons_of_pos (by rfl), hfunctions,
      List.filter_cons_of_neg (by simp [hevent]), List.filter_cons_of_pos hyes]
    rfl
  · rw [hquiet, List.filter_cons_of_neg (by simp [hyes])]
    rfl

/-- An attempt that is cut by a report leaves its mark. -/
theorem runs_raising_of_not_answers {op : Operation} (hop : cfg.registry row.operation = some op)
    (hnot : ¬ Answers cfg raised row) :
    ∃ e s' ops f, Prog.Runs (Store.alone (replayWorld now outcome))
        ((attempt (ρ := ρ) cfg row op).raising raised) s (.error e) s' ops ∧
      RowChange row.id f ∧ s'.intents = s.intents.map f ∧ (f row).status = .inProgress := by
  obtain ⟨r, s', concluding, event, hruns, -⟩ := runs_attempt cfg now outcome h op
  obtain ⟨f, hf, hrows, heq⟩ := exists_updateIntent row.id .inProgress (row.attempts + 1)
    row.lastError (now (.updateIntent row.id .inProgress (row.attempts + 1) row.lastError) s)
  have hmarked : (f row).status = .inProgress := by
    rw [heq row rfl]
    rfl
  cases hstarted : raised (startedEvent cfg row) with
  | some e =>
    rw [beginning, List.append_assoc] at hruns
    refine ⟨e, _, _, f, hruns.raising_of_some hstarted (raised_marking hraised), hf, ?_, hmarked⟩
    rw [← hrows]
    rfl
  | none =>
    cases houtcome : raised (.outcome row.id (cfg.codec.loads row.payload)) with
    | some e =>
      refine ⟨e, _, _, f, hruns.raising_of_some houtcome (raised_beginning cfg hraised hstarted), hf,
        ?_, hmarked⟩
      rw [← hrows]
      rfl
    | none => exact absurd ((answers_of_some cfg hop).mpr ⟨hstarted, houtcome⟩) hnot

end

/-- One round of the loop. It replays its intent as it should, or an exception ends the loop or
leaves the intent IN_PROGRESS. -/
def RoundRuns (cfg : Config π) (now : Op π → Store π → String)
    (outcome : IntentId → Except String ρ) (raised : Op π → Option DurableError) (row : IntentRow)
    (s : Store π) : Prop :=
  ∃ r s' ops f, Prog.Runs (Store.alone (replayWorld now outcome))
      (replayIntent cfg (rowToIntent cfg.codec row) raised) s r s' ops ∧
    RowChange row.id f ∧ s'.intents = s.intents.map f ∧
    (Answers cfg raised row → r = .ok () ∧ Seen cfg [row] ops s s' ∧
      RowReplayed cfg outcome row (f row)) ∧
    (¬ Answers cfg raised row → r ≠ .ok () ∨
      Handled cfg row = true ∧ (f row).status = .inProgress)

/-- An intent of an operation that is not registered. The round is the publication of its event. -/
theorem roundRuns_of_none (raised : Op π → Option DurableError) (s : Store π)
    (hop : cfg.registry row.operation = none) : RoundRuns cfg now outcome raised row s := by
  have hno : Handled cfg row = false := by rw [Handled, hop]; rfl
  have hanswers : Answers cfg raised row ↔ raised (unhandledEvent cfg row) = none := by
    unfold Answers
    rw [hop]
  have hround : (replayIntent cfg (rowToIntent cfg.codec row) raised : Execution π ρ Unit)
      = (Op.ask (unhandledEvent cfg row)).raising raised := by
    unfold replayIntent
    rw [show cfg.registry (rowToIntent cfg.codec row).operation = none from hop]
    rfl
  have hruns : Prog.Runs (Store.alone (replayWorld now outcome))
      (Op.ask (unhandledEvent cfg row) : Execution π ρ Unit) s (.ok ())
      (Store.alone (replayWorld now outcome) (unhandledEvent cfg row) s).2
      [unhandledEvent cfg row] := ⟨rfl, rfl⟩
  have hsame : ((Store.alone (replayWorld now outcome) (unhandledEvent cfg row) s).2).intents
      = s.intents.map id := (List.map_id _).symm
  have hid : RowChange row.id id := ⟨fun _ => rfl, fun _ _ => rfl⟩
  unfold RoundRuns
  rw [hround]
  cases hevent : raised (unhandledEvent cfg row) with
  | some e =>
    -- A handler raises, so the round is cut at its only operation.
    have hnot : ¬ Answers cfg raised row := fun hall => by
      rw [hanswers.mp hall] at hevent
      cases hevent
    have hcut : Prog.Runs (Store.alone (replayWorld now outcome))
        ((Op.ask (unhandledEvent cfg row) : Execution π ρ Unit).raising raised) s (.error e) _ _ :=
      Prog.Runs.raising_of_some hevent (show Prog.Runs _ _ s (.ok ()) _ ([] ++ _) from hruns) nofun
    exact ⟨_, _, _, id, hcut, hid, hsame, fun hall => absurd hall hnot, fun _ => Or.inl nofun⟩
  | none =>
    refine ⟨_, _, _, id, hruns.raising_of_none (by simpa using hevent), hid, hsame,
      fun _ => ⟨rfl, ⟨?_, ⟨[⟨"durable_operation_unhandled", cfg.component, .warning,
        now (unhandledEvent cfg row) s, unhandledMetadata row⟩], rfl, ?_⟩⟩, .unhandled hop rfl⟩,
      fun hnot => absurd (hanswers.mpr hevent) hnot⟩
    · rw [List.filter_cons_of_neg (by simp [unhandledEvent, Op.isFunction]),
        List.filter_cons_of_neg (by simp [hno])]
      rfl
    · rw [List.filter_cons_of_pos (by simp [Unhandled]), List.filter_cons_of_pos (by simp [hno])]
      rfl

section
include hraised h

/-- An intent of a registered operation. The loop goes on whether its execution returns or
raises. -/
theorem roundRuns_of_some {op : Operation} (hop : cfg.registry row.operation = some op) :
    RoundRuns cfg now outcome raised row s := by
  have hyes : Handled cfg row = true := by rw [Handled, hop]; rfl
  have hround {r : Except DurableError Unit} {s' : Store π} {ops : List (Op π)}
      (hruns : Prog.Runs (Store.alone (replayWorld now outcome))
        ((attempt (ρ := ρ) cfg row op).raising raised) s r s' ops) :
      Prog.Runs (Store.alone (replayWorld now outcome))
        (replayIntent cfg (rowToIntent cfg.codec row) raised) s (.ok ()) s' ops := by
    unfold replayIntent
    rw [show cfg.registry (rowToIntent cfg.codec row).operation = some op from hop]
    cases r with
    | ok value => exact hruns.tryExcept_ok fun _ => pure ()
    | error e =>
      have hcaught := hruns.tryExcept_error (fun _ => pure ()) (Prog.Runs.pure () s')
      rw [List.append_nil] at hcaught
      exact hcaught
  by_cases hanswers : Answers cfg raised row
  · obtain ⟨r, s', ops, f, hruns, hf, hrows, hreplayed⟩ :=
      runs_raising_of_answers cfg now outcome hraised h hop hanswers
    exact ⟨_, s', ops, f, hround hruns, hf, hrows, fun _ => ⟨rfl, hreplayed⟩,
      fun hnot => absurd hanswers hnot⟩
  · obtain ⟨e, s', ops, f, hruns, hf, hrows, hmarked⟩ :=
      runs_raising_of_not_answers cfg now outcome hraised h hop hanswers
    exact ⟨_, s', ops, f, hround hruns, hf, hrows, fun hall => absurd hall hanswers,
      fun _ => Or.inr ⟨hyes, hmarked⟩⟩

theorem runs_replayIntent : RoundRuns cfg now outcome raised row s := by
  cases hop : cfg.registry row.operation with
  | none => exact roundRuns_of_none cfg now outcome raised s hop
  | some op => exact roundRuns_of_some cfg now outcome hraised h hop

end

end

/-- What the loop makes of the rows: each row of the queue is replayed, and the others are as
they were. -/
structure LoopChange (cfg : Config π) (outcome : IntentId → Except String ρ)
    (queue rows : List IntentRow) (f : IntentRow → IntentRow) : Prop where
  keeps_id : ∀ row, (f row).id = row.id
  replayed : ∀ row ∈ queue, RowReplayed cfg outcome row (f row)
  others : ∀ row ∈ rows, row ∉ queue → f row = row

/-- The loop has gone through the queue as it should. -/
structure Replays (cfg : Config π) (outcome : IntentId → Except String ρ) (queue : List IntentRow)
    (ops : List (Op π)) (r : Except DurableError Unit) (s s' : Store π)
    (f : IntentRow → IntentRow) : Prop where
  returned : r = .ok ()
  seen : Seen cfg queue ops s s'
  change : LoopChange cfg outcome queue s.intents f

/-- What `g` finds in the operations of a replay, when it finds nothing but functions. -/
theorem Seen.filterMap_eq {β : Type} {rows : List IntentRow} {ops : List (Op π)} {s s' : Store π}
    (h : Seen cfg rows ops s s') {g : Op π → Option β}
    (hg : ∀ o : Op π, o.isFunction = false → g o = none) :
    ops.filterMap g = (rows.filter (Handled cfg)).flatMap fun row =>
      (invocation row.id (cfg.codec.loads row.payload)).filterMap g := by
  have hfilter : (ops.filter Op.isFunction).filterMap g = ops.filterMap g := by
    rw [List.filterMap_filter]
    refine List.filterMap_congr fun o _ => ?_
    cases hfunction : o.isFunction with
    | true => rfl
    | false => exact (hg o hfunction).symm
  rw [← hfilter, h.invoked, List.filterMap_flatMap]

/-- The invocations of a replay. -/
theorem Seen.invocations {rows : List IntentRow} {ops : List (Op π)} {s s' : Store π}
    (h : Seen cfg rows ops s s') : ops.filterMap Op.invocation?
      = (rows.filter (Handled cfg)).map fun row => (row.id, cfg.codec.loads row.payload) := by
  rw [h.filterMap_eq fun o ho => by cases o <;> first | rfl | cases ho]
  exact List.map_eq_flatMap.symm

theorem Seen.append {rows rows' : List IntentRow} {ops ops' : List (Op π)} {s s' s'' : Store π}
    (h : Seen cfg rows ops s s') (h' : Seen cfg rows' ops' s' s'') :
    Seen cfg (rows ++ rows') (ops ++ ops') s s'' where
  invoked := by
    rw [List.filter_append, h.invoked, h'.invoked, List.filter_append, List.flatMap_append]
  published := by
    obtain ⟨events, hevents, hunhandled⟩ := h.published
    obtain ⟨events', hevents', hunhandled'⟩ := h'.published
    refine ⟨events ++ events', by rw [hevents', hevents, List.append_assoc], ?_⟩
    rw [List.filter_append, List.map_append, hunhandled, hunhandled', List.filter_append,
      List.map_append]

/-- The rounds of a queue that has gone through its first round. -/
theorem Replays.cons {row : IntentRow} {queue : List IntentRow} {ops₁ ops₂ : List (Op π)}
    {r : Except DurableError Unit} {s s₁ s₂ : Store π} {f₁ f₂ : IntentRow → IntentRow}
    (hids : (s.intents.map (·.id)).Nodup) (hmem : ∀ x ∈ row :: queue, x ∈ s.intents)
    (hnew : ∀ x ∈ queue, x.id ≠ row.id) (hrows₁ : s₁.intents = s.intents.map f₁)
    (hf₁ : RowChange row.id f₁) (hseen₁ : Seen cfg [row] ops₁ s s₁)
    (hreplayed : RowReplayed cfg outcome row (f₁ row))
    (h : Replays cfg outcome queue ops₂ r s₁ s₂ f₂) :
    Replays cfg outcome (row :: queue) (ops₁ ++ ops₂) r s s₂ (f₂ ∘ f₁) := by
  have hsame : ∀ x ∈ queue, f₁ x = x := fun x hx => hf₁.others x (hnew x hx)
  refine ⟨h.returned, hseen₁.append h.seen, ?_, ?_, ?_⟩
  · exact fun x => (h.change.keeps_id _).trans (hf₁.keeps_id x)
  · intro x hx
    rcases List.mem_cons.mp hx with rfl | hx
    · -- Its id does not come again in the queue.
      have hnot : f₁ x ∉ queue := fun hmem => hnew _ hmem (hf₁.keeps_id x)
      have hmem' : f₁ x ∈ s₁.intents := by
        rw [hrows₁]
        exact List.mem_map_of_mem (hmem x (by simp))
      rw [Function.comp, h.change.others _ hmem' hnot]
      exact hreplayed
    · rw [Function.comp, hsame x hx]
      exact h.change.replayed x hx
  · intro x hx hnot
    obtain ⟨hne, hnot⟩ := not_or.mp (List.mem_cons.not.mp hnot)
    have hx₁ : f₁ x = x := hf₁.others x fun hid =>
      hne (Keyed.eq_of_key_eq hids hx (hmem row (by simp)) hid)
    rw [Function.comp, hx₁]
    refine h.change.others x ?_ hnot
    rw [hrows₁]
    exact List.mem_map.mpr ⟨x, hx, hx₁⟩

variable (cfg now outcome) in
/-- The loop. The induction is on the queue: a round leaves the rows of the later intents as they
were read. -/
theorem runs_replayAll {raised : Op π → Option DurableError} (hraised : OnlyReports raised)
    (queue : List IntentRow) : ∀ s : Store π,
    (s.intents.map (·.id)).Nodup → (queue.map (·.id)).Nodup → (∀ row ∈ queue, row ∈ s.intents) →
    ∃ r s' ops f, Prog.Runs (Store.alone (replayWorld now outcome))
        (replayAll cfg raised (queue.map (rowToIntent cfg.codec))) s r s' ops ∧
      s'.intents = s.intents.map f ∧ (∀ row, row.id ∉ queue.map (·.id) → f row = row) ∧
      ((∀ row ∈ queue, Answers cfg raised row) → Replays cfg outcome queue ops r s s' f) ∧
      ((∃ row ∈ queue, ¬ Answers cfg raised row) → r ≠ .ok () ∨
        ∃ row ∈ queue, Handled cfg row = true ∧ (f row).status = .inProgress) := by
  induction queue with
  | nil =>
    intro s _ _ _
    exact ⟨_, s, [], id, ⟨rfl, rfl⟩, by simp, fun _ _ => rfl, fun _ => ⟨rfl, ⟨rfl, [], by simp, rfl⟩,
      ⟨fun _ => rfl, by simp, fun _ _ _ => rfl⟩⟩, by simp⟩
  | cons row queue ih =>
    intro s hids hqueue hmem
    obtain ⟨hrow, hqueue⟩ := List.nodup_cons.mp hqueue
    have hnew : ∀ x ∈ queue, x.id ≠ row.id := fun x hx hid =>
      hrow (List.mem_map.mpr ⟨x, hx, hid⟩)
    obtain ⟨r₁, s₁, ops₁, f₁, hruns₁, hf₁, hrows₁, hall₁, hnot₁⟩ :=
      runs_replayIntent cfg now outcome hraised (loadIntent_of_mem hids (hmem row (by simp)))
    -- The round of `row` changes no row that comes later.
    have hsame : ∀ x ∈ queue, f₁ x = x := fun x hx => hf₁.others x (hnew x hx)
    cases r₁ with
    | error e =>
      have hunanswered : ¬ Answers cfg raised row := fun hanswers => by
        cases (hall₁ hanswers).1
      refine ⟨.error e, s₁, ops₁, f₁, hruns₁.bind_error _, hrows₁, fun x hx => ?_, fun hall => ?_,
        fun _ => Or.inl (by simp)⟩
      · exact hf₁.others x fun hid => hx (by simp [hid])
      · exact absurd (hall row (by simp)) hunanswered
    | ok value =>
      have hids₁ : (s₁.intents.map (·.id)).Nodup := by
        rw [hrows₁, Keyed.map_key_map hf₁.keeps_id]
        exact hids
      have hmem₁ : ∀ x ∈ queue, x ∈ s₁.intents := by
        intro x hx
        rw [hrows₁]
        exact List.mem_map.mpr ⟨x, hmem x (by simp [hx]), hsame x hx⟩
      obtain ⟨r₂, s₂, ops₂, f₂, hruns₂, hrows₂, hothers₂, hall₂, hnot₂⟩ := ih s₁ hids₁ hqueue hmem₁
      refine ⟨r₂, s₂, ops₁ ++ ops₂, f₂ ∘ f₁, hruns₁.bind hruns₂, ?_, fun x hx => ?_, fun hall => ?_,
        ?_⟩
      · rw [hrows₂, hrows₁, List.map_map]
      · rw [List.map_cons, List.mem_cons, not_or] at hx
        rw [Function.comp, hf₁.others x hx.1, hothers₂ x hx.2]
      · obtain ⟨-, hseen₁, hreplayed⟩ := hall₁ (hall row (by simp))
        exact (hall₂ fun x hx => hall x (by simp [hx])).cons hids hmem hnew hrows₁ hf₁ hseen₁ hreplayed
      · rintro ⟨x, hx, hunanswered⟩
        rcases List.mem_cons.mp hx with rfl | hx
        · -- The rows of the later rounds are other ones.
          obtain hraises | ⟨hhandled, hstatus⟩ := hnot₁ hunanswered
          · exact absurd rfl hraises
          · refine Or.inr ⟨x, by simp, hhandled, ?_⟩
            rw [Function.comp, hothers₂ _ (by rwa [hf₁.keeps_id])]
            exact hstatus
        · obtain hraises | ⟨y, hy, hhandled, hstatus⟩ := hnot₂ ⟨x, hx, hunanswered⟩
          · exact Or.inl hraises
          · refine Or.inr ⟨y, by simp [hy], hhandled, ?_⟩
            rw [Function.comp, hsame y hy]
            exact hstatus

/-- What `replay_pending` makes of a row. -/
def RowAfter (cfg : Config π) (outcome : IntentId → Except String ρ) (row row' : IntentRow) : Prop :=
  if Unfinished row.status = true ∧ Handled cfg row = true then
    row'.id = row.id ∧ row'.operation = row.operation ∧ row'.payload = row.payload ∧
    row'.createdAt = row.createdAt ∧ row'.attempts = row.attempts + 1 ∧
    row'.status = match outcome row.id with
      | .ok _ => .completed
      | .error _ =>
        if (cfg.registry row.operation).any (·.exhausted (row.attempts + 1)) then .failed
        else .pending
  else row' = row

theorem rowAfter_of_replayed {row row' : IntentRow} (hstatus : Unfinished row.status = true)
    (h : RowReplayed cfg outcome row row') : RowAfter cfg outcome row row' := by
  unfold RowAfter Handled
  cases h with
  | settled op now now' hop hrow =>
    rw [if_pos ⟨hstatus, by rw [hop]; rfl⟩, hrow, hop]
    cases outcome row.id with
    | ok value => exact ⟨rfl, rfl, rfl, rfl, rfl, rfl⟩
    | error e => exact ⟨rfl, rfl, rfl, rfl, rfl, rfl⟩
  | unhandled hop hrow =>
    rw [if_neg (by simp [hop])]
    exact hrow

/-! ### `replay_pending` -/

/-- Nothing keeps the intent of the row from being replayed. For one of a registered operation, the
event that its attempt begins meets handlers that return awaitables, and `str` returns for an
exception of its function. For another one, the event that it is not handled meets such handlers. -/
def Answered (cfg : Config π) (outcome : IntentId → Except String ρ) (r : Reporting)
    (row : IntentRow) : Prop :=
  match cfg.registry row.operation with
  | some _ => (r.audience "durable_operation_started" row.id).Awaitables ∧
      ∀ e, outcome row.id = .error e → r.unprintable row.id = none
  | none => (r.audience "durable_operation_unhandled" row.id).Awaitables

theorem onlyReports_raised (outcome : IntentId → Except String ρ) (r : Reporting) :
    OnlyReports (r.raised outcome : Op π → Option DurableError) := by
  intro o ho
  cases o with
  | outcome id payload => cases ho
  | publish id type component severity metadata => cases ho
  | _ => rfl

theorem raised_publish_iff {r : Reporting} {id : IntentId} {type component : String}
    {severity : Severity} {metadata : List (String × MetadataValue)} :
    r.raised outcome (.publish id type component severity metadata : Op π) = none ↔
      (r.audience type id).Awaitables :=
  Option.map_eq_none_iff.trans (Core.raised_eq_none_iff _ _)

theorem raised_outcome_iff {r : Reporting} {id : IntentId} {payload : π} :
    r.raised outcome (.outcome id payload) = none ↔
      ∀ e, outcome id = .error e → r.unprintable id = none := by
  simp only [Reporting.raised]
  cases outcome id with
  | ok value => simp
  | error e => simp

/-- An execution in `System` is one whose reports do not raise. -/
theorem raising_of_awaitables {α : Type} {r : Reporting}
    (hawaitables : ∀ type id, (r.audience type id).Awaitables)
    (hprintable : ∀ id, r.unprintable id = none) (p : Execution π ρ α) :
    p.raising (r.raised outcome) = p := by
  refine Prog.raising_eq_self (fun o => ?_) p
  cases o with
  | outcome id payload => exact raised_outcome_iff.mpr fun _ _ => hprintable id
  | publish id type component severity metadata =>
    exact raised_publish_iff.mpr (hawaitables type id)
  | _ => rfl

theorem answers_raised_iff {r : Reporting} {row : IntentRow} :
    Answers cfg (r.raised outcome) row ↔ Answered cfg outcome r row := by
  unfold Answers Answered
  cases cfg.registry row.operation with
  | none => exact raised_publish_iff
  | some op => exact and_congr raised_publish_iff raised_outcome_iff

/-- A row that is left IN_PROGRESS has not been replayed. -/
theorem not_rowAfter_of_inProgress {row row' : IntentRow} (hstatus : Unfinished row.status = true)
    (hhandled : Handled cfg row = true) (hleft : row'.status = .inProgress) :
    ¬ RowAfter cfg outcome row row' := by
  intro h
  unfold RowAfter at h
  rw [if_pos ⟨hstatus, hhandled⟩, hleft] at h
  obtain ⟨-, -, -, -, -, hended⟩ := h
  cases houtcome : outcome row.id with
  | ok value =>
    rw [houtcome] at hended
    cases hended
  | error e =>
    rw [houtcome] at hended
    dsimp only at hended
    split at hended <;> cases hended

/-- `replay_pending` on a journal that `IntentJournal` has written. It does not raise. It invokes
the functions of the unfinished intents whose operations are registered, each once, with the
payload of its intent and in the order of recording. It counts the attempts of those intents and
finishes them by their outcomes, and leaves the other rows. It publishes one event for each
unfinished intent whose operation is not registered. It does all this exactly when nothing keeps an
unfinished intent from being replayed. -/
theorem replayPending_run (cfg : Config π) (now : Op π → Store π → String)
    (outcome : IntentId → Except String ρ) (r : Reporting) (calls : List (String × JournalCall π))
    (history : IntentId → List (Entry π)) (published : List (Event String)) :
    let l := Ledger.run cfg.codec calls
    let s : Store π := ⟨l.table.rows.map (·.row), history, published⟩
    (∃ s' ops, Prog.Runs (Store.alone (replayWorld now outcome))
        (replayPending cfg s (r.raised outcome)) s (.ok ()) s' ops ∧
      ops.filterMap Op.invocation?
        = ((unfinished l.log).filter fun r => (cfg.registry r.operation).isSome).map
            (fun r => (r.id, (r.reread cfg.codec).payload)) ∧
      (∃ f, s'.intents = s.intents.map f ∧ ∀ row ∈ s.intents, RowAfter cfg outcome row (f row)) ∧
      ∃ events, s'.published = s.published ++ events ∧
        (events.filter Unhandled).map (·.metadata)
          = ((unfinished l.log).filter fun r => !(cfg.registry r.operation).isSome).map
              fun r => [("operation", .str r.operation), ("intent_id", .str r.id)]) ↔
      ∀ row ∈ s.intents, Unfinished row.status = true → Answered cfg outcome r row := by
  intro l s
  obtain ⟨rows, hmatches, hholds⟩ := ledgerInv_run cfg.codec calls
  have hintents : s.intents = rows := hmatches.rows_eq
  have hids : (s.intents.map (·.id)).Nodup := by
    rw [hintents]
    exact hholds.ids_distinct
  obtain ⟨r', s', ops, f, hruns, hrows, -, hall, hnot⟩ :=
    runs_replayAll cfg now outcome (onlyReports_raised outcome r)
      (loadIntentsByStatus s.intents [.pending, .inProgress]) s hids
      (hids.sublist (List.filter_sublist.map _)) fun row hrow => (List.mem_filter.mp hrow).1
  constructor
  · rintro ⟨s'', ops', hruns', -, ⟨g, hgrows, hafter⟩, -⟩ row hrow hstatus
    by_contra hunanswered
    obtain ⟨rfl, rfl⟩ := Prod.mk.inj (hruns.exec.symm.trans hruns'.exec)
    obtain hraises | ⟨x, hx, hhandled, hleft⟩ :=
      hnot ⟨row, List.mem_filter.mpr ⟨hrow, hstatus⟩, mt answers_raised_iff.mp hunanswered⟩
    · exact hraises rfl
    · obtain ⟨hx, hxstatus⟩ := List.mem_filter.mp hx
      rw [List.map_inj_left.mp (hrows.symm.trans hgrows) x hx] at hleft
      exact not_rowAfter_of_inProgress hxstatus hhandled hleft (hafter x hx)
  · intro hanswered
    obtain ⟨rfl, hseen, hf⟩ := hall fun row hrow =>
      answers_raised_iff.mpr (hanswered row (List.mem_filter.mp hrow).1 (List.mem_filter.mp hrow).2)
    refine ⟨s', ops, hruns, ?_, ⟨f, hrows, fun row hrow => ?_⟩, ?_⟩
    · rw [hseen.invocations, hintents]
      exact hholds.unfinished_map (fun k => (cfg.registry k.2.1).isSome)
        fun k => (k.1, cfg.codec.loads k.2.2.1)
    · by_cases hstatus : Unfinished row.status = true
      · exact rowAfter_of_replayed hstatus
          (hf.replayed row (List.mem_filter.mpr ⟨hrow, hstatus⟩))
      · unfold RowAfter
        rw [if_neg fun h => hstatus h.1]
        exact hf.others row hrow fun hmem => hstatus (List.mem_filter.mp hmem).2
    · obtain ⟨events, hevents, hunhandled⟩ := hseen.published
      refine ⟨events, hevents, ?_⟩
      rw [hunhandled, hintents]
      exact hholds.unfinished_map (fun k => !(cfg.registry k.2.1).isSome)
        fun k => [("operation", MetadataValue.str k.2.1), ("intent_id", MetadataValue.str k.1)]

/-- A runtime with one durable operation. -/
def sendsReadings : Config Nat where
  codec := ⟨fun _ => .ok "7", fun _ => 7⟩
  component := "edge"
  registry operation :=
    if operation = "send_reading" then (Operation.build none).toOption else none

/-- The journal has an intent of an operation that is not registered any more, and then one of
`send_reading`. The `TypeError` of a handler ends the replay at the first one. -/
theorem handler_ends_replay :
    ¬ ∀ (cfg : Config Nat) (outcome : IntentId → Except String Nat) (r : Reporting)
      (calls : List (String × JournalCall Nat)),
      let s : Store Nat :=
        ⟨(Ledger.run cfg.codec calls).table.rows.map (·.row), fun _ => [], []⟩
      ∃ s' ops, Prog.Runs (Store.alone (replayWorld (fun _ _ => "") outcome))
        (replayPending cfg s (r.raised outcome)) s (.ok ()) s' ops := by
  intro h
  obtain ⟨s', ops, hruns⟩ := h sendsReadings (fun _ => .ok 7) { audience := fun _ _ => Core.uncallable }
    [("", .method (.record "a" "flush_queue" 7)), ("", .method (.record "b" "send_reading" 7))]
  cases hruns.exec

end EdgeSentinel.Proofs.Durability
