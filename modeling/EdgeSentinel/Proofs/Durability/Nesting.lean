import EdgeSentinel.Durability.Nesting
import EdgeSentinel.Proofs.Durability.Recovery

/-!
# `EdgeSentinel.Proofs.Durability.Nesting`: replay of functions that call durable functions

`start()` replays before it sets `_started`. So a durable call that a replayed body makes raises
RuntimeNotStartedError and does not reach the journal (`call_notStarted`), and the body ends as it
does when each of its durable calls raises that (`invoke_notStarted`). With this outcome the replay
is the one of `Recovery.lean` (`replay_runs`).
-/

set_option autoImplicit false

namespace EdgeSentinel.Proofs.Durability

open Coroutine EdgeSentinel.Core
open EdgeSentinel.Durability

variable {π ρ : Type} {cfg : Config π}

/-- What a durable call answers before the runtime has started. -/
def notStarted (c : DurableCall cfg) : Except DurableError ρ :=
  .error (.runtimeNotStarted c.operation)

/-- The body returns also when each durable call that it makes raises RuntimeNotStartedError. -/
def Tolerates (body : Body cfg ρ) : Prop := ∃ value, body.answered notStarted = .ok value

section
variable (app : Application cfg ρ)

/-- On a started runtime with the store `s`, the function of the operation returns. -/
def ReturnsLive (operation : String) (payload : π) (s : Store π) : Prop :=
  ∃ depth value s', app.invoke true depth operation payload s = some (.ok value, s')

/-- A durable call during a replay raises before it reaches the journal. -/
theorem call_notStarted (depth : Nat) (c : DurableCall cfg) (s : Store π) :
    app.call false (depth + 1) c s = some (notStarted c, s) := rfl

theorem invoke_notStarted (depth : Nat) (operation : String) (payload : π) (s : Store π) :
    app.invoke false (depth + 1) operation payload s
      = some ((app.body operation payload).answered notStarted, s) :=
  Prog.interp_eq_answered (call_notStarted app depth) _ s

end

/-! ### The functions that a replay awaits -/

/-- The function that an operation awaits. -/
def awaited? : Op π → Option (IntentId × π)
  | .outcome id payload => some (id, payload)
  | _ => none

/-- A replay awaits the functions that it invokes. -/
theorem Seen.awaited {rows : List IntentRow} {ops : List (Op π)} {s s' : Store π}
    (h : Seen cfg rows ops s s') : ops.filterMap awaited?
      = (rows.filter (Handled cfg)).map fun row => (row.id, cfg.codec.loads row.payload) := by
  rw [h.filterMap_eq fun o ho => by cases o <;> first | rfl | cases ho]
  exact List.map_eq_flatMap.symm

/-- How a function ended, in the history of its intent. -/
def ending? : Entry π → Option (Except String Unit)
  | .returned .. => some (.ok ())
  | .raised e _ => some (.error e)
  | _ => none

/-- How the function of an intent ended, each time. -/
def endings (s : Store π) (id : IntentId) : List (Except String Unit) :=
  (s.history id).filterMap ending?

theorem endings_log (s : Store π) (id id' : IntentId) (entry : Entry π) :
    endings (s.log id' entry) id
      = endings s id ++ if id' = id then (ending? entry).toList else [] := by
  by_cases h : id' = id
  · subst h
    rw [endings, Store.log_history, Function.update_self, List.filterMap_append, if_pos rfl]
    cases hentry : ending? entry <;> simp [endings, hentry]
  · have hne : id ≠ id' := fun heq => h heq.symm
    rw [endings, Store.log_history, Function.update_of_ne hne, if_neg h, List.append_nil, endings]

/-- The endings that an operation adds. -/
theorem endings_perform (o : Op π) (x : Answer ρ) (s : Store π) (id : IntentId) :
    endings (s.perform o x).2 id = endings s id ++
      ((awaited? o).toList.filter (·.1 = id)).map fun _ => x.result.map fun _ => () := by
  cases o with
  | insertIntent id' operation payload =>
    simp only [Store.perform]
    cases insertIntent s.intents id' operation payload x.now with
    | error e => simp [awaited?]
    | ok intents =>
      show endings (Store.log { s with intents := intents } id' (.recorded operation payload)) id = _
      rw [endings_log]
      simp [awaited?, ending?, endings]
  | call id' payload => simp [Store.perform, endings_log, awaited?, ending?]
  | outcome id' payload =>
    rw [Store.perform, endings_log]
    by_cases h : id' = id
    · cases x.result <;> simp [awaited?, Entry.ended, ending?, h, Except.map]
    · simp [awaited?, h]
  | updateIntent id' status attempts lastError => simp [Store.perform, awaited?, endings]
  | loadIntent id' => simp [Store.perform, awaited?]
  | publish id' type component severity metadata => simp [Store.perform, awaited?, endings]

section
variable {now : Op π → Store π → String} {outcome : IntentId → Except String ρ}

/-- The same in a replay, where the ending is the outcome of the intent. -/
theorem endings_alone (o : Op π) (s : Store π) (id : IntentId) :
    endings (Store.alone (replayWorld now outcome) o s).2 id = endings s id ++
      ((awaited? o).toList.filter (·.1 = id)).map fun _ => (outcome id).map fun _ => () := by
  rw [Store.alone, endings_perform]
  refine congrArg (endings s id ++ ·) (List.map_congr_left fun key hkey => ?_)
  obtain ⟨hawaited, hid⟩ := List.mem_filter.mp hkey
  have ho : o.id = id := by
    cases o with
    | outcome id' payload =>
      rw [List.mem_singleton.mp hawaited] at hid
      exact of_decide_eq_true hid
    | _ => cases hawaited
  rw [replayWorld, ho]

/-- The endings that a program adds. -/
theorem endings_runs {α : Type} (id : IntentId) (p : Execution π ρ α) :
    ∀ {s s' : Store π} {r : Except DurableError α} {ops : List (Op π)},
      Prog.Runs (Store.alone (replayWorld now outcome)) p s r s' ops →
      endings s' id = endings s id ++
        ((ops.filterMap awaited?).filter (·.1 = id)).map fun _ => (outcome id).map fun _ => () := by
  induction p with
  | done a =>
    intro s s' r ops h
    obtain ⟨rfl, rfl⟩ : s = s' ∧ [] = ops := ⟨congrArg Prod.snd h.exec, h.trace⟩
    simp
  | fail e =>
    intro s s' r ops h
    obtain ⟨rfl, rfl⟩ : s = s' ∧ [] = ops := ⟨congrArg Prod.snd h.exec, h.trace⟩
    simp
  | ask o k ih =>
    intro s s' r ops h
    have hsplit (ops : List (Op π)) :
        (o :: ops).filterMap awaited? = (awaited? o).toList ++ ops.filterMap awaited? := by
      rw [List.filterMap_cons]
      cases awaited? o <;> rfl
    rw [ih _ ⟨h.exec, rfl⟩, endings_alone, ← h.trace, Prog.trace, hsplit, List.filter_append,
      List.map_append, List.append_assoc]

end

/-! ### A replay of bodies -/

section
variable (app : Application cfg ρ)

/-- How the function of each intent of a replay set ends. -/
def replayOutcome (queue : List (Intent π)) (id : IntentId) : Except String ρ :=
  match queue.find? fun intent => intent.id = id with
  | some intent => (app.body intent.operation intent.payload).answered notStarted
  | none => .error "not in the replay set"

variable {rows : List IntentRow} (hrows : (rows.map (·.id)).Nodup)
include hrows

/-- The intent of a row of the replay set is found by its id. -/
theorem find?_replaySet (codec : JsonCodec π) {row : IntentRow} (hrow : row ∈ rows) :
    ((rows.map (rowToIntent codec)).find? fun intent => intent.id = row.id)
      = some (rowToIntent codec row) := by
  have hids : ((rows.map (rowToIntent codec)).map (·.id)).Nodup := by
    rw [List.map_map]
    exact hrows
  exact Keyed.find?_of_mem hids (List.mem_map_of_mem hrow)

theorem replayOutcome_of_mem {row : IntentRow} (hrow : row ∈ rows) :
    replayOutcome app (rows.map (rowToIntent cfg.codec)) row.id
      = (app.body (rowToIntent cfg.codec row).operation
          (rowToIntent cfg.codec row).payload).answered notStarted := by
  rw [replayOutcome, find?_replaySet hrows cfg.codec hrow]

/-- Replaying the bodies is replaying their outcomes. -/
theorem replay_runs (depth : Nat) {s s' : Store π} {ops : List (Op π)}
    {r : Except DurableError Unit}
    (hpending : IntentJournal.pending cfg.codec s.intents = rows.map (rowToIntent cfg.codec))
    (h : Prog.Runs (Store.alone (replayWorld app.now
      (replayOutcome app (rows.map (rowToIntent cfg.codec))))) (replayPending cfg s) s r s' ops)
    (hseen : Seen cfg rows ops s s') : app.replay (depth + 1) s = some (r, s') := by
  rw [Application.replay, hpending]
  -- Only the awaited functions are answered by bodies, and each is one of the replay set.
  refine h.interp fun o ho t => ?_
  cases o with
  | outcome id payload =>
    have hawaited : (id, payload) ∈ ops.filterMap awaited? :=
      List.mem_filterMap.mpr ⟨_, ho, rfl⟩
    rw [hseen.awaited] at hawaited
    obtain ⟨row, hrow, heq⟩ := List.mem_map.mp hawaited
    obtain ⟨rfl, rfl⟩ := Prod.mk.inj heq
    have hmem := (List.mem_filter.mp hrow).1
    simp only [Application.answer, find?_replaySet hrows cfg.codec hmem, Store.alone, replayWorld,
      Op.id, replayOutcome_of_mem app hrows hmem, rowToIntent, invoke_notStarted]
  | insertIntent id operation payload => rfl
  | updateIntent id status attempts lastError => rfl
  | loadIntent id => rfl
  | call id payload => rfl
  | publish id type component severity metadata => rfl

end

/-- A replay runs the function of the intent once. It returns, and the intent is COMPLETED. -/
structure ReplayReturns (s s' : Store π) (id : IntentId) : Prop where
  returned : endings s' id = endings s id ++ [.ok ()]
  completed : ∃ row, loadIntent s'.intents id = some row ∧ row.status = .completed

/-- A replay ends the function of an intent with its outcome. -/
theorem endings_replay {now : Op π → Store π → String} {outcome : IntentId → Except String ρ}
    {rows : List IntentRow} (hrows : (rows.map (·.id)).Nodup) {row : IntentRow} (hrow : row ∈ rows)
    (hhandled : Handled cfg row = true) {s s' : Store π} {ops : List (Op π)}
    {r : Except DurableError Unit}
    (h : Prog.Runs (Store.alone (replayWorld now outcome)) (replayPending cfg s) s r s' ops)
    (hseen : Seen cfg rows ops s s') :
    endings s' row.id = endings s row.id ++ [(outcome row.id).map fun _ => ()] := by
  -- Of the rows that are replayed, `row` is the one with its id.
  have hone : [row] = (rows.filter (Handled cfg)).filter fun x => x.id = row.id := by
    have hmem : row ∈ rows.filter (Handled cfg) := List.mem_filter.mpr ⟨hrow, hhandled⟩
    have hids : ((rows.filter (Handled cfg)).map (·.id)).Nodup :=
      hrows.sublist (List.filter_sublist.map _)
    rw [← Keyed.filter_eq_of_sublist (List.singleton_sublist.mpr hmem) hids.of_map]
    · simp
    · intro y hy hid
      rw [Keyed.eq_of_key_eq hids hy hmem (of_decide_eq_true hid)]
      exact List.mem_singleton_self row
  rw [endings_runs row.id _ h, hseen.awaited, List.filter_map]
  show _ ++ ((((rows.filter (Handled cfg)).filter fun x => x.id = row.id).map _).map _) = _
  rw [← hone]
  rfl

/-- A row is COMPLETED by a replay if its function returns. -/
theorem completed_iff {outcome : IntentId → Except String ρ} {row row' : IntentRow}
    (hhandled : Handled cfg row = true) (h : RowReplayed cfg outcome row row') :
    row'.status = .completed ↔ ∃ value, outcome row.id = .ok value := by
  cases h with
  | unhandled hop hrow => simp [Handled, hop] at hhandled
  | settled op now now' hop hrow =>
    rw [hrow]
    cases outcome row.id with
    | ok value => exact ⟨fun _ => ⟨value, rfl⟩, fun _ => rfl⟩
    | error e =>
      constructor
      · intro hstatus
        simp only [settled, IntentRow.update] at hstatus
        split at hstatus <;> cases hstatus
      · rintro ⟨value, hvalue⟩
        cases hvalue

/-- The replay of an intent, for every application and every journal that `IntentJournal` has
written. Where a body returns live, its replay returns and completes the intent if and only if the
body tolerates that its durable calls raise RuntimeNotStartedError. -/
theorem replayReturns_iff (app : Application cfg ρ) (calls : List (String × JournalCall π))
    (history : IntentId → List (Entry π)) (published : List (Event String)) :
    let s : Store π :=
      ⟨(Ledger.run cfg.codec calls).table.rows.map (·.row), history, published⟩
    ∃ s', (∀ depth, app.replay (depth + 1) s = some (.ok (), s')) ∧
      ∀ intent ∈ IntentJournal.pending cfg.codec s.intents,
        (cfg.registry intent.operation).isSome → ∀ live : Store π,
        ((ReturnsLive app intent.operation intent.payload live → ReplayReturns s s' intent.id) ↔
          (ReturnsLive app intent.operation intent.payload live →
            Tolerates (app.body intent.operation intent.payload))) := by
  intro s
  obtain ⟨rows, hmatches, hholds⟩ := ledgerInv_run cfg.codec calls
  have hids : (s.intents.map (·.id)).Nodup := by
    rw [show s.intents = rows from hmatches.rows_eq]
    exact hholds.ids_distinct
  let queue := loadIntentsByStatus s.intents [.pending, .inProgress]
  have hqueue : (queue.map (·.id)).Nodup := hids.sublist (List.filter_sublist.map _)
  obtain ⟨r, s', ops, f, hruns, hrows, -, hall, -⟩ := runs_replayAll cfg app.now
    (replayOutcome app (queue.map (rowToIntent cfg.codec))) (fun _ _ => rfl) queue s hids hqueue
    fun row hrow => (List.mem_filter.mp hrow).1
  obtain ⟨rfl, hseen, hf⟩ := hall fun row _ => answers_none row
  refine ⟨s', fun depth => replay_runs app hqueue depth rfl hruns hseen, ?_⟩
  intro intent hintent hhandled live
  obtain ⟨row, hrow, rfl⟩ := List.mem_map.mp hintent
  -- The replay ends the function with the answer of its body, and settles its row by it.
  have hending := endings_replay hqueue hrow hhandled hruns hseen
  have hcompleted := completed_iff hhandled (hf.replayed row hrow)
  rw [replayOutcome_of_mem app hqueue hrow] at hending hcompleted
  have hload : loadIntent s'.intents row.id = some (f row) := by
    rw [← hf.keeps_id row]
    refine loadIntent_of_mem ?_ ?_
    · rw [hrows, Keyed.map_key_map hf.keeps_id]
      exact hids
    · rw [hrows]
      exact List.mem_map_of_mem (List.mem_filter.mp hrow).1
  refine imp_congr_right fun _ => ⟨fun h => ?_, fun ⟨value, hvalue⟩ => ⟨?_, f row, hload, ?_⟩⟩
  · obtain ⟨row', hrow', hstatus⟩ := h.completed
    obtain rfl : f row = row' := Option.some.inj (hload.symm.trans hrow')
    exact hcompleted.mp hstatus
  · show endings s' row.id = endings s row.id ++ [.ok ()]
    rw [hending, hvalue]
    rfl
  · exact hcompleted.mpr ⟨value, hvalue⟩

/-! ### A function that calls another -/

/-- A runtime with two durable operations, whose payloads are one number. -/
def readAndStore : Config Nat where
  codec := ⟨fun _ => .ok "7", fun _ => 7⟩
  component := "edge"
  registry operation :=
    if operation = "send_reading" ∨ operation = "store_reading" then (Operation.build none).toOption
    else none

/-- `send_reading` awaits `store_reading` and lets its exception through. `store_reading` returns. -/
def sendsAndStores : Application readAndStore Nat where
  body operation payload :=
    if operation = "send_reading" then
      .ask ⟨"store_reading", rfl, payload⟩ fun
        | .ok value => .done value
        | .error _ => .fail "store_reading raised"
    else .done payload
  now _ _ := ""
  uuid _ := "b"

/-- The journal has an intent of `send_reading`. Its function returns live. The replay runs it, it
raises, and the intent is left PENDING. -/
theorem nestedCall_left_pending : ∃ (s s' : Store Nat),
    s.intents = (Ledger.run readAndStore.codec
      [("", .method (.record "a" "send_reading" 7))]).table.rows.map (·.row) ∧
    (IntentJournal.pending readAndStore.codec s.intents).map
      (fun intent => (intent.id, intent.operation, intent.payload)) = [("a", "send_reading", 7)] ∧
    ReturnsLive sendsAndStores "send_reading" 7 s ∧
    sendsAndStores.replay 1 s = some (.ok (), s') ∧
    endings s' "a" = [.error "store_reading raised"] ∧
    (loadIntent s'.intents "a").map (·.status) = some .pending ∧ ¬ ReplayReturns s s' "a" := by
  let s : Store Nat := ⟨[.new "a" "send_reading" "7" ""], fun _ => [], []⟩
  have hlive : (sendsAndStores.invoke true 1 "send_reading" 7 s).map Prod.fst = some (.ok 7) := rfl
  obtain ⟨⟨_, after⟩, hinvoked, rfl⟩ := Option.map_eq_some_iff.mp hlive
  have hreplay : (sendsAndStores.replay 1 s).map (fun p => (p.1, endings p.2 "a",
      (loadIntent p.2.intents "a").map (·.status)))
      = some (.ok (), [.error "store_reading raised"], some .pending) := rfl
  obtain ⟨⟨r, s'⟩, hs', heq⟩ := Option.map_eq_some_iff.mp hreplay
  obtain ⟨rfl, hendings, hstatus⟩ : r = .ok () ∧ endings s' "a" = [.error "store_reading raised"] ∧
      (loadIntent s'.intents "a").map (·.status) = some .pending := by simpa using heq
  refine ⟨s, s', rfl, rfl, ⟨1, _, after, hinvoked⟩, hs', hendings, hstatus, fun h => ?_⟩
  obtain ⟨row, hrow, hcompleted⟩ := h.completed
  rw [hrow] at hstatus
  simp [hcompleted] at hstatus

end EdgeSentinel.Proofs.Durability
