import EdgeSentinel.Core.EventBus
import EdgeSentinel.Library.Coroutine
import Mathlib.Logic.Function.Basic

/-!
# `EdgeSentinel.Durability.Journal`: the intent journal

The table `intents` is a list of rows in rowid order. An INSERT takes the next rowid, so it
appends. `insertIntent`, `updateIntent`, `loadIntent` and `loadIntentsByStatus` are the four
statements of `persistence/database.py` that the journal issues. Each is one atomic step.

The methods of `IntentJournal` are coroutines over these statements, so another execution or
a crash can fall between the SELECT and the UPDATE of a mark.

`Store` holds the table and, for every intent, the `history` of what happened to it: when it
was recorded, and when its function was invoked, returned or raised. The code does not read
the history. An entry keeps the row as it was stored at that moment. `Cell` is what the
store holds for one intent.
-/

set_option autoImplicit false

namespace EdgeSentinel.Durability

open Coroutine EdgeSentinel.Core

/-- Lifecycle status of a single intent. The column holds the value of the status. -/
inductive IntentStatus where
  | pending
  | inProgress
  | completed
  | failed
  deriving DecidableEq, Repr

/-- A UUID4 hex string. -/
abbrev IntentId := String

/-- A row of the table `intents`. -/
structure IntentRow where
  id : IntentId
  operation : String
  payload : String
  status : IntentStatus
  attempts : Nat
  lastError : Option String
  createdAt : String
  updatedAt : String
  deriving DecidableEq, Repr

/-- A journal record. The payload is decoded. -/
structure Intent (π : Type) where
  id : IntentId
  operation : String
  payload : π
  status : IntentStatus
  attempts : Nat
  lastError : Option String
  createdAt : String
  updatedAt : String

/-- `json.dumps` and `json.loads` on payloads. `dumps` may raise a `TypeError`. -/
structure JsonCodec (π : Type) where
  dumps : π → Except String String
  loads : String → π

/-! ### Statements -/

/-- The row that `insert_intent` writes. -/
def IntentRow.new (id : IntentId) (operation payload now : String) : IntentRow where
  id := id
  operation := operation
  payload := payload
  status := .pending
  attempts := 0
  lastError := none
  createdAt := now
  updatedAt := now

/-- What `update_intent` does to the row. -/
def IntentRow.update (row : IntentRow) (status : IntentStatus) (attempts : Nat)
    (lastError : Option String) (now : String) : IntentRow :=
  { row with status := status, attempts := attempts, lastError := lastError, updatedAt := now }

/-- SELECT by primary key. -/
def loadIntent (rows : List IntentRow) (id : IntentId) : Option IntentRow :=
  rows.find? fun row => row.id = id

/-- INSERT. The id is the primary key. -/
def insertIntent (rows : List IntentRow) (id : IntentId) (operation payload now : String) :
    Except String (List IntentRow) :=
  match loadIntent rows id with
  | some _ => .error "UNIQUE constraint failed: intents.id"
  | none => .ok (rows ++ [.new id operation payload now])

/-- UPDATE by primary key. -/
def updateIntent (rows : List IntentRow) (id : IntentId) (status : IntentStatus)
    (attempts : Nat) (lastError : Option String) (now : String) : List IntentRow :=
  rows.map fun row => if row.id = id then row.update status attempts lastError now else row

/-- SELECT by status, in rowid order. -/
def loadIntentsByStatus (rows : List IntentRow) (statuses : List IntentStatus) :
    List IntentRow :=
  rows.filter fun row => row.status ∈ statuses

/-- An INSERT adds the row of its id and no other. -/
theorem loadIntent_append (rows : List IntentRow) (row : IntentRow) (id : IntentId) :
    loadIntent (rows ++ [row]) id
      = (loadIntent rows id).or (if row.id = id then some row else none) := by
  simp [loadIntent, List.find?_append, List.find?_cons]
  split <;> simp_all

/-- An UPDATE changes the row of its id and no other. -/
theorem loadIntent_updateIntent (rows : List IntentRow) (id id' : IntentId)
    (status : IntentStatus) (attempts : Nat) (lastError : Option String) (now : String) :
    loadIntent (updateIntent rows id status attempts lastError now) id'
      = if id' = id then (loadIntent rows id').map (·.update status attempts lastError now)
        else loadIntent rows id' := by
  induction rows with
  | nil => simp [loadIntent, updateIntent]
  | cons row rows ih =>
    have hid : (row.update status attempts lastError now).id = row.id := rfl
    simp only [loadIntent, updateIntent, List.map_cons, List.find?_cons] at ih ⊢
    by_cases hrow : row.id = id'
    · -- The first row is the row of `id'`.
      by_cases hne : id' = id
      · simp [hrow, hne, hid]
      · simp [hrow, hne]
    · have hnot : (if row.id = id then row.update status attempts lastError now else row).id
          = row.id := by
        split
        · exact hid
        · rfl
      simp only [hnot, hrow, decide_false]
      exact ih

theorem map_id_updateIntent (rows : List IntentRow) (id : IntentId) (status : IntentStatus)
    (attempts : Nat) (lastError : Option String) (now : String) :
    (updateIntent rows id status attempts lastError now).map (·.id) = rows.map (·.id) := by
  simp only [updateIntent, List.map_map]
  refine List.map_congr_left fun row _ => ?_
  show (if row.id = id then row.update status attempts lastError now else row).id = row.id
  split <;> rfl

/-- With distinct ids, the rows are what `loadIntent` finds. -/
theorem loadIntent_of_mem {rows : List IntentRow} (hnodup : (rows.map (·.id)).Nodup)
    {row : IntentRow} (h : row ∈ rows) : loadIntent rows row.id = some row := by
  induction rows with
  | nil => cases h
  | cons first rows ih =>
    simp only [List.map_cons, List.nodup_cons, List.mem_map, not_exists, not_and] at hnodup
    rcases List.mem_cons.mp h with rfl | hmem
    · simp [loadIntent]
    · have hne : first.id ≠ row.id := fun heq => hnodup.1 row hmem heq.symm
      have := ih hnodup.2 hmem
      simpa [loadIntent, hne] using this

/-! ### The store and its cells -/

/-- What happened to an intent. `stored` is the row of the intent at that moment. -/
inductive Entry (π : Type) where
  | recorded (operation payload : String)
  | invoked (payload : π) (stored : Option IntentRow)
  | returned (payload : π) (stored : Option IntentRow)
  | raised (error : String) (stored : Option IntentRow)

/-- The journal's database, the histories, and the events on the bus. -/
structure Store (π : Type) where
  intents : List IntentRow := []
  history : IntentId → List (Entry π) := fun _ => []
  published : List (Event String) := []

/-- What the store holds for one intent. -/
structure Cell (π : Type) where
  row : Option IntentRow
  history : List (Entry π)

/-- What an execution asks for. `call` invokes the function and `outcome` awaits it. -/
inductive Op (π : Type) where
  | insertIntent (id : IntentId) (operation payload : String)
  | updateIntent (id : IntentId) (status : IntentStatus) (attempts : Nat)
      (lastError : Option String)
  | loadIntent (id : IntentId)
  | call (id : IntentId) (payload : π)
  | outcome (id : IntentId) (payload : π)
  | publish (id : IntentId) (type component : String) (severity : Severity)
      (metadata : List (String × MetadataValue))

/-- The outside world's part in a step: the time, and how the function ends. `ρ` is the
type of the function's result, and an exception is its `str()`. -/
structure Answer (ρ : Type) where
  now : String
  result : Except String ρ

variable {π ρ : Type}

namespace Op

/-- What an operation answers. -/
abbrev Ret (ρ : Type) : Op π → Type
  | insertIntent .. => Except String Unit
  | updateIntent .. => Unit
  | loadIntent _ => Option IntentRow
  | call .. => Unit
  | outcome .. => Except String ρ
  | publish .. => Unit

/-- The intent that an operation is about. -/
def id : Op π → IntentId
  | insertIntent id .. => id
  | updateIntent id .. => id
  | loadIntent id => id
  | call id _ => id
  | outcome id _ => id
  | publish id .. => id

end Op

/-- The entry of a function that ended. -/
def Entry.ended (payload : π) (result : Except String ρ) (stored : Option IntentRow) : Entry π :=
  match result with
  | .ok _ => .returned payload stored
  | .error e => .raised e stored

/-- Add an entry to the history of an intent. -/
def Store.log (s : Store π) (id : IntentId) (entry : Entry π) : Store π :=
  { s with history := Function.update s.history id (s.history id ++ [entry]) }

/-- An operation on the store. -/
def Store.perform : (o : Op π) → Answer ρ → Store π → Op.Ret ρ o × Store π
  | .insertIntent id operation payload, x, s =>
    match insertIntent s.intents id operation payload x.now with
    | .error e => (.error e, s)
    | .ok intents => (.ok (), { s with intents := intents }.log id (.recorded operation payload))
  | .updateIntent id status attempts lastError, x, s =>
    ((), { s with intents := updateIntent s.intents id status attempts lastError x.now })
  | .loadIntent id, _, s => (loadIntent s.intents id, s)
  | .call id payload, _, s => ((), s.log id (.invoked payload (loadIntent s.intents id)))
  | .outcome id payload, x, s =>
    (x.result, s.log id (.ended payload x.result (loadIntent s.intents id)))
  | .publish _ type component severity metadata, x, s =>
    ((), { s with published := s.published ++ [⟨type, component, severity, x.now, metadata⟩] })

/-- The same operation on the cell of its intent. -/
def Cell.act : (o : Op π) → Answer ρ → Cell π → Op.Ret ρ o × Cell π
  | .insertIntent id operation payload, x, c =>
    match c.row with
    | some _ => (.error "UNIQUE constraint failed: intents.id", c)
    | none => (.ok (), ⟨some (.new id operation payload x.now),
        c.history ++ [.recorded operation payload]⟩)
  | .updateIntent _ status attempts lastError, x, c =>
    ((), { c with row := c.row.map (·.update status attempts lastError x.now) })
  | .loadIntent _, _, c => (c.row, c)
  | .call _ payload, _, c => ((), { c with history := c.history ++ [.invoked payload c.row] })
  | .outcome _ payload, x, c =>
    (x.result, { c with history := c.history ++ [.ended payload x.result c.row] })
  | .publish .., _, c => ((), c)

/-- What the store holds for the intent `id`. -/
def Store.cell (s : Store π) (id : IntentId) : Cell π := ⟨loadIntent s.intents id, s.history id⟩

@[simp] theorem Store.log_intents (s : Store π) (id : IntentId) (entry : Entry π) :
    (s.log id entry).intents = s.intents := rfl

@[simp] theorem Store.log_history (s : Store π) (id : IntentId) (entry : Entry π) :
    (s.log id entry).history = Function.update s.history id (s.history id ++ [entry]) := rfl

/-- An operation changes the cell of its intent as `Cell.act` says, and no other cell. -/
theorem Store.cell_perform (o : Op π) (x : Answer ρ) (s : Store π) (id : IntentId) :
    (s.perform o x).2.cell id = if id = o.id then (Cell.act o x (s.cell id)).2 else s.cell id := by
  cases o with
  | insertIntent id' operation payload =>
    by_cases h : id = id'
    · subst h
      simp only [Store.perform, Cell.act, insertIntent, Op.id, Store.cell, if_true]
      cases hrow : loadIntent s.intents id with
      | some row => simp [hrow]
      | none => simp [loadIntent_append, hrow, IntentRow.new]
    · simp only [Store.perform, insertIntent, Op.id]
      cases loadIntent s.intents id' with
      | some row => simp [h]
      | none =>
        have hne : ¬ id' = id := fun heq => h heq.symm
        simp [h, Store.cell, loadIntent_append, IntentRow.new, hne]
  | updateIntent id' status attempts lastError =>
    by_cases h : id = id'
    · simp [Store.perform, Cell.act, Op.id, Store.cell, loadIntent_updateIntent, h]
    · simp [Store.perform, Op.id, Store.cell, loadIntent_updateIntent, h]
  | loadIntent id' => simp [Store.perform, Cell.act]
  | call id' payload =>
    by_cases h : id = id'
    · subst h
      simp [Store.perform, Cell.act, Op.id, Store.cell]
    · simp [Store.perform, Op.id, Store.cell, h]
  | outcome id' payload =>
    by_cases h : id = id'
    · subst h
      simp [Store.perform, Cell.act, Op.id, Store.cell]
    · simp [Store.perform, Op.id, Store.cell, h]
  | publish id' type component severity metadata =>
    simp [Store.perform, Cell.act, Store.cell]

/-- An operation answers what its cell answers. -/
theorem Store.perform_fst (o : Op π) (x : Answer ρ) (s : Store π) :
    (s.perform o x).1 = (Cell.act o x (s.cell o.id)).1 := by
  cases o with
  | insertIntent id operation payload =>
    simp only [Store.perform, Cell.act, insertIntent, Op.id, Store.cell]
    cases loadIntent s.intents id <;> rfl
  | _ => rfl

/-- The store is made of the cells of the intents. -/
def cells (π ρ : Type) : Cells (Op π) (Op.Ret ρ) (Answer ρ) (Store π) IntentId (Cell π) where
  key := Op.id
  perform o x s := s.perform o x
  act := Cell.act
  view := Store.cell
  perform_fst := Store.perform_fst
  view_perform_key o x s := by rw [Store.cell_perform, if_pos rfl]
  view_perform_of_ne o x s id h := by rw [Store.cell_perform, if_neg h]

/-- No operation gives an id to two rows. -/
theorem Store.nodup_perform (o : Op π) (x : Answer ρ) {s : Store π}
    (h : (s.intents.map (·.id)).Nodup) : ((s.perform o x).2.intents.map (·.id)).Nodup := by
  cases o with
  | insertIntent id operation payload =>
    simp only [Store.perform, insertIntent]
    cases hrow : loadIntent s.intents id with
    | some row => exact h
    | none =>
      have hnot : id ∉ s.intents.map (·.id) := by
        intro hmem
        obtain ⟨row, hrows, rfl⟩ := List.mem_map.mp hmem
        rw [loadIntent_of_mem h hrows] at hrow
        cases hrow
      show ((s.intents ++ [IntentRow.new id operation payload x.now]).map (·.id)).Nodup
      rw [List.map_append, List.nodup_append]
      refine ⟨h, by simp, fun a ha b hb => ?_⟩
      obtain rfl : b = id := by simpa [IntentRow.new] using hb
      rintro rfl
      exact hnot ha
  | updateIntent id status attempts lastError =>
    simp only [Store.perform, map_id_updateIntent]
    exact h
  | _ => exact h

/-! ### `IntentJournal` -/

/-- The exceptions of a durable call, with the data of their messages. `sqlite`, `function` and
`report` are exceptions of SQLite, of the durable function itself, and of the report of an event. -/
inductive DurableError where
  | runtimeNotStarted (operation : String)
  | invalidDurablePayload (operation cause : String)
  | sqlite (message : String)
  /-- `RuntimeError`: the intent vanished immediately after being recorded. -/
  | vanished (id : IntentId)
  /-- `KeyError`: no such intent in the journal. -/
  | noIntent (id : IntentId)
  | function (error : String)
  | durableOperationExhausted (operation : String) (id : IntentId) (attempts : Nat)
  | report (error : ReportError String)
  deriving DecidableEq, Repr

/-- A coroutine of the durable layer. -/
abbrev Execution (π ρ α : Type) : Type := Prog (Op π) (Op.Ret ρ) DurableError α

/-- Ask for one operation. -/
def Op.ask (o : Op π) : Execution π ρ (o.Ret ρ) := Prog.perform o

/-- `_row_to_intent`. -/
def rowToIntent (codec : JsonCodec π) (row : IntentRow) : Intent π where
  id := row.id
  operation := row.operation
  payload := codec.loads row.payload
  status := row.status
  attempts := row.attempts
  lastError := row.lastError
  createdAt := row.createdAt
  updatedAt := row.updatedAt

namespace IntentJournal

variable (codec : JsonCodec π)

/-- The current record of an intent. -/
def get (id : IntentId) : Execution π ρ (Option (Intent π)) := do
  let row : Option IntentRow ← Op.ask (.loadIntent id)
  return row.map (rowToIntent codec)

/-- `_require`. -/
def require (id : IntentId) : Execution π ρ (Intent π) := do
  match ← get codec id with
  | none => Prog.fail (.noIntent id)
  | some intent => return intent

/-- Durably record a new, PENDING intent and return it. `id` is the fresh UUID. -/
def record (id : IntentId) (operation : String) (payload : π) :
    Execution π ρ (Intent π) := do
  match codec.dumps payload with
  | .error cause => Prog.fail (.invalidDurablePayload operation cause)
  | .ok serialized =>
    let inserted : Except String Unit ← Op.ask (.insertIntent id operation serialized)
    match inserted with
    | .error message => Prog.fail (.sqlite message)
    | .ok _ =>
      match ← get codec id with
      | none => Prog.fail (.vanished id)
      | some intent => return intent

/-- Count the attempt and mark the intent IN_PROGRESS. -/
def markInProgress (id : IntentId) : Execution π ρ (Intent π) := do
  let current ← require codec id
  let attempts := current.attempts + 1
  Op.ask (.updateIntent id .inProgress attempts current.lastError)
  return { current with status := .inProgress, attempts := attempts }

def markCompleted (id : IntentId) : Execution π ρ Unit := do
  let current ← require codec id
  Op.ask (.updateIntent id .completed current.attempts none)

def markPendingForRetry (id : IntentId) (error : String) : Execution π ρ Unit := do
  let current ← require codec id
  Op.ask (.updateIntent id .pending current.attempts (some error))

def markFailed (id : IntentId) (error : String) : Execution π ρ Unit := do
  let current ← require codec id
  Op.ask (.updateIntent id .failed current.attempts (some error))

/-- Every PENDING or IN_PROGRESS intent, oldest first: the replay set. -/
def pending (rows : List IntentRow) : List (Intent π) :=
  (loadIntentsByStatus rows [.pending, .inProgress]).map (rowToIntent codec)

end IntentJournal

/-! ### The methods when nothing else happens

`Store.alone` performs the operations of a program that runs alone. The part of the outside world
is a function of the operation and the store. -/

/-- An operation of a program that runs alone. -/
def Store.alone (world : Op π → Store π → Answer ρ) (o : Op π) (s : Store π) :
    Op.Ret ρ o × Store π :=
  s.perform o (world o s)

namespace IntentJournal

variable {codec : JsonCodec π} {world : Op π → Store π → Answer ρ} {s : Store π} {id : IntentId}

theorem exec_get : (get codec id : Execution π ρ _).exec (Store.alone world) s
    = (.ok ((loadIntent s.intents id).map (rowToIntent codec)), s) := rfl

/-- `_require` finds the row, or it raises. -/
theorem exec_require : (require codec id : Execution π ρ _).exec (Store.alone world) s
    = match loadIntent s.intents id with
      | none => (.error (DurableError.noIntent id), s)
      | some row => (.ok (rowToIntent codec row), s) := by
  rw [require, Prog.exec_bind_of_ok exec_get]
  cases loadIntent s.intents id <;> rfl

/-- An intent that is not in the journal ends a method. -/
theorem exec_require_bind_of_none {α : Type} (h : loadIntent s.intents id = none)
    (f : Intent π → Execution π ρ α) :
    (require codec id >>= f).exec (Store.alone world) s = (.error (.noIntent id), s) :=
  Prog.exec_bind_of_error (by rw [exec_require, h]) f

/-- A method goes on with the intent that it has read. -/
theorem exec_require_bind_of_some {α : Type} {row : IntentRow}
    (h : loadIntent s.intents id = some row) (f : Intent π → Execution π ρ α) :
    (require codec id >>= f).exec (Store.alone world) s
      = (f (rowToIntent codec row)).exec (Store.alone world) s :=
  Prog.exec_bind_of_ok (by rw [exec_require, h]) f

/-- The same, with the operations. -/
theorem runs_require_bind {α : Type} {row : IntentRow} (h : loadIntent s.intents id = some row)
    {f : Intent π → Execution π ρ α} {r : Except DurableError α} {s' : Store π} {ops : List (Op π)}
    (hf : Prog.Runs (Store.alone world) (f (rowToIntent codec row)) s r s' ops) :
    Prog.Runs (Store.alone world) (require codec id >>= f) s r s' (.loadIntent id :: ops) := by
  have hrequire : Prog.Runs (Store.alone world) (require codec id : Execution π ρ _) s
      (.ok (rowToIntent codec row)) s [.loadIntent id] := by
    refine ⟨by rw [exec_require, h], ?_⟩
    rw [require, Prog.trace_bind, exec_get, h]
    rfl
  exact hrequire.bind hf

section
variable {operation text : String} {payload : π}

/-- `record` of a payload that is not JSON. -/
theorem exec_record_of_error {cause : String} (hdumps : codec.dumps payload = .error cause) :
    (record codec id operation payload).exec (Store.alone world) s
      = (.error (.invalidDurablePayload operation cause), s) := by
  rw [record, hdumps]
  rfl

/-- `record` under an id that is taken. -/
theorem exec_record_of_taken {row : IntentRow} (hdumps : codec.dumps payload = .ok text)
    (h : loadIntent s.intents id = some row) :
    (record codec id operation payload).exec (Store.alone world) s
      = (.error (.sqlite "UNIQUE constraint failed: intents.id"), s) := by
  have hinsert : Store.alone world (.insertIntent id operation text) s
      = (.error "UNIQUE constraint failed: intents.id", s) := by
    simp only [Store.alone, Store.perform, insertIntent, h]
  rw [record, hdumps]
  refine (Prog.exec_perform_bind _ _ s).trans ?_
  rw [hinsert]
  rfl

/-- An INSERT under a fresh id. -/
theorem alone_insertIntent (h : loadIntent s.intents id = none) :
    Store.alone world (.insertIntent id operation text) s
      = (.ok (), { s with intents :=
          s.intents ++ [IntentRow.new id operation text
            (world (.insertIntent id operation text) s).now]
        }.log id (.recorded operation text)) := by
  simp only [Store.alone, Store.perform, insertIntent, h]

/-- `record` under a fresh id. -/
theorem exec_record_of_fresh (hdumps : codec.dumps payload = .ok text)
    (h : loadIntent s.intents id = none) :
    (record codec id operation payload).exec (Store.alone world) s
      = (.ok (rowToIntent codec (.new id operation text
          (world (.insertIntent id operation text) s).now)),
        (Store.alone world (.insertIntent id operation text) s).2) := by
  rw [record, hdumps]
  refine (Prog.exec_perform_bind _ _ s).trans ?_
  rw [alone_insertIntent h]
  dsimp only
  have hload (row : IntentRow) (hid : row.id = id) : loadIntent (s.intents ++ [row]) id = some row := by
    rw [loadIntent_append, h, Option.none_or, if_pos hid]
  rw [Prog.exec_bind_of_ok exec_get, Store.log_intents]
  dsimp only
  rw [hload _ rfl]
  rfl

end

section
variable {row : IntentRow} (h : loadIntent s.intents id = some row)
include h

theorem exec_markInProgress : (markInProgress codec id).exec (Store.alone world) s
    = (.ok { rowToIntent codec row with status := .inProgress, attempts := row.attempts + 1 },
      (Store.alone world (.updateIntent id .inProgress (row.attempts + 1) row.lastError) s).2) :=
  exec_require_bind_of_some h _

theorem exec_markCompleted : (markCompleted codec id).exec (Store.alone world) s
    = (.ok (), (Store.alone world (.updateIntent id .completed row.attempts none) s).2) :=
  exec_require_bind_of_some h _

theorem exec_markPendingForRetry (error : String) :
    (markPendingForRetry codec id error).exec (Store.alone world) s
      = (.ok (), (Store.alone world (.updateIntent id .pending row.attempts (some error)) s).2) :=
  exec_require_bind_of_some h _

theorem exec_markFailed (error : String) :
    (markFailed codec id error).exec (Store.alone world) s
      = (.ok (), (Store.alone world (.updateIntent id .failed row.attempts (some error)) s).2) :=
  exec_require_bind_of_some h _

end

end IntentJournal

end EdgeSentinel.Durability
