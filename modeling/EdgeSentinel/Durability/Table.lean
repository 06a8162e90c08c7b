import EdgeSentinel.Durability.Journal

/-!
# `EdgeSentinel.Durability.Table`: the rowids of the table `intents`

`intents` has a text primary key, so its rows have implicit rowids. `Table` keeps them. An INSERT
takes `nextRowid`, a DELETE frees rowids, and `ORDER BY rowid` sorts. `pruneCompletedIntents` is
the statement of `_prune_completed_intents`.

`JournalCall` is a call of a method of `IntentJournal`, and `serve` makes it on the table with
nothing else going on. `Ledger` is a journal that is used: its table, and a log of the
recordings and marks that went through. The code does not read the log.

`Journal.lean` leaves the rowids out: its table is a list in which an INSERT appends. `Matches`
says that the two tables hold the same rows in the same order, and `perform_matches` that every
statement keeps it.
-/

set_option autoImplicit false

namespace EdgeSentinel.Durability

open Coroutine

/-- A row and its rowid. -/
structure TableRow where
  rowid : Nat
  row : IntentRow
  deriving DecidableEq

/-- The table `intents` with its rowids. -/
structure Table where
  rows : List TableRow := []

/-- The rowid of a new row: one more than the largest, and 1 in an empty table. -/
def nextRowid (rowids : List Nat) : Nat :=
  match rowids.max? with
  | some largest => largest + 1
  | none => 1

namespace Table

variable {π : Type} (t : Table)

/-- SELECT by primary key. -/
def loadIntent (id : IntentId) : Option IntentRow :=
  (t.rows.find? fun r => r.row.id = id).map (·.row)

/-- INSERT. The id is the primary key. -/
def insertIntent (id : IntentId) (operation payload now : String) : Except String Table :=
  match t.loadIntent id with
  | some _ => .error "UNIQUE constraint failed: intents.id"
  | none => .ok ⟨t.rows ++ [⟨nextRowid (t.rows.map (·.rowid)), .new id operation payload now⟩]⟩

/-- UPDATE by primary key. -/
def updateIntent (id : IntentId) (status : IntentStatus) (attempts : Nat)
    (lastError : Option String) (now : String) : Table :=
  ⟨t.rows.map fun r =>
    if r.row.id = id then { r with row := r.row.update status attempts lastError now } else r⟩

/-- SELECT by status, `ORDER BY rowid ASC`. -/
def loadIntentsByStatus (statuses : List IntentStatus) : List IntentRow :=
  ((t.rows.filter fun r => r.row.status ∈ statuses).mergeSort
    fun r r' => decide (r.rowid ≤ r'.rowid)).map (·.row)

/-- DELETE of the rows that are completed and were updated before `olderThan`, and
`cursor.rowcount`. -/
def pruneCompletedIntents (olderThan : String) : Nat × Table :=
  let deleted (r : TableRow) : Bool := r.row.status = .completed && r.row.updatedAt < olderThan
  ((t.rows.filter deleted).length, ⟨t.rows.filter fun r => !deleted r⟩)

/-- An operation of the journal on the table. -/
def perform (now : String) : (o : Op π) → Table → Op.Ret Unit o × Table
  | .insertIntent id operation payload, t =>
    match t.insertIntent id operation payload now with
    | .error e => (.error e, t)
    | .ok t' => (.ok (), t')
  | .updateIntent id status attempts lastError, t =>
    ((), t.updateIntent id status attempts lastError now)
  | .loadIntent id, t => (t.loadIntent id, t)
  | .call .., t => ((), t)
  | .outcome .., t => (.ok (), t)
  | .publish .., t => ((), t)

/-- `IntentJournal.pending`. -/
def pending (codec : JsonCodec π) : List (Intent π) :=
  (t.loadIntentsByStatus [.pending, .inProgress]).map (rowToIntent codec)

end Table

/-! ### Calls of the journal -/

/-- A call of a method that records or marks. `id` is the fresh UUID of `record`. -/
inductive JournalMethod (π : Type) where
  | record (id : IntentId) (operation : String) (payload : π)
  | markInProgress (id : IntentId)
  | markCompleted (id : IntentId)
  | markPendingForRetry (id : IntentId) (error : String)
  | markFailed (id : IntentId) (error : String)

/-- A call of the journal. The cutoff of `prune_completed` is `olderThan`. -/
inductive JournalCall (π : Type) where
  | method (m : JournalMethod π)
  | pruneCompleted (olderThan : String)

/-- What a call returns. -/
inductive Reply (π : Type) where
  | intent (intent : Intent π)
  | none
  | removed (count : Nat)

/-- A recording or a mark. -/
inductive LogEntry (π : Type) where
  | recorded (id : IntentId) (operation : String) (payload : π)
  | marked (id : IntentId) (status : IntentStatus)

variable {π : Type} (codec : JsonCodec π)

namespace JournalMethod

/-- The method's statements. -/
def program : JournalMethod π → Execution π Unit (Reply π)
  | record id operation payload => do
    return .intent (← IntentJournal.record codec id operation payload)
  | markInProgress id => do return .intent (← IntentJournal.markInProgress codec id)
  | markCompleted id => do
    IntentJournal.markCompleted codec id
    return .none
  | markPendingForRetry id error => do
    IntentJournal.markPendingForRetry codec id error
    return .none
  | markFailed id error => do
    IntentJournal.markFailed codec id error
    return .none

/-- What the method does when it returns. -/
def entry : JournalMethod π → LogEntry π
  | record id operation payload => .recorded id operation payload
  | markInProgress id => .marked id .inProgress
  | markCompleted id => .marked id .completed
  | markPendingForRetry id _ => .marked id .pending
  | markFailed id _ => .marked id .failed

end JournalMethod

/-- A journal that is used. -/
structure Ledger (π : Type) where
  table : Table := {}
  log : List (LogEntry π) := []

namespace Ledger

/-- The ledger after a method of the given result. -/
def after (l : Ledger π) (m : JournalMethod π) :
    Except DurableError (Reply π) × Table → Ledger π
  | (.ok _, t) => ⟨t, l.log ++ [m.entry]⟩
  | (.error _, t) => ⟨t, l.log⟩

/-- One call, with the time at which it is made. -/
def serve (l : Ledger π) : String × JournalCall π → Ledger π
  | (now, .method m) => l.after m ((m.program codec).exec (Table.perform now) l.table)
  | (_, .pruneCompleted olderThan) => { l with table := (l.table.pruneCompletedIntents olderThan).2 }

/-- Calls that are made one after the other on a new journal. -/
def run (calls : List (String × JournalCall π)) : Ledger π := calls.foldl (serve codec) {}

end Ledger

/-! ### The table without its rowids -/

/-- DELETE, without rowids. -/
def pruneCompletedIntents (rows : List IntentRow) (olderThan : String) : Nat × List IntentRow :=
  let deleted (row : IntentRow) : Bool := row.status = .completed && row.updatedAt < olderThan
  ((rows.filter deleted).length, rows.filter fun row => !deleted row)

namespace Table

/-- The table holds the rows, and their order is the order of the rowids. -/
structure Matches (t : Table) (rows : List IntentRow) : Prop where
  ascending : t.rows.Pairwise fun r r' => r.rowid < r'.rowid
  rows_eq : t.rows.map (·.row) = rows

variable {t : Table} {rows : List IntentRow}

theorem lt_nextRowid {rowids : List Nat} {rowid : Nat} (h : rowid ∈ rowids) :
    rowid < nextRowid rowids := by
  unfold nextRowid
  cases hmax : rowids.max? with
  | none => rw [List.max?_eq_none_iff.mp hmax] at h; cases h
  | some largest => exact Nat.lt_succ_of_le ((List.max?_eq_some_iff.mp hmax).2 rowid h)

namespace Matches

theorem loadIntent (h : Matches t rows) (id : IntentId) :
    t.loadIntent id = Durability.loadIntent rows id := by
  rw [Table.loadIntent, Durability.loadIntent, ← h.rows_eq, List.find?_map]
  rfl

/-- The new row comes after all the others. -/
theorem append (h : Matches t rows) (row : IntentRow) :
    Matches ⟨t.rows ++ [⟨nextRowid (t.rows.map (·.rowid)), row⟩]⟩ (rows ++ [row]) where
  ascending := by
    rw [List.pairwise_append]
    refine ⟨h.ascending, List.pairwise_singleton _ _, fun r hr r' hr' => ?_⟩
    rw [List.mem_singleton.mp hr']
    exact lt_nextRowid (List.mem_map_of_mem hr)
  rows_eq := by rw [List.map_append, h.rows_eq]; rfl

/-- An UPDATE leaves the rowids. -/
theorem updateIntent (h : Matches t rows) (id : IntentId) (status : IntentStatus)
    (attempts : Nat) (lastError : Option String) (now : String) :
    Matches (t.updateIntent id status attempts lastError now)
      (Durability.updateIntent rows id status attempts lastError now) where
  ascending := by
    refine List.pairwise_map.mpr (h.ascending.imp fun {r r'} hlt => ?_)
    split <;> split <;> exact hlt
  rows_eq := by
    rw [Durability.updateIntent, ← h.rows_eq, Table.updateIntent, List.map_map, List.map_map]
    refine List.map_congr_left fun r _ => ?_
    show (if r.row.id = id then _ else r).row = if r.row.id = id then _ else r.row
    split <;> rfl

/-- A DELETE keeps the order of the rows that stay. -/
theorem pruneCompletedIntents (h : Matches t rows) (olderThan : String) :
    (t.pruneCompletedIntents olderThan).1 = (Durability.pruneCompletedIntents rows olderThan).1 ∧
    Matches (t.pruneCompletedIntents olderThan).2
      (Durability.pruneCompletedIntents rows olderThan).2 := by
  refine ⟨?_, ⟨h.ascending.filter _, ?_⟩⟩
  · rw [Durability.pruneCompletedIntents, ← h.rows_eq]
    simp only [Table.pruneCompletedIntents, List.filter_map, List.length_map]
    rfl
  · rw [Durability.pruneCompletedIntents, ← h.rows_eq]
    simp only [Table.pruneCompletedIntents, List.filter_map]
    rfl

/-- `ORDER BY rowid` gives the rows in the order of the list. -/
theorem loadIntentsByStatus (h : Matches t rows) (statuses : List IntentStatus) :
    t.loadIntentsByStatus statuses = Durability.loadIntentsByStatus rows statuses := by
  have hsorted : (t.rows.filter fun r => r.row.status ∈ statuses).Pairwise
      fun r r' => decide (r.rowid ≤ r'.rowid) = true :=
    (h.ascending.filter _).imp fun hlt => by simpa using Nat.le_of_lt hlt
  rw [Table.loadIntentsByStatus, List.mergeSort_of_pairwise hsorted,
    Durability.loadIntentsByStatus, ← h.rows_eq, List.filter_map]
  rfl

theorem pending (h : Matches t rows) : t.pending codec = IntentJournal.pending codec rows := by
  rw [Table.pending, IntentJournal.pending, h.loadIntentsByStatus]

end Matches

/-- The outside world of a journal that is used alone. -/
def quiet (now : String) : Op π → Store π → Answer Unit := fun _ _ => ⟨now, .ok ()⟩

/-- A statement answers alike on matching tables, and they match after it. -/
theorem perform_matches (now : String) (o : Op π) (t : Table) (s : Store π)
    (h : Matches t s.intents) :
    (t.perform now o).1 = (Store.alone (quiet now) o s).1 ∧
      Matches (t.perform now o).2 (Store.alone (quiet now) o s).2.intents := by
  cases o with
  | insertIntent id operation payload =>
    simp only [perform, Table.insertIntent, Store.alone, quiet, Store.perform,
      Durability.insertIntent, h.loadIntent]
    cases Durability.loadIntent s.intents id with
    | some row => exact ⟨rfl, h⟩
    | none => exact ⟨rfl, h.append _⟩
  | updateIntent id status attempts lastError => exact ⟨rfl, h.updateIntent ..⟩
  | loadIntent id => exact ⟨h.loadIntent id, h⟩
  | call id payload => exact ⟨rfl, h⟩
  | outcome id payload => exact ⟨rfl, h⟩
  | publish id type component severity metadata => exact ⟨rfl, h⟩

end Table

end EdgeSentinel.Durability
