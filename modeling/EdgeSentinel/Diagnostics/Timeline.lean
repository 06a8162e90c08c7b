import EdgeSentinel.Diagnostics.Incidents

/-!
# `EdgeSentinel.Diagnostics.Timeline`: the recorded events

`EventTable` is the `events` table with the statements of `persistence/database.py` on it.
`onEvent` and `query` are the methods of `EventLog` in `diagnostics/timeline.py`, and
`cmdIncidents` is what `_cmd_incidents` of `cli/main.py` computes and prints.

The text of a timestamp and of the metadata is what `isoformat` and `json.dumps` wrote, and a row
holds the values. `json.loads` gives the same metadata back. `fromisoformat` gives back what the
parameter `readBack` of `query` says, and the same timestamp when there is none: this is so except
for offsets below one second (`DateTime.readBack`). The order on `τ` is the order of the texts,
which the bounds of a query are compared in.
-/

set_option autoImplicit false

namespace EdgeSentinel.Core

namespace Severity

/-- The enum's value. -/
def value : Severity → String
  | info => "info"
  | warning => "warning"
  | error => "error"
  | critical => "critical"

/-- `Severity(value)`. -/
def ofValue? (value : String) : Option Severity :=
  [info, warning, error, critical].find? fun s => s.value = value

@[simp] theorem ofValue?_value (s : Severity) : ofValue? s.value = some s := by
  cases s <;> decide

/-- `_SEVERITY_RANK`. -/
def rank : Severity → Nat
  | info => 0
  | warning => 1
  | error => 2
  | critical => 3

end Severity

end EdgeSentinel.Core

namespace EdgeSentinel.Diagnostics

open EdgeSentinel.Core

variable {τ : Type}

/-- A row of the `events` table. -/
structure Row (τ : Type) where
  id : Nat
  type : String
  component : String
  severity : String
  timestamp : τ
  metadata : List (String × MetadataValue)
  deriving DecidableEq

/-- The `events` table. `sequence` is the last id that AUTOINCREMENT has given. The rows
stand in the order of their ids. -/
structure EventTable (τ : Type) where
  rows : List (Row τ)
  sequence : Nat
  ascending : rows.Pairwise fun row row' => row.id < row'.id
  given : ∀ row ∈ rows, row.id ≤ sequence

/-- The clauses of `load_events`. -/
structure Filters (τ : Type) where
  component : Option String := none
  type : Option String := none
  since : Option τ := none
  until_ : Option τ := none

/-- The row meets every clause that is given. -/
def Filters.matches [LE τ] [DecidableLE τ] (f : Filters τ) (row : Row τ) : Bool :=
  f.component.all (row.component = ·) && f.type.all (row.type = ·) &&
    f.since.all (· ≤ row.timestamp) && f.until_.all (row.timestamp ≤ ·)

/-- `LIMIT`: a negative one is no limit. -/
def sqlLimit {α : Type} (limit : Int) (rows : List α) : List α :=
  if limit < 0 then rows else rows.take limit.toNat

/-- SQLite has integers of 64 bits. Binding another one raises an `OverflowError`. -/
def isSqlInteger (n : Int) : Prop := -0x8000000000000000 ≤ n ∧ n < 0x8000000000000000

instance (n : Int) : Decidable (isSqlInteger n) :=
  inferInstanceAs (Decidable (-0x8000000000000000 ≤ n ∧ n < 0x8000000000000000))

/-- `xs[:stop]`: a negative index counts from the end. -/
def sliceTo {α : Type} (stop : Int) (xs : List α) : List α :=
  xs.take (if stop < 0 then (xs.length + stop).toNat else stop.toNat)

namespace EventTable

def empty : EventTable τ := ⟨[], 0, .nil, by simp⟩

/-- `insert_event`. -/
def insertEvent (t : EventTable τ) (type component severity : String) (timestamp : τ)
    (metadata : List (String × MetadataValue)) : EventTable τ where
  rows := t.rows ++ [⟨t.sequence + 1, type, component, severity, timestamp, metadata⟩]
  sequence := t.sequence + 1
  ascending := by
    rw [List.pairwise_append]
    refine ⟨t.ascending, List.pairwise_singleton _ _, ?_⟩
    intro row hrow row' hrow'
    rw [List.mem_singleton] at hrow'
    rw [hrow']
    exact Nat.lt_succ_of_le (t.given row hrow)
  given := by
    intro row hrow
    rcases List.mem_append.mp hrow with hrow | hrow
    · exact Nat.le_succ_of_le (t.given row hrow)
    · rw [List.mem_singleton.mp hrow]

/-- `load_events`: the matching rows in the order of their ids, or in the opposite one. -/
def loadEvents [LE τ] [DecidableLE τ] (t : EventTable τ) (f : Filters τ) (limit : Int)
    (newestFirst : Bool) : Except ReadError (List (Row τ)) :=
  let rows := t.rows.filter f.matches
  if isSqlInteger limit then .ok (sqlLimit limit (if newestFirst then rows.reverse else rows))
  else .error (.overflowError limit)

/-- `_prune_events_older_than`, with the number of rows deleted. -/
def pruneEventsOlderThan [LT τ] [DecidableLT τ] (t : EventTable τ) (olderThan : τ) :
    EventTable τ × Nat where
  fst :=
    { rows := t.rows.filter fun row => ¬ row.timestamp < olderThan
      sequence := t.sequence
      ascending := t.ascending.filter _
      given := fun row hrow => t.given row (List.mem_filter.mp hrow).1 }
  snd := (t.rows.filter fun row => row.timestamp < olderThan).length

end EventTable

/-- `_row_to_event`. -/
def Row.toEvent (readBack : τ → τ) (row : Row τ) : Except ReadError (Event τ) :=
  match Severity.ofValue? row.severity with
  | none => .error (.valueError (.str row.severity))
  | some severity =>
    .ok ⟨row.type, row.component, severity, readBack row.timestamp, row.metadata⟩

/-- `_SEVERITY_SCAN_LIMIT`. -/
def severityScanLimit : Int := 2000

namespace EventLog

/-- `_on_event`. -/
def onEvent (t : EventTable τ) (e : Event τ) : EventTable τ :=
  t.insertEvent e.type e.component e.severity.value e.timestamp e.metadata

/-- The table after events have been published one by one. -/
def record (events : List (Event τ)) : EventTable τ := events.foldl onEvent .empty

/-- `query`. -/
def query [LE τ] [DecidableLE τ] (t : EventTable τ) (f : Filters τ)
    (minSeverity : Option Severity) (limit : Int) (newestFirst : Bool) (readBack : τ → τ := id) :
    Except ReadError (List (Event τ)) := do
  let rows ← t.loadEvents f (if minSeverity.isNone then limit else severityScanLimit)
    newestFirst
  let events ← rows.mapM (Row.toEvent readBack)
  match minSeverity with
  | none => return events
  | some threshold =>
    return sliceTo limit (events.filter fun e => threshold.rank ≤ e.severity.rank)

end EventLog

/-! ### The command line -/

/-- `_INCIDENT_REPLAY_LIMIT`. -/
def incidentReplayLimit : Int := 5000

/-- The incidents that `_cmd_incidents` computes and prints. -/
def cmdIncidents [LE τ] [DecidableLE τ] (t : EventTable τ) :
    Except ReadError (List (Incident τ)) := do
  let events ← EventLog.query t {} none incidentReplayLimit false
  buildIncidents events

/-! ### Recording and reading back -/

/-- A recorded event is read back as it was. -/
theorem toEvent_row (n : Nat) (e : Event τ) :
    Row.toEvent id ⟨n, e.type, e.component, e.severity.value, e.timestamp, e.metadata⟩
      = .ok e := by
  simp [Row.toEvent]

/-- The rows of the recorded events are the events, in the order they were published in. -/
theorem mapM_toEvent_record (events : List (Event τ)) :
    (EventLog.record events).rows.mapM (Row.toEvent id) = .ok events := by
  unfold EventLog.record
  suffices h : ∀ (t : EventTable τ) (before : List (Event τ)),
      t.rows.mapM (Row.toEvent id) = .ok before →
      (events.foldl EventLog.onEvent t).rows.mapM (Row.toEvent id) = .ok (before ++ events) from
    h .empty [] rfl
  induction events with
  | nil =>
    intro t before h
    simpa using h
  | cons e events ih =>
    intro t before h
    have hrow := ih (EventLog.onEvent t e) (before ++ [e]) (by
      simp [EventLog.onEvent, EventTable.insertEvent, h, toEvent_row]
      rfl)
    simpa using hrow

end EdgeSentinel.Diagnostics
