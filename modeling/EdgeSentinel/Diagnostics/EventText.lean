import EdgeSentinel.Diagnostics.Timestamps
import EdgeSentinel.Library.Json

/-!
# `EdgeSentinel.Diagnostics.EventText`: events as texts

An event leaves the process as texts. `TextLog` is the `EventLog` of `diagnostics/timeline.py` over
the rows that SQLite holds: the timestamp is what `isoformat` writes, and the metadata what
`json.dumps` writes. `eventPayload` is the function of this name in `integrations/http.py` and
`integrations/mqtt.py`.

`fromCharacters` is `fromisoformat` of CPython on the texts that `isoformat` writes. The other
forms of ISO 8601 that Python reads are left out.
-/

set_option autoImplicit false

namespace EdgeSentinel.Diagnostics

open EdgeSentinel.Core
open FixedWidth (readDigits)

namespace DateTime

/-! ### `fromisoformat` -/

/-- A time of day, or the size of an offset. -/
structure Clock where
  hour : Nat
  minute : Nat
  second : Nat := 0
  microsecond : Nat := 0

/-- The offset in microseconds. -/
def Clock.size (c : Clock) : Nat :=
  ((c.hour * 60 + c.minute) * 60 + c.second) * 1000000 + c.microsecond

/-- Read a separator. -/
def skip (separator : Char) : List Char → Option (List Char)
  | [] => none
  | c :: s => if c = separator then some s else none

/-- `_parse_hh_mm_ss_ff`. -/
def readClock (s : List Char) : Option (Clock × List Char) := do
  let (hour, s) ← readDigits 2 s
  let s ← skip ':' s
  let (minute, s) ← readDigits 2 s
  match s with
  | ':' :: s =>
    let (second, s) ← readDigits 2 s
    match s with
    | '.' :: s =>
      let (microsecond, s) ← readDigits 6 s
      return (⟨hour, minute, second, microsecond⟩, s)
    | s => return (⟨hour, minute, second, 0⟩, s)
  | s => return (⟨hour, minute, 0, 0⟩, s)

/-- The sign of an offset: `true` for a negative one. -/
def readSign : List Char → Option (Bool × List Char)
  | '+' :: s => some (false, s)
  | '-' :: s => some (true, s)
  | _ => none

/-- The constructor checks the ranges. -/
def build (year month day : Nat) (time : Clock) (utcoffset : Int) : Option DateTime :=
  if h : (1 ≤ year ∧ year ≤ 9999) ∧ (1 ≤ month ∧ month ≤ 12) ∧
      (1 ≤ day ∧ day ≤ daysInMonth year month) ∧ time.hour < 24 ∧ time.minute < 60 ∧
      time.second < 60 ∧ time.microsecond < 1000000 ∧ utcoffset.natAbs < 86400000000 then
    some ⟨year, month, day, time.hour, time.minute, time.second, time.microsecond, utcoffset, h.1,
      h.2.1, h.2.2.1, h.2.2.2.1, h.2.2.2.2.1, h.2.2.2.2.2.1, h.2.2.2.2.2.2.1, h.2.2.2.2.2.2.2⟩
  else none

/-- The fields of a text. -/
structure Fields where
  year : Nat
  month : Nat
  day : Nat
  time : Clock
  negative : Bool
  offset : Clock

/-- `parse_isoformat_date` and `parse_isoformat_time`. -/
def parse (s : List Char) : Option Fields := do
  let (year, s) ← readDigits 4 s
  let s ← skip '-' s
  let (month, s) ← readDigits 2 s
  let s ← skip '-' s
  let (day, s) ← readDigits 2 s
  let s ← skip 'T' s
  let (time, s) ← readClock s
  let (negative, s) ← readSign s
  let (offset, s) ← readClock s
  match s with
  | [] => some ⟨year, month, day, time, negative, offset⟩
  | _ => none

/-- `tzinfo_from_isoformat_results`. An offset of no seconds is UTC, whatever its microseconds. -/
def Fields.utcoffset (p : Fields) : Int :=
  if p.offset.size / 1000000 = 0 then 0
  else if p.negative then -p.offset.size
  else p.offset.size

/-- `fromisoformat`, of the characters of a text. -/
def fromCharacters (s : List Char) : Option DateTime :=
  (parse s).bind fun p => build p.year p.month p.day p.time p.utcoffset

/-- `fromisoformat`. `none` is a `ValueError`. -/
def fromisoformat (s : String) : Option DateTime := fromCharacters s.toList

end DateTime

/-! ### Events with their metadata -/

variable {φ : Type}

/-- An `Event` with the JSON value of its metadata. -/
structure EventRecord (φ : Type) where
  type : String
  component : String
  severity : Severity
  timestamp : DateTime
  metadata : Json φ

/-- A row of the `events` table, as SQLite holds it. -/
structure TextRow where
  id : Nat
  type : String
  component : String
  severity : String
  timestamp : String
  metadata : String
  deriving DecidableEq, Repr

/-- The `events` table. `sequence` is the last id that AUTOINCREMENT has given. The rows stand in
the order of their ids. -/
structure TextTable where
  rows : List TextRow := []
  sequence : Nat := 0
  deriving DecidableEq, Repr

/-- What a query raises: the `OverflowError` of a limit that SQLite cannot have, a `ValueError` of
`Severity` or of `fromisoformat`, or what `json.loads` raises. -/
inductive RowError where
  | overflow (limit : Int)
  | severity (value : String)
  | timestamp (text : String)
  | metadata (error : Json.DecodeError)
  deriving DecidableEq, Repr

/-- The row meets every clause that is given. -/
def TextRow.matches (f : Filters String) (row : TextRow) : Bool :=
  f.component.all (row.component = ·) && f.type.all (row.type = ·) &&
    f.since.all (· ≤ row.timestamp) && f.until_.all (row.timestamp ≤ ·)

namespace TextTable

/-- `insert_event`. -/
def insertEvent (t : TextTable) (type component severity timestamp metadata : String) : TextTable where
  rows := t.rows ++ [⟨t.sequence + 1, type, component, severity, timestamp, metadata⟩]
  sequence := t.sequence + 1

/-- `load_events`. -/
def loadEvents (t : TextTable) (f : Filters String) (limit : Int) (newestFirst : Bool) :
    Except RowError (List TextRow) :=
  let rows := t.rows.filter (TextRow.matches f)
  if isSqlInteger limit then .ok (sqlLimit limit (if newestFirst then rows.reverse else rows))
  else .error (.overflow limit)

/-- `_prune_events_older_than`, with the number of rows deleted. -/
def pruneEventsOlderThan (t : TextTable) (olderThan : String) : TextTable × Nat where
  fst := { t with rows := t.rows.filter fun row => ¬ row.timestamp < olderThan }
  snd := (t.rows.filter fun row => row.timestamp < olderThan).length

end TextTable

/-! ### `EventLog` -/

variable (py : Json.Numbers φ)

/-- `_row_to_event`. -/
def TextRow.toEvent (row : TextRow) : Except RowError (EventRecord φ) :=
  match Severity.ofValue? row.severity with
  | none => .error (.severity row.severity)
  | some severity =>
    match DateTime.fromisoformat row.timestamp with
    | none => .error (.timestamp row.timestamp)
    | some timestamp =>
      match Json.loads py row.metadata with
      | .error e => .error (.metadata e)
      | .ok metadata => .ok ⟨row.type, row.component, severity, timestamp, metadata⟩

/-- The bounds of a query, as `EventLog.query` hands them to the database. -/
def Filters.texts (f : Filters DateTime) : Filters String where
  component := f.component
  type := f.type
  since := f.since.map DateTime.isoformat
  until_ := f.until_.map DateTime.isoformat

namespace TextLog

/-- `_on_event`. The bus logs what `json.dumps` raises, and no row is written. -/
def onEvent (t : TextTable) (e : EventRecord φ) : TextTable :=
  match Json.dumps py e.metadata with
  | .error _ => t
  | .ok metadata =>
    t.insertEvent e.type e.component e.severity.value e.timestamp.isoformat metadata

/-- `query`. -/
def query (t : TextTable) (f : Filters DateTime) (minSeverity : Option Severity) (limit : Int)
    (newestFirst : Bool) : Except RowError (List (EventRecord φ)) := do
  let rows ← t.loadEvents f.texts (if minSeverity.isNone then limit else severityScanLimit)
    newestFirst
  let events ← rows.mapM (TextRow.toEvent py)
  match minSeverity with
  | none => return events
  | some threshold =>
    return sliceTo limit (events.filter fun e => threshold.rank ≤ e.severity.rank)

/-- `prune_older_than`. -/
def pruneOlderThan (t : TextTable) (olderThan : DateTime) : TextTable × Nat :=
  t.pruneEventsOlderThan olderThan.isoformat

/-- What changes the table: an event that is published, or a pruning. -/
inductive Op (φ : Type) where
  | event (e : EventRecord φ)
  | prune (olderThan : DateTime)

/-- The table after the operation. -/
def apply (t : TextTable) : Op φ → TextTable
  | .event e => onEvent py t e
  | .prune olderThan => (pruneOlderThan t olderThan).1

end TextLog

/-! ### The forwarders -/

/-- The dictionary that `_event_payload` of both forwarders writes. -/
def EventRecord.toJson (e : EventRecord φ) : Json φ :=
  .obj [("type", .str e.type), ("component", .str e.component),
    ("severity", .str e.severity.value), ("timestamp", .str e.timestamp.isoformat),
    ("metadata", e.metadata)]

/-- `_event_payload`. -/
def eventPayload (e : EventRecord φ) : Except String String := Json.dumps py e.toJson

end EdgeSentinel.Diagnostics
