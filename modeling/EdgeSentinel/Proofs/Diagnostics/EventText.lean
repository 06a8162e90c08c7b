import EdgeSentinel.Diagnostics.EventText
import EdgeSentinel.Library.JsonRoundtrip
import EdgeSentinel.Proofs.Diagnostics.SeverityScan

/-!
# `EdgeSentinel.Proofs.Diagnostics.EventText`: what the timeline reads back

A recorded event is read back with all its data, but for an offset below one second:
`fromisoformat` inverts `isoformat` up to `readBack` (`fromisoformat_isoformat`), and `json.loads`
inverts `json.dumps`. So the table of texts is a refinement of the table of values that the other
results about the timeline are about (`query_refines`). The two tables hold the same numbered
events, and a query selects the same ones of them, because the order of timestamps in the table of
values is the order of their texts.
-/

set_option autoImplicit false

namespace EdgeSentinel.Proofs.Diagnostics

open EdgeSentinel.Core
open EdgeSentinel.Diagnostics
open EdgeSentinel.Diagnostics.DateTime
open FixedWidth

/-! ### Timestamps -/

/-- The hours and minutes come first. -/
theorem readClock_of_minute {hour minute : Nat} (hh : hour < 10 ^ 2) (hm : minute < 10 ^ 2)
    {s : List Char} (hs : ∀ c ∈ s.head?, c ≠ ':') :
    readClock (digits 2 hour ++ ':' :: (digits 2 minute ++ s)) = some (⟨hour, minute, 0, 0⟩, s) := by
  unfold readClock
  simp only [readDigits_digits hh, readDigits_digits hm, Option.bind_eq_bind, Option.bind_some,
    skip, if_true]
  split
  · exact absurd rfl (hs ':' rfl)
  · rfl

/-- The seconds and microseconds are read back in front of a text that begins with no point. -/
theorem readClock_of_fraction {hour minute second microsecond : Nat} (hh : hour < 10 ^ 2)
    (hm : minute < 10 ^ 2) (hs : second < 10 ^ 2) (hu : microsecond < 10 ^ 6) {r : List Char}
    (hr : ∀ c ∈ r.head?, c ≠ '.') :
    readClock (digits 2 hour ++ ':' :: (digits 2 minute ++ ':' :: (digits 2 second
        ++ (fraction microsecond ++ r))))
      = some (⟨hour, minute, second, microsecond⟩, r) := by
  unfold readClock fraction
  simp only [readDigits_digits hh, readDigits_digits hm, readDigits_digits hs,
    Option.bind_eq_bind, Option.bind_some, skip, if_true]
  by_cases hzero : microsecond = 0
  · simp only [hzero, if_true, List.nil_append]
    split
    · exact absurd rfl (hr '.' rfl)
    · rfl
  · simp only [hzero, if_false, List.cons_append, readDigits_digits hu, Option.bind_some]
    rfl

/-- The size of an offset is read back. -/
theorem readClock_offsetSize {size : Nat} (h : size < 86400000000) :
    ∃ clock, readClock (offsetSize size) = some (clock, []) ∧ clock.size = size := by
  unfold offsetSize offsetSeconds
  by_cases hrest : size % 60000000 = 0
  · refine ⟨⟨size / 3600000000, size / 60000000 % 60, 0, 0⟩, ?_, ?_⟩
    · rw [if_pos hrest]
      exact readClock_of_minute (by omega) (by omega) nofun
    · simp only [Clock.size]
      omega
  · refine ⟨⟨size / 3600000000, size / 60000000 % 60, size % 60000000 / 1000000,
      size % 60000000 % 1000000⟩, ?_, ?_⟩
    · rw [if_neg hrest, ← List.append_nil (fraction _)]
      exact readClock_of_fraction (by omega) (by omega) (by omega) (by omega) nofun
    · simp only [Clock.size]
      omega

/-- The fields of a text are those of its timestamp. -/
theorem parse_characters (d : DateTime) : ∃ clock, clock.size = d.utcoffset.natAbs ∧
    parse d.characters = some ⟨d.year, d.month, d.day,
      ⟨d.hour, d.minute, d.second, d.microsecond⟩, decide (d.utcoffset < 0), clock⟩ := by
  have hyear : d.year < 10 ^ 4 := by have := d.year_mem; omega
  have hmonth : d.month < 10 ^ 2 := by have := d.month_mem; omega
  have hday : d.day < 10 ^ 2 := by
    have := d.day_mem
    have hle : daysInMonth d.year d.month ≤ 31 := by
      unfold daysInMonth
      split_ifs <;> decide
    omega
  have hhour := d.hour_lt
  have hminute := d.minute_lt
  have hsecond := d.second_lt
  have hmicrosecond := d.microsecond_lt
  obtain ⟨clock, hclock, hsize⟩ := readClock_offsetSize d.utcoffset_lt
  have hpoint : ∀ c ∈ (formatOffset d.utcoffset).head?, c ≠ '.' := by
    unfold formatOffset
    rintro c ⟨⟩
    split <;> decide
  have htime : readClock (digits 2 d.hour ++ ':' :: (digits 2 d.minute ++ ':' ::
      (digits 2 d.second ++ (fraction d.microsecond ++ formatOffset d.utcoffset))))
        = some (⟨d.hour, d.minute, d.second, d.microsecond⟩, formatOffset d.utcoffset) :=
    readClock_of_fraction (by omega) (by omega) (by omega) (by omega) hpoint
  have hsign : readSign (formatOffset d.utcoffset)
      = some (decide (d.utcoffset < 0), offsetSize d.utcoffset.natAbs) := by
    unfold formatOffset
    by_cases h : d.utcoffset < 0 <;> simp [h, readSign]
  refine ⟨clock, hsize, ?_⟩
  unfold characters parse
  simp only [readDigits_digits hyear, readDigits_digits hmonth, readDigits_digits hday, htime,
    hsign, hclock, Option.bind_eq_bind, Option.bind_some, skip, if_true]

/-- `fromisoformat` inverts `isoformat`, but for offsets below one second. -/
theorem fromisoformat_isoformat (d : DateTime) : fromisoformat d.isoformat = some d.readBack := by
  obtain ⟨clock, hsize, hparse⟩ := parse_characters d
  have hoffset : Fields.utcoffset ⟨d.year, d.month, d.day,
      ⟨d.hour, d.minute, d.second, d.microsecond⟩, decide (d.utcoffset < 0), clock⟩
        = d.readBack.utcoffset := by
    simp only [Fields.utcoffset, readBack, hsize, decide_eq_true_eq]
    split <;> split <;> first | rfl | omega
  unfold fromisoformat isoformat
  rw [String.toList_ofList, fromCharacters, hparse, Option.bind_some, hoffset]
  exact dif_pos ⟨d.year_mem, d.month_mem, d.day_mem, d.hour_lt, d.minute_lt, d.second_lt,
    d.microsecond_lt, d.readBack.utcoffset_lt⟩

/-- A text has one timestamp. -/
theorem isoformat_injective : Function.Injective isoformat := by
  intro d e h
  obtain ⟨clock, hsize, hparse⟩ := parse_characters d
  obtain ⟨clock', hsize', hparse'⟩ := parse_characters e
  have hcharacters : d.characters = e.characters := String.ofList_injective h
  rw [hcharacters, hparse'] at hparse
  have hfields := Option.some.inj hparse
  simp only [Fields.mk.injEq, Clock.mk.injEq, decide_eq_decide] at hfields
  obtain ⟨hyear, hmonth, hday, ⟨hhour, hminute, hsecond, hmicrosecond⟩, hsign, rfl⟩ := hfields
  have hoffset : d.utcoffset = e.utcoffset := by omega
  cases d
  cases e
  simp_all

/-! ### Rows -/

variable {φ : Type} {py : Json.Numbers φ}

variable (py) in
/-- The row of a recorded event. -/
def textRow (entry : Nat × EventRecord φ) : TextRow :=
  ⟨entry.1, entry.2.type, entry.2.component, entry.2.severity.value,
    entry.2.timestamp.isoformat, String.ofList (Json.text py entry.2.metadata)⟩

/-- `json.dumps` accepts the metadata. -/
def Accepted (py : Json.Numbers φ) (e : EventRecord φ) : Prop :=
  Json.writable py e.metadata = true ∧ e.metadata.distinct

/-- The event with the timestamp that its text is read as. -/
def EventRecord.readBack (e : EventRecord φ) : EventRecord φ :=
  { e with timestamp := e.timestamp.readBack }

/-- A row is read back as the event that was recorded. -/
theorem toEvent_textRow {entry : Nat × EventRecord φ} (h : Accepted py entry.2) :
    TextRow.toEvent py (textRow py entry) = .ok (EventRecord.readBack entry.2) := by
  have hdumps : Json.dumps py entry.2.metadata = .ok (String.ofList (Json.text py entry.2.metadata)) :=
    if_pos h.1
  simp only [TextRow.toEvent, textRow, Severity.ofValue?_value, fromisoformat_isoformat,
    Json.loads_dumps h.2 hdumps]
  rfl

/-- How the table of values sees an event. `view` is how it sees the metadata. -/
def erase (view : Json φ → List (String × MetadataValue)) (e : EventRecord φ) : Event DateTime :=
  ⟨e.type, e.component, e.severity, e.timestamp, view e.metadata⟩

/-- The row of the event in the table of values. -/
def valueRow (view : Json φ → List (String × MetadataValue)) (entry : Nat × EventRecord φ) :
    Row DateTime :=
  ⟨entry.1, entry.2.type, entry.2.component, entry.2.severity.value, entry.2.timestamp,
    view entry.2.metadata⟩

variable (py) in
/-- The operation on the table of values. What `json.dumps` refuses is not recorded. -/
def applyValue (view : Json φ → List (String × MetadataValue)) (t : EventTable DateTime) :
    TextLog.Op φ → EventTable DateTime
  | .event e => if Json.writable py e.metadata then EventLog.onEvent t (erase view e) else t
  | .prune olderThan => (t.pruneEventsOlderThan olderThan).1

/-! ### Two tables of the same events -/

/-- Both tables hold the same numbered events. -/
structure SameEvents (py : Json.Numbers φ) (view : Json φ → List (String × MetadataValue))
    (entries : List (Nat × EventRecord φ)) (t : TextTable) (v : EventTable DateTime) : Prop where
  sequence : t.sequence = v.sequence
  accepted : ∀ entry ∈ entries, Accepted py entry.2
  text : t.rows = entries.map (textRow py)
  value : v.rows = entries.map (valueRow view)

variable (py) in
/-- The numbered events after an operation. -/
def applyEntries (n : Nat) (entries : List (Nat × EventRecord φ)) :
    TextLog.Op φ → List (Nat × EventRecord φ)
  | .event e => if Json.writable py e.metadata then entries ++ [(n + 1, e)] else entries
  | .prune olderThan => entries.filter fun entry => ¬ entry.2.timestamp < olderThan

namespace SameEvents

variable {view : Json φ → List (String × MetadataValue)} {entries : List (Nat × EventRecord φ)}
  {t : TextTable} {v : EventTable DateTime}

theorem apply (h : SameEvents py view entries t v) (op : TextLog.Op φ)
    (hdistinct : ∀ e, op = .event e → e.metadata.distinct) :
    SameEvents py view (applyEntries py t.sequence entries op) (TextLog.apply py t op)
      (applyValue py view v op) := by
  cases op with
  | event e =>
    by_cases hw : Json.writable py e.metadata = true
    · have hdumps : Json.dumps py e.metadata = .ok (String.ofList (Json.text py e.metadata)) :=
        if_pos hw
      simp only [applyEntries, TextLog.apply, TextLog.onEvent, hdumps, applyValue, hw, if_true]
      refine ⟨congrArg (· + 1) h.sequence, ?_, ?_, ?_⟩
      · intro entry hentry
        rcases List.mem_append.mp hentry with hentry | hentry
        · exact h.accepted entry hentry
        · rw [List.mem_singleton.mp hentry]
          exact ⟨hw, hdistinct e rfl⟩
      · rw [List.map_append, ← h.text]
        rfl
      · rw [List.map_append, ← h.value, h.sequence]
        rfl
    · have hdumps : ∃ err, Json.dumps py e.metadata = .error err := ⟨_, if_neg hw⟩
      obtain ⟨err, hdumps⟩ := hdumps
      simp only [applyEntries, TextLog.apply, TextLog.onEvent, hdumps, applyValue, hw,
        Bool.false_eq_true, if_false]
      exact h
  | prune olderThan =>
    refine ⟨h.sequence, fun entry hentry => h.accepted entry (List.mem_filter.mp hentry).1, ?_, ?_⟩
    · show t.rows.filter _ = _
      rw [h.text, List.filter_map]
      rfl
    · show v.rows.filter _ = _
      rw [h.value, List.filter_map]
      rfl

end SameEvents

/-- After any operations both tables hold the same numbered events, and each of them is one of the
published events. The entries do not depend on the view. -/
theorem sameEvents_foldl (ops : List (TextLog.Op φ))
    (hdistinct : ∀ e, .event e ∈ ops → e.metadata.distinct) :
    ∃ entries : List (Nat × EventRecord φ), (∀ entry ∈ entries, .event entry.2 ∈ ops) ∧
      ∀ view, SameEvents py view entries (ops.foldl (TextLog.apply py) {})
        (ops.foldl (applyValue py view) .empty) := by
  induction ops using List.reverseRecOn with
  | nil => exact ⟨[], nofun, fun view => ⟨rfl, nofun, rfl, rfl⟩⟩
  | append_singleton ops op ih =>
    obtain ⟨entries, hmem, hsame⟩ := ih fun e he => hdistinct e (List.mem_append_left _ he)
    refine ⟨applyEntries py (ops.foldl (TextLog.apply py) {}).sequence entries op, ?_, ?_⟩
    · intro entry hentry
      cases op with
      | event e =>
        simp only [applyEntries] at hentry
        split at hentry
        · rcases List.mem_append.mp hentry with hentry | hentry
          · exact List.mem_append_left _ (hmem entry hentry)
          · rw [List.mem_singleton.mp hentry]
            exact List.mem_append_right _ (List.mem_singleton.mpr rfl)
        · exact List.mem_append_left _ (hmem entry hentry)
      | prune olderThan =>
        exact List.mem_append_left _ (hmem entry (List.mem_filter.mp hentry).1)
    · intro view
      rw [List.foldl_append, List.foldl_append]
      exact (hsame view).apply op fun e he =>
        hdistinct e (List.mem_append_right _ (List.mem_singleton.mpr he.symm))

/-! ### Queries -/

theorem sqlLimit_map {α β : Type} (limit : Int) (g : α → β) (xs : List α) :
    sqlLimit limit (xs.map g) = (sqlLimit limit xs).map g := by
  unfold sqlLimit
  split
  · rfl
  · rw [List.map_take]

theorem sliceTo_map {α β : Type} (stop : Int) (g : α → β) (xs : List α) :
    sliceTo stop (xs.map g) = (sliceTo stop xs).map g := by
  rw [sliceTo, sliceTo, List.length_map, List.map_take]

/-- The clauses of a query select the same events in both tables. -/
theorem matches_textRow (f : Filters DateTime) (view : Json φ → List (String × MetadataValue))
    (entry : Nat × EventRecord φ) :
    TextRow.matches f.texts (textRow py entry) = f.matches (valueRow view entry) := by
  simp only [TextRow.matches, Filters.matches, Filters.texts, Option.all_map]
  rfl

variable (py) in
/-- The entries that a query reads. -/
def selected (entries : List (Nat × EventRecord φ)) (f : Filters DateTime) (limit : Int)
    (newestFirst : Bool) : List (Nat × EventRecord φ) :=
  let found := entries.filter fun entry => TextRow.matches f.texts (textRow py entry)
  sqlLimit limit (if newestFirst then found.reverse else found)

namespace SameEvents

variable {view : Json φ → List (String × MetadataValue)} {entries : List (Nat × EventRecord φ)}
  {t : TextTable} {v : EventTable DateTime}

theorem loadEvents (h : SameEvents py view entries t v) (f : Filters DateTime) {limit : Int}
    (hint : isSqlInteger limit) (newestFirst : Bool) :
    t.loadEvents f.texts limit newestFirst
        = .ok ((selected py entries f limit newestFirst).map (textRow py)) ∧
      v.loadEvents f limit newestFirst
        = .ok ((selected py entries f limit newestFirst).map (valueRow view)) := by
  have hvalue : entries.filter (fun entry => f.matches (valueRow view entry))
      = entries.filter fun entry => TextRow.matches f.texts (textRow py entry) :=
    List.filter_congr fun entry _ => (matches_textRow f view entry).symm
  unfold TextTable.loadEvents EventTable.loadEvents selected
  rw [h.text, h.value, List.filter_map, List.filter_map, ← sqlLimit_map, ← sqlLimit_map]
  constructor
  · rw [if_pos hint]
    split
    · rw [List.map_reverse]
      rfl
    · rfl
  · rw [if_pos hint]
    show Except.ok (sqlLimit limit (if newestFirst then
      ((entries.filter fun entry => f.matches (valueRow view entry)).map _).reverse else
        (entries.filter fun entry => f.matches (valueRow view entry)).map _)) = _
    rw [hvalue]
    split
    · rw [List.map_reverse]
    · rfl

end SameEvents

theorem mem_of_mem_selected {entries : List (Nat × EventRecord φ)} {f : Filters DateTime}
    {limit : Int} {newestFirst : Bool} {entry : Nat × EventRecord φ}
    (h : entry ∈ selected py entries f limit newestFirst) : entry ∈ entries := by
  have hmem := mem_of_mem_sqlLimit h
  split at hmem
  · exact (List.mem_filter.mp (List.mem_reverse.mp hmem)).1
  · exact (List.mem_filter.mp hmem).1

/-- Rows of accepted events are read back. -/
theorem mapM_toEvent_textRow {entries : List (Nat × EventRecord φ)}
    (h : ∀ entry ∈ entries, Accepted py entry.2) :
    (entries.map (textRow py)).mapM (TextRow.toEvent py)
      = .ok ((entries.map (·.2)).map EventRecord.readBack) := by
  induction entries with
  | nil => rfl
  | cons entry entries ih =>
    obtain ⟨hentry, hentries⟩ := List.forall_mem_cons.mp h
    rw [List.map_cons, List.mapM_cons, toEvent_textRow hentry, ih hentries]
    rfl

/-- The same in the table of values. -/
theorem mapM_toEvent_valueRow (view : Json φ → List (String × MetadataValue))
    (entries : List (Nat × EventRecord φ)) :
    (entries.map (valueRow view)).mapM (Row.toEvent readBack)
      = .ok (((entries.map (·.2)).map EventRecord.readBack).map (erase view)) := by
  rw [mapM_toEvent]
  · simp [eventOf, valueRow, erase, readBackEvent, EventRecord.readBack]
  · intro row hrow
    obtain ⟨entry, -, rfl⟩ := List.mem_map.mp hrow
    exact ⟨_, Severity.ofValue?_value entry.2.severity⟩

/-- What a query makes of the events that it has read. -/
def narrow {α : Type} (rank : α → Nat) (minSeverity : Option Severity) (limit : Int)
    (events : List α) : List α :=
  match minSeverity with
  | none => events
  | some threshold => sliceTo limit (events.filter fun e => threshold.rank ≤ rank e)

theorem mem_of_mem_narrow {α : Type} {rank : α → Nat} {minSeverity : Option Severity} {limit : Int}
    {events : List α} {e : α} (h : e ∈ narrow rank minSeverity limit events) : e ∈ events := by
  cases minSeverity with
  | none => exact h
  | some threshold => exact (List.mem_filter.mp (List.mem_of_mem_take h)).1

theorem narrow_map {α β : Type} (g : α → β) (rank : β → Nat) (minSeverity : Option Severity)
    (limit : Int) (events : List α) :
    narrow rank minSeverity limit (events.map g)
      = (narrow (rank ∘ g) minSeverity limit events).map g := by
  cases minSeverity with
  | none => rfl
  | some threshold =>
    simp only [narrow]
    rw [List.filter_map, sliceTo_map]
    rfl

theorem textQuery_eq {t : TextTable} {f : Filters DateTime} {minSeverity : Option Severity}
    {limit : Int} {newestFirst : Bool} {rows : List TextRow} {events : List (EventRecord φ)}
    (hrows : t.loadEvents f.texts (if minSeverity.isNone then limit else severityScanLimit)
      newestFirst = .ok rows)
    (hevents : rows.mapM (TextRow.toEvent py) = .ok events) :
    TextLog.query py t f minSeverity limit newestFirst
      = .ok (narrow (·.severity.rank) minSeverity limit events) := by
  simp only [TextLog.query, hrows, hevents, bind, Except.bind]
  cases minSeverity <;> rfl

theorem valueQuery_eq {v : EventTable DateTime} {f : Filters DateTime}
    {minSeverity : Option Severity} {limit : Int} {newestFirst : Bool} {rows : List (Row DateTime)}
    {events : List (Event DateTime)}
    (hrows : v.loadEvents f (if minSeverity.isNone then limit else severityScanLimit)
      newestFirst = .ok rows)
    (hevents : rows.mapM (Row.toEvent readBack) = .ok events) :
    EventLog.query v f minSeverity limit newestFirst readBack
      = .ok (narrow (·.severity.rank) minSeverity limit events) := by
  simp only [EventLog.query, hrows, hevents, bind, Except.bind]
  cases minSeverity <;> rfl

/-- The timeline reads back what was recorded. After any sequence of published events and
prunings, a query over the texts in the database succeeds, unless its own limit goes to SQLite and
is no integer there. It returns recorded events with all their data, where an offset below one
second has become UTC, and the same ones, in the same order, as the query over the values. -/
theorem query_refines (py : Json.Numbers φ) (ops : List (TextLog.Op φ))
    (hdistinct : ∀ e, .event e ∈ ops → e.metadata.distinct) (f : Filters DateTime)
    (minSeverity : Option Severity) (limit : Int)
    (hlimit : minSeverity = none → isSqlInteger limit) (newestFirst : Bool) :
    ∃ found : List (EventRecord φ),
      TextLog.query py (ops.foldl (TextLog.apply py) {}) f minSeverity limit newestFirst
        = .ok (found.map EventRecord.readBack) ∧
      (∀ e ∈ found, .event e ∈ ops) ∧
      ∀ view, EventLog.query (ops.foldl (applyValue py view) .empty) f minSeverity limit
        newestFirst readBack = .ok ((found.map EventRecord.readBack).map (erase view)) := by
  obtain ⟨entries, hmem, hsame⟩ := sameEvents_foldl ops hdistinct
  let bound := if minSeverity.isNone then limit else severityScanLimit
  let read := selected py entries f bound newestFirst
  have hread : ∀ entry ∈ read, entry ∈ entries := fun entry => mem_of_mem_selected
  have hbound : isSqlInteger bound := by
    cases minSeverity with
    | none => exact hlimit rfl
    | some threshold => exact (by decide : isSqlInteger severityScanLimit)
  refine ⟨narrow (·.severity.rank) minSeverity limit (read.map (·.2)), ?_, ?_, ?_⟩
  · have hsame := hsame fun _ => []
    rw [textQuery_eq (hsame.loadEvents f hbound newestFirst).1
      (mapM_toEvent_textRow fun entry hentry => hsame.accepted entry (hread entry hentry)),
      narrow_map]
    rfl
  · intro e he
    obtain ⟨entry, hentry, rfl⟩ := List.mem_map.mp (mem_of_mem_narrow he)
    exact hmem entry (hread entry hentry)
  · intro view
    rw [valueQuery_eq ((hsame view).loadEvents f hbound newestFirst).2
      (mapM_toEvent_valueRow view _), narrow_map, narrow_map]
    rfl

/-- Python's numbers, with 0.5 for the floats. -/
def onlyHalf : Json.Numbers Unit where
  maxStrDigits := 4300
  repr _ :=
    { negative := false
      whole := 0
      fraction := ['5']
      fraction_digits := by simp
      exponent_digits := by simp
      isFloat := .inl (by simp) }
  float _ := .inl ()
  float_repr _ := rfl

/-- An event with nested metadata. -/
def diskEvent : EventRecord Unit where
  type := "storage_low"
  component := "storage"
  severity := .warning
  timestamp :=
    { year := 2023, month := 2, day := 3, hour := 4, minute := 5, second := 6, microsecond := 4500,
      utcoffset := -19800000000 }
  metadata := .obj [("used_ratio", .float ()), ("mounts", .arr [.str "/", .str "dät\n"])]

theorem distinct_diskEvent : diskEvent.metadata.distinct := by
  simp [diskEvent, Json.distinct, Json.distinctMembers, Json.distinctElements]

/-- The event is read back from a timeline that was pruned. -/
theorem query_refines_diskEvent :
    ∃ found : List (EventRecord Unit), TextLog.query onlyHalf ([.event diskEvent, .prune diskEvent.timestamp].foldl
        (TextLog.apply onlyHalf) {}) {} none 10 true = .ok (found.map EventRecord.readBack) ∧
      ∀ e ∈ found, .event e ∈ [TextLog.Op.event diskEvent, .prune diskEvent.timestamp] := by
  obtain ⟨found, hquery, hmem, -⟩ := query_refines onlyHalf
    [.event diskEvent, .prune diskEvent.timestamp] (by
      intro e he
      rcases List.mem_cons.mp he with he | he
      · cases he
        exact distinct_diskEvent
      · simp at he) {} none 10 (fun _ => by decide) true
  exact ⟨found, hquery, hmem⟩

/-! ### The payload of the forwarders -/

theorem distinct_toJson {e : EventRecord φ} (h : e.metadata.distinct) : e.toJson.distinct := by
  refine ⟨by simp, ?_⟩
  simp [Json.distinctMembers, Json.distinct, h]

/-- The receiver of a forwarded event decodes its payload to the dictionary of the event. This
holds all that the event has: no other event has the same payload. -/
theorem eventPayload_decodes (py : Json.Numbers φ) (e : EventRecord φ) (payload : String)
    (hdistinct : e.metadata.distinct) (h : eventPayload py e = .ok payload) :
    Json.loads py payload = .ok e.toJson ∧
      ∀ e' : EventRecord φ, e'.metadata.distinct → eventPayload py e' = .ok payload → e' = e := by
  have hread := Json.loads_dumps (distinct_toJson hdistinct) h
  refine ⟨hread, fun e' hdistinct' h' => ?_⟩
  have hread' := Json.loads_dumps (distinct_toJson hdistinct') h'
  have hsame : e'.toJson = e.toJson := Except.ok.inj (hread'.symm.trans hread)
  simp only [EventRecord.toJson, Json.obj.injEq, List.cons.injEq, Prod.mk.injEq, Json.str.injEq,
    true_and, and_true] at hsame
  obtain ⟨htype, hcomponent, hseverity, htimestamp, hmetadata⟩ := hsame
  -- The value of a severity and the text of a timestamp determine it.
  have hseverity : e'.severity = e.severity := by
    have := congrArg Severity.ofValue? hseverity
    simpa using this
  have htimestamp : e'.timestamp = e.timestamp := isoformat_injective htimestamp
  cases e
  cases e'
  simp_all

/-- The payload of the event. -/
theorem eventPayload_decodes_diskEvent : ∃ payload, eventPayload onlyHalf diskEvent = .ok payload ∧
    Json.loads onlyHalf payload = .ok diskEvent.toJson := by
  have hpayload : eventPayload onlyHalf diskEvent
      = .ok (String.ofList (Json.text onlyHalf diskEvent.toJson)) := by
    rw [eventPayload, Json.dumps, if_pos (by rfl)]
  exact ⟨_, hpayload, (eventPayload_decodes onlyHalf diskEvent _ distinct_diskEvent hpayload).1⟩

end EdgeSentinel.Proofs.Diagnostics
