import EdgeSentinel.Proofs.Diagnostics.Replay

/-!
# `EdgeSentinel.Proofs.Diagnostics.SeverityScan`: queries with a minimum severity

A query with `min_severity` reads the first 2000 matching rows, whatever its limit, and filters
and truncates them afterwards. `query_severity_iff` says when it returns the first `limit` events
of that severity: enough of them are among the first 2000 matching rows, or none comes later. The
query without `min_severity` hands its limit to SQLite, which has integers of 64 bits.
-/

set_option autoImplicit false

namespace EdgeSentinel.Proofs.Diagnostics

open EdgeSentinel.Core
open EdgeSentinel.Diagnostics

variable {τ : Type}

/-- The severity of every row is the value of a severity. -/
def ValidSeverities (t : EventTable τ) : Prop :=
  ∀ row ∈ t.rows, ∃ s, Severity.ofValue? row.severity = some s

/-- The event of a row with a valid severity. -/
def eventOf (row : Row τ) : Event τ :=
  ⟨row.type, row.component, (Severity.ofValue? row.severity).getD .info, row.timestamp,
    row.metadata⟩

/-- The event has the severity `s` or a higher one. -/
def atLeast (s : Severity) (e : Event τ) : Bool := s.rank ≤ e.severity.rank

section
variable [LE τ] [DecidableLE τ]

/-- The rows that match the filters, in the order of the query. -/
def matching (t : EventTable τ) (f : Filters τ) (newestFirst : Bool) : List (Row τ) :=
  if newestFirst then (t.rows.filter f.matches).reverse else t.rows.filter f.matches

/-- Among the first 2000 matching rows there are `limit` rows of the severity, or no later one
has it. -/
def WithinScan (t : EventTable τ) (f : Filters τ) (s : Severity) (limit : Nat)
    (newestFirst : Bool) : Prop :=
  limit ≤ (((matching t f newestFirst).take 2000).filter fun row =>
      atLeast s (eventOf row)).length ∨
    ∀ row ∈ (matching t f newestFirst).drop 2000, atLeast s (eventOf row) = false

end

/-- Truncating a list before it is filtered does not show in the first `n` elements exactly when
there are `n` of them before the cut, or none after it. -/
theorem take_filter_take_iff {α : Type} (p : α → Bool) (xs : List α) (m n : Nat) :
    ((xs.take m).filter p).take n = (xs.filter p).take n ↔
      n ≤ ((xs.take m).filter p).length ∨ ∀ x ∈ xs.drop m, p x = false := by
  have hsplit : xs.filter p = (xs.take m).filter p ++ (xs.drop m).filter p := by
    rw [← List.filter_append, List.take_append_drop]
  have hrest : (xs.drop m).filter p = [] ↔ ∀ x ∈ xs.drop m, p x = false := by
    simp [List.filter_eq_nil_iff]
  rw [hsplit, List.take_append, List.self_eq_append_right, List.take_eq_nil_iff, hrest,
    Nat.sub_eq_zero_iff_le]

/-- The event with the timestamp that `readBack` makes of its own. -/
def readBackEvent (readBack : τ → τ) (e : Event τ) : Event τ :=
  { e with timestamp := readBack e.timestamp }

theorem readBackEvent_id : readBackEvent (id : τ → τ) = id := rfl

/-- Truncating a list first does not show in its first `n` elements exactly when the cut comes after
them, or there is nothing to cut off. -/
theorem take_take_iff {α : Type} (xs : List α) (m n : Nat) :
    (xs.take m).take n = xs.take n ↔ n ≤ m ∨ xs.length ≤ m := by
  rw [List.take_take]
  constructor
  · intro h
    have hlength := congrArg List.length h
    rw [List.length_take, List.length_take] at hlength
    omega
  · rintro (hle | hle)
    · rw [Nat.min_eq_left hle]
    · rcases Nat.le_total n m with hnm | hnm
      · rw [Nat.min_eq_left hnm]
      · rw [Nat.min_eq_right hnm, List.take_of_length_le hle,
          List.take_of_length_le (hle.trans hnm)]

/-- Every event has the severity INFO or a higher one. -/
theorem filter_atLeast_info (events : List (Event τ)) : events.filter (atLeast .info) = events :=
  List.filter_eq_self.mpr fun e _ => decide_eq_true (Nat.zero_le e.severity.rank)

/-- Rows with valid severities are read. -/
theorem mapM_toEvent (readBack : τ → τ) {rows : List (Row τ)}
    (h : ∀ row ∈ rows, ∃ s, Severity.ofValue? row.severity = some s) :
    rows.mapM (Row.toEvent readBack)
      = .ok (rows.map fun row => readBackEvent readBack (eventOf row)) := by
  induction rows with
  | nil => rfl
  | cons row rows ih =>
    obtain ⟨s, hs⟩ := h row List.mem_cons_self
    have hrow : row.toEvent readBack = .ok (readBackEvent readBack (eventOf row)) := by
      simp [Row.toEvent, eventOf, readBackEvent, hs]
    rw [List.mapM_cons, hrow, ih fun row' hrow' => h row' (List.mem_cons_of_mem row hrow')]
    rfl

section
variable [LE τ] [DecidableLE τ]

theorem mem_rows_of_mem_matching {t : EventTable τ} {f : Filters τ} {newestFirst : Bool}
    {row : Row τ} (h : row ∈ matching t f newestFirst) : row ∈ t.rows := by
  unfold matching at h
  split at h
  · exact (List.mem_filter.mp (List.mem_reverse.mp h)).1
  · exact (List.mem_filter.mp h).1

theorem loadEvents_eq {t : EventTable τ} {f : Filters τ} {newestFirst : Bool} {limit : Int}
    (hint : isSqlInteger limit) :
    t.loadEvents f limit newestFirst = .ok (sqlLimit limit (matching t f newestFirst)) :=
  if_pos hint

/-- SQLite does not get a limit that it cannot have. -/
theorem query_overflow (t : EventTable τ) (f : Filters τ) (newestFirst : Bool) {limit : Int}
    (hint : ¬ isSqlInteger limit) (readBack : τ → τ) :
    EventLog.query t f none limit newestFirst readBack = .error (.overflowError limit) := by
  have hrows : t.loadEvents f limit newestFirst = .error (.overflowError limit) := if_neg hint
  simp [EventLog.query, hrows, bind, Except.bind]

theorem mem_of_mem_sqlLimit {α : Type} {limit : Int} {xs : List α} {x : α}
    (h : x ∈ sqlLimit limit xs) : x ∈ xs := by
  unfold sqlLimit at h
  split at h
  · exact h
  · exact List.mem_of_mem_take h

/-- The plain query. -/
theorem query_none {t : EventTable τ} (hvalid : ValidSeverities t) (f : Filters τ)
    (newestFirst : Bool) {limit : Int} (hint : isSqlInteger limit) (readBack : τ → τ) :
    EventLog.query t f none limit newestFirst readBack
      = .ok ((sqlLimit limit (matching t f newestFirst)).map fun row =>
          readBackEvent readBack (eventOf row)) := by
  have hread := mapM_toEvent readBack
    fun row (hrow : row ∈ sqlLimit limit (matching t f newestFirst)) =>
      hvalid row (mem_rows_of_mem_matching (mem_of_mem_sqlLimit hrow))
  simp [EventLog.query, loadEvents_eq hint, hread, bind, Except.bind, pure, Except.pure]

/-- The plain query with a limit that is no limit. A negative one is none for SQLite. -/
theorem query_plain {t : EventTable τ} (hvalid : ValidSeverities t) (f : Filters τ)
    (newestFirst : Bool) {limit : Int} (hint : isSqlInteger limit)
    (hlimit : limit < 0 ∨ (matching t f newestFirst).length ≤ limit) :
    EventLog.query t f none limit newestFirst
      = .ok ((matching t f newestFirst).map eventOf) := by
  have hrows : sqlLimit limit (matching t f newestFirst) = matching t f newestFirst := by
    unfold sqlLimit
    split
    · rfl
    · exact List.take_of_length_le (by omega)
  rw [query_none hvalid f newestFirst hint, hrows]
  rfl

/-- The query with a minimum severity. -/
theorem query_severity {t : EventTable τ} (hvalid : ValidSeverities t) (f : Filters τ)
    (s : Severity) (limit : Nat) (newestFirst : Bool) :
    EventLog.query t f (some s) limit newestFirst
      = .ok (((((matching t f newestFirst).take 2000).map eventOf).filter (atLeast s)).take
          limit) := by
  have hrows : t.loadEvents f severityScanLimit newestFirst
      = .ok ((matching t f newestFirst).take 2000) := by
    simp [EventTable.loadEvents, isSqlInteger, sqlLimit, severityScanLimit, matching]
  have hread := mapM_toEvent id fun row (hrow : row ∈ (matching t f newestFirst).take 2000) =>
    hvalid row (mem_rows_of_mem_matching (List.mem_of_mem_take hrow))
  simp only [readBackEvent_id, id_eq] at hread
  -- The slice `[:limit]` is taken after the filter.
  have hslice : ∀ events : List (Event τ), sliceTo (limit : Int) events = events.take limit := by
    intro events
    rw [sliceTo, if_neg (by omega), Int.toNat_natCast]
  simp [EventLog.query, hrows, hread, hslice, bind, Except.bind, pure, Except.pure]
  rfl

/-- The scan reaches the first events of the severity. -/
theorem scan_iff (t : EventTable τ) (f : Filters τ) (s : Severity) (limit : Nat)
    (newestFirst : Bool) :
    ((((matching t f newestFirst).take 2000).map eventOf).filter (atLeast s)).take limit
        = (((matching t f newestFirst).map eventOf).filter (atLeast s)).take limit ↔
      WithinScan t f s limit newestFirst := by
  rw [List.map_take, take_filter_take_iff, WithinScan, ← List.map_take, ← List.map_drop,
    List.filter_map, List.length_map]
  simp only [List.forall_mem_map]
  rfl

/-- A query with a minimum severity returns the first events of the plain query that have it,
exactly when the scan reaches them. With the minimum severity INFO it returns what the query without
one returns for the same limit, exactly when SQLite has the limit, and the scan reaches the first
`limit` events or is over all events. -/
theorem query_severity_iff (t : EventTable τ) (hvalid : ValidSeverities t) (f : Filters τ)
    (s : Severity) (limit : Nat) (newestFirst : Bool) :
    ∃ events, EventLog.query t f none (-1) newestFirst = .ok events ∧
      (EventLog.query t f (some s) limit newestFirst
          = .ok ((events.filter (atLeast s)).take limit) ↔
        WithinScan t f s limit newestFirst) ∧
      (EventLog.query t f (some .info) limit newestFirst
          = EventLog.query t f none limit newestFirst ↔
        isSqlInteger limit ∧ (limit ≤ 2000 ∨ events.length ≤ 2000)) := by
  refine ⟨_, query_plain hvalid f newestFirst (by decide) (Or.inl (by decide)), ?_, ?_⟩
  · rw [query_severity hvalid, Except.ok.injEq, scan_iff]
  · rw [query_severity hvalid, filter_atLeast_info]
    by_cases hint : isSqlInteger limit
    · have hlimit : sqlLimit (limit : Int) (matching t f newestFirst)
          = (matching t f newestFirst).take limit := by
        rw [sqlLimit, if_neg (by omega), Int.toNat_natCast]
      rw [query_none hvalid f newestFirst hint, hlimit, Except.ok.injEq, readBackEvent_id,
        List.map_take]
      show _ = ((matching t f newestFirst).take limit).map eventOf ↔ _
      rw [List.map_take, take_take_iff]
      exact (and_iff_right hint).symm
    · rw [query_overflow t f newestFirst hint]
      exact iff_of_false (by intro h; cases h) fun h => hint h.1

end

/-! ### A rare event behind many -/

/-- The rows of recorded events have valid severities. -/
theorem validSeverities_record (events : List (Event τ)) :
    ValidSeverities (EventLog.record events) := by
  induction events using List.reverseRecOn with
  | nil => simp [ValidSeverities, EventLog.record, EventTable.empty]
  | append_singleton events e ih =>
    intro row hrow
    rw [EventLog.record, List.foldl_append] at hrow
    rcases List.mem_append.mp hrow with hrow | hrow
    · exact ih row hrow
    · rw [List.mem_singleton.mp hrow]
      exact ⟨e.severity, Severity.ofValue?_value e.severity⟩

/-- The rows of recorded events are the events. -/
theorem map_eventOf_record (events : List (Event τ)) :
    (EventLog.record events).rows.map eventOf = events := by
  have hread := mapM_toEvent id (validSeverities_record events)
  rw [mapM_toEvent_record, Except.ok.injEq] at hread
  exact hread.symm

/-- A plain query without filters returns the recorded events. -/
theorem matching_record [LE τ] [DecidableLE τ] (events : List (Event τ)) :
    (matching (EventLog.record events) {} true).map eventOf = events.reverse := by
  have hall : (EventLog.record events).rows.filter ({} : Filters τ).matches
      = (EventLog.record events).rows :=
    List.filter_eq_self.mpr fun row _ => by simp [Filters.matches]
  rw [matching, if_pos rfl, hall, List.map_reverse, map_eventOf_record]

/-- An event of the runtime of the given severity. -/
def logged (severity : Severity) : Event Nat where
  type := "noted"
  component := "runtime"
  severity := severity
  timestamp := 0

/-- The only event is found. -/
theorem query_severity_iff_one :
    ∃ events, EventLog.query (EventLog.record [logged .critical]) {} none (-1) true
        = .ok events ∧
      EventLog.query (EventLog.record [logged .critical]) {} (some .error) (1 : Nat) true
        = .ok ((events.filter (atLeast .error)).take 1) ∧
      EventLog.query (EventLog.record [logged .critical]) {} (some .info) (1 : Nat) true
        = EventLog.query (EventLog.record [logged .critical]) {} none (1 : Nat) true := by
  obtain ⟨events, hplain, hiff, hinfo⟩ := query_severity_iff (EventLog.record [logged .critical])
    (validSeverities_record _) {} .error 1 true
  exact ⟨events, hplain, hiff.mpr (Or.inl (by decide)),
    hinfo.mpr ⟨by decide, Or.inl (by decide)⟩⟩

/-- A critical event that 2000 others came after is not found. -/
theorem scan_misses_critical :
    ¬ ∀ (t : EventTable Nat), ValidSeverities t → ∀ (f : Filters Nat) (s : Severity)
      (limit : Nat) (newestFirst : Bool),
      ∃ events, EventLog.query t f none (-1) newestFirst = .ok events ∧
        EventLog.query t f (some s) limit newestFirst
          = .ok ((events.filter (atLeast s)).take limit) := by
  intro h
  have hvalid := validSeverities_record (logged .critical :: List.replicate 2000 (logged .info))
  obtain ⟨events, hplain, hfound⟩ := h _ hvalid {} .critical 1 true
  have hevents := matching_record (logged .critical :: List.replicate 2000 (logged .info))
  rw [List.reverse_cons, List.reverse_replicate] at hevents
  obtain rfl := Except.ok.inj
    ((query_plain hvalid {} true (by decide) (Or.inl (by decide))).symm.trans hplain)
  rw [query_severity hvalid, Except.ok.injEq, List.map_take, take_filter_take_iff, hevents,
    List.take_left' List.length_replicate, List.drop_left' List.length_replicate] at hfound
  -- The first 2000 events are no help, and the last one is critical.
  rcases hfound with hmany | hnone
  · rw [List.filter_replicate_of_neg (by decide)] at hmany
    exact absurd hmany (by decide)
  · exact absurd (hnone (logged .critical) List.mem_cons_self) (by decide)

end EdgeSentinel.Proofs.Diagnostics
