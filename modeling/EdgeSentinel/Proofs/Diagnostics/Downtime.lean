import EdgeSentinel.Diagnostics.Report
import EdgeSentinel.Proofs.Diagnostics.Segmentation

/-!
# `EdgeSentinel.Proofs.Diagnostics.Downtime`: reported downtime is time spent unhealthy

`downtime` counts the time between consecutive state changes of which the first one enters an
unhealthy state. It leaves out the span that is still open: the changes that no later change
closes. `summarizeIncidents_eq` says that the summary reports it, together with the numbers of
the closed and of the open spans.

The proof goes through the events with the builder. While a span is open, the time up to its last
change is a sum that telescopes (`total_foldl_opened`).
-/

set_option autoImplicit false

namespace EdgeSentinel.Proofs.Diagnostics

open EdgeSentinel.Core
open EdgeSentinel.Diagnostics

/-! ### Time in unhealthy states -/

/-- The `state_change` events. -/
def changes {τ : Type} (events : List (Event τ)) : List (Event τ) :=
  events.filter fun e => e.type = "state_change"

/-- The time between consecutive changes, where the first one enters an unhealthy state and a
later one ends the span. -/
def downtime : List (Event DateTime) → Int
  | [] => 0
  | [_] => 0
  | a :: b :: rest =>
    (if IsUnhealthy a ∧ ∃ c ∈ b :: rest, closes c = true
      then b.timestamp.instant - a.timestamp.instant else 0) + downtime (b :: rest)

/-- The span that starts at `i` is closed. -/
def ClosedSpan {τ : Type} (events : List (Event τ)) (i : Nat) : Prop :=
  ∃ e ∈ events.drop i, closes e = true

instance {τ : Type} (events : List (Event τ)) (i : Nat) : Decidable (ClosedSpan events i) :=
  inferInstanceAs (Decidable (∃ e ∈ events.drop i, closes e = true))

theorem closes_isChange {τ : Type} {e : Event τ} (h : closes e = true) :
    e.type = "state_change" := by
  have hboth : e.type = "state_change" ∧ unhealthyState? e = none := by simpa [closes] using h
  exact hboth.1

theorem exists_closes_changes {τ : Type} (events : List (Event τ)) :
    (∃ c ∈ changes events, closes c = true) ↔ ∃ c ∈ events, closes c = true := by
  constructor
  · rintro ⟨c, hc, hcloses⟩
    exact ⟨c, List.mem_of_mem_filter hc, hcloses⟩
  · rintro ⟨c, hc, hcloses⟩
    exact ⟨c, List.mem_filter.mpr ⟨hc, decide_eq_true (closes_isChange hcloses)⟩, hcloses⟩

/-- Time that no change ends is not counted. -/
theorem downtime_of_none_closes :
    ∀ (a : Event DateTime) (rest : List (Event DateTime)), (¬ ∃ c ∈ rest, closes c = true) →
      downtime (a :: rest) = 0 := by
  intro a rest
  induction rest generalizing a with
  | nil => exact fun _ => rfl
  | cons b rest ih =>
    intro hnone
    have hrest : ¬ ∃ c ∈ rest, closes c = true :=
      fun ⟨c, hc, hcloses⟩ => hnone ⟨c, List.mem_cons_of_mem b hc, hcloses⟩
    rw [downtime, if_neg fun h => hnone h.2, ih b hrest]
    rfl

/-- A change that is not into an unhealthy state counts for nothing. -/
theorem downtime_cons_of_healthy {a : Event DateTime} (h : ¬ IsUnhealthy a)
    (rest : List (Event DateTime)) : downtime (a :: rest) = downtime rest := by
  cases rest with
  | nil => rfl
  | cons b rest =>
    rw [downtime, if_neg fun hboth => h hboth.1]
    exact zero_add _

/-! ### The durations of incidents -/

/-- The sum of the durations. -/
def total (incidents : List (Incident DateTime)) : Int :=
  (incidents.filterMap (·.duration)).sum

theorem total_append (xs ys : List (Incident DateTime)) :
    total (xs ++ ys) = total xs + total ys := by
  rw [total, List.filterMap_append, List.sum_append]
  rfl

theorem total_singleton (x : Incident DateTime) {endedAt : DateTime} (h : x.endedAt = some endedAt) :
    total [x] = endedAt.instant - x.startedAt.instant := by
  simp [total, Incident.duration, h]

/-- In the middle of a span with the last change `a`: when a change of the events ends it, its
time up to `a` is added to the time that the events count. -/
def TotalOpened (es : List (Event DateTime)) : Prop :=
  ∀ (b : IncidentBuilder DateTime) (o : OpenIncident DateTime) (a : Event DateTime),
    b.opened = some o → IsUnhealthy a →
    total (es.foldl advance b).closed = total b.closed
      + if ∃ c ∈ es, closes c = true
        then (a.timestamp.instant - o.startedAt.instant) + downtime (a :: changes es) else 0

/-- Between two spans, the events count their own time. -/
def TotalClosed (es : List (Event DateTime)) : Prop :=
  ∀ b : IncidentBuilder DateTime, b.opened = none →
    total (es.foldl advance b).closed = total b.closed + downtime (changes es)

section
variable {e : Event DateTime} {es : List (Event DateTime)}

theorem changes_cons_of_change (h : e.type = "state_change") :
    changes (e :: es) = e :: changes es := List.filter_cons_of_pos (by simpa using h)

theorem changes_cons_of_ne (h : e.type ≠ "state_change") : changes (e :: es) = changes es :=
  List.filter_cons_of_neg (by simpa using h)

/-- A change that does not end a span enters an unhealthy state. -/
theorem isUnhealthy_of_not_closes (htype : e.type = "state_change") (hkeeps : closes e = false) :
    IsUnhealthy e := by
  rw [isUnhealthy_iff_isSome]
  simpa [closes, htype] using hkeeps

theorem not_isUnhealthy_of_closes (hcloses : closes e = true) : ¬ IsUnhealthy e := by
  intro h
  rw [not_closes_of_isUnhealthy h] at hcloses
  cases hcloses

theorem exists_closes_cons_iff (hkeeps : closes e = false) :
    (∃ c ∈ e :: es, closes c = true) ↔ ∃ c ∈ es, closes c = true := by
  simp [hkeeps]

/-- One more event in the middle of a span. -/
theorem TotalOpened.cons (hopened : TotalOpened es) (hclosed : TotalClosed es) :
    TotalOpened (e :: es) := by
  intro b o a ho ha
  rw [List.foldl_cons]
  cases hcloses : closes e with
  | true =>
    -- The span ends: its time is that up to `a`, and from `a` to `e`.
    have hadvance : advance b e = ⟨b.closed
        ++ [⟨o.startedAt, some e.timestamp, o.states, o.events ++ [e]⟩], none⟩ := by
      simp only [advance, ho, hcloses, if_true]
    have hends : ∃ c ∈ e :: es, closes c = true := ⟨e, List.mem_cons_self, hcloses⟩
    have hdowntime : downtime (a :: e :: changes es)
        = (e.timestamp.instant - a.timestamp.instant) + downtime (changes es) := by
      rw [downtime, if_pos ⟨ha, e, List.mem_cons_self, hcloses⟩,
        downtime_cons_of_healthy (not_isUnhealthy_of_closes hcloses)]
    rw [hadvance, hclosed _ rfl, if_pos hends, changes_cons_of_change (closes_isChange hcloses),
      hdowntime]
    dsimp only
    rw [total_append, total_singleton _ rfl]
    dsimp only
    omega
  | false =>
    have hadvance : advance b e = ⟨b.closed, some
        ⟨o.startedAt, o.events ++ [e], o.states ++ (unhealthyState? e).toList⟩⟩ := by
      simp only [advance, ho, hcloses, Bool.false_eq_true, if_false]
    by_cases htype : e.type = "state_change"
    · -- The last change is now `e`: the time up to `a` and from `a` to `e` add up.
      have he := isUnhealthy_of_not_closes htype hcloses
      rw [hadvance, hopened _ _ e rfl he, changes_cons_of_change htype]
      simp only [exists_closes_cons_iff hcloses]
      by_cases hends : ∃ c ∈ es, closes c = true
      · have hdowntime : downtime (a :: e :: changes es)
            = (e.timestamp.instant - a.timestamp.instant) + downtime (e :: changes es) := by
          obtain ⟨c, hc, hc'⟩ := (exists_closes_changes es).mpr hends
          rw [downtime, if_pos ⟨ha, c, List.mem_cons_of_mem e hc, hc'⟩]
        rw [if_pos hends, if_pos hends, hdowntime]
        omega
      · rw [if_neg hends, if_neg hends]
    · rw [hadvance, hopened _ _ a rfl ha, changes_cons_of_ne htype]
      simp only [exists_closes_cons_iff hcloses]

/-- One more event between two spans. -/
theorem TotalClosed.cons (hopened : TotalOpened es) (hclosed : TotalClosed es) :
    TotalClosed (e :: es) := by
  intro b hb
  rw [List.foldl_cons]
  cases hstate : unhealthyState? e with
  | some s =>
    -- A span begins with `e`, and nothing has passed of it.
    have hadvance : advance b e = ⟨b.closed, some ⟨e.timestamp, [e], [s]⟩⟩ := by
      simp only [advance, hb, hstate]
    have he : IsUnhealthy e := isUnhealthy_iff_isSome.mpr (by rw [hstate]; rfl)
    rw [hadvance, hopened _ _ e rfl he, changes_cons_of_change he.1]
    by_cases hends : ∃ c ∈ es, closes c = true
    · rw [if_pos hends]
      dsimp only
      omega
    · rw [if_neg hends, downtime_of_none_closes e _ (mt (exists_closes_changes es).mp hends)]
  | none =>
    have hadvance : advance b e = b := by
      simp only [advance, hb, hstate]
    rw [hadvance, hclosed b hb]
    by_cases htype : e.type = "state_change"
    · have he : ¬ IsUnhealthy e := by simp [isUnhealthy_iff_isSome, hstate]
      rw [changes_cons_of_change htype, downtime_cons_of_healthy he]
    · rw [changes_cons_of_ne htype]

end

/-- The builder after any events. The induction is on them. -/
theorem total_foldl (es : List (Event DateTime)) : TotalOpened es ∧ TotalClosed es := by
  induction es with
  | nil =>
    constructor
    · intro b o a _ _
      simp
    · intro b _
      simp [changes, downtime]
  | cons e es ih => exact ⟨ih.1.cons ih.2, .cons ih.1 ih.2⟩

/-! ### The summary -/

/-- An incident is open exactly when its span is. -/
theorem SpanIncident.isOpen_iff {events : List (Event DateTime)} {i : Nat}
    {x : Incident DateTime} (h : SpanIncident events i x) :
    (!x.isOpen) = true ↔ decide (ClosedSpan events i) = true := by
  rw [decide_eq_true_iff, Incident.isOpen, h.endedAt, Option.isNone_map]
  cases hfind : (events.drop i).find? closes with
  | none =>
    have hnone := List.find?_eq_none.mp hfind
    simpa [ClosedSpan] using hnone
  | some e =>
    have hmem := List.mem_of_find?_eq_some hfind
    have hcloses := List.find?_some hfind
    simpa [ClosedSpan] using ⟨e, hmem, hcloses⟩

/-- The summary of the incidents of valid events counts their closed and their open spans, and
its downtime is the time in unhealthy states, less the span that is still open. -/
theorem summarizeIncidents_eq (events : List (Event DateTime)) (hvalid : ValidStates events) :
    ∃ incidents, buildIncidents events = .ok incidents ∧ ∃ s : Summary,
      summarizeIncidents incidents = s.text ∧
      s.resolved = ((starts events).filter fun i => ClosedSpan events i).length ∧
      s.ongoing = ((starts events).filter fun i => ¬ ClosedSpan events i).length ∧
      s.total = downtime (changes events) := by
  obtain ⟨past, h⟩ := exists_segmented events
  have hspans := h.result.1
  have hfilter : List.Forall₂ (SpanIncident events)
      ((starts events).filter fun i => ClosedSpan events i)
      ((events.foldl advance {}).result.filter fun x => !x.isOpen) :=
    List.rel_filter (fun _ _ hx => hx.isOpen_iff.symm) hspans
  refine ⟨(events.foldl advance {}).result, buildIncidents_eq hvalid, summary _, rfl,
    hfilter.length_eq.symm, ?_, ?_⟩
  · show (events.foldl advance {}).result.length - _ = _
    rw [← hspans.length_eq, ← hfilter.length_eq,
      List.length_eq_length_filter_add fun i => decide (ClosedSpan events i),
      Nat.add_sub_cancel_left]
    simp
  · have htotal := (total_foldl events).2 {} rfl
    show total ((events.foldl advance {}).result.filter fun x => !x.isOpen) = _
    rw [h.filter_result, htotal]
    exact zero_add _

/-- A minute of degradation that goes over into an outage of two minutes, and an outage that goes
on. -/
theorem summarizeIncidents_eq_twoOutages :
    ∃ (events : List (Event DateTime)) (incidents : List (Incident DateTime)),
      ValidStates events ∧ buildIncidents events = .ok incidents ∧
      summarizeIncidents incidents
        = "1 resolved incident(s), 1 ongoing, 0:03:00 total downtime" := by
  let minute (m : Nat) (h : m < 60) : DateTime :=
    { year := 2024, month := 1, day := 1, minute := m, minute_lt := h }
  let change (previous current : RuntimeState) (at' : DateTime) : Event DateTime :=
    Event.stateChange "network" previous current at'
  let events : List (Event DateTime) :=
    [change .healthy .degraded (minute 0 (by decide)),
      change .degraded .offline (minute 1 (by decide)),
      change .offline .healthy (minute 3 (by decide)),
      change .healthy .failed (minute 7 (by decide))]
  have hvalid : ValidStates events := by
    intro e he _
    simp only [events, List.mem_cons, List.not_mem_nil, or_false] at he
    rcases he with rfl | rfl | rfl | rfl
    all_goals exact ⟨_, Event.stateAt_stateChange_current _ _ _ _⟩
  obtain ⟨incidents, hbuilt, s, htext, hresolved, hongoing, htotal⟩ :=
    summarizeIncidents_eq events hvalid
  have hs : s = ⟨1, 1, 180000000⟩ := by
    have hresolved' : s.resolved = 1 := hresolved.trans (by decide)
    have hongoing' : s.ongoing = 1 := hongoing.trans (by decide)
    have htotal' : s.total = 180000000 := htotal.trans (by decide)
    cases s
    simp_all
  refine ⟨events, incidents, hvalid, hbuilt, ?_⟩
  rw [htext, hs]
  decide

end EdgeSentinel.Proofs.Diagnostics
