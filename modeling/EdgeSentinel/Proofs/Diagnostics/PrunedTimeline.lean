import EdgeSentinel.Proofs.Diagnostics.Segmentation
import EdgeSentinel.Proofs.Diagnostics.SeverityScan
import Mathlib.Order.Defs.PartialOrder

/-!
# `EdgeSentinel.Proofs.Diagnostics.PrunedTimeline`: the incidents of a pruned timeline

`prune_older_than` deletes events and knows nothing of incidents. `incidents_of_pruned` says what
`edgesentinel incidents` shows afterwards: every incident is what the events that are left of it
make (`remains`). It begins at the first of them that enters an unhealthy state, and it is gone when
there is none. So an outage that goes on may be missing from the list.

The events come in the order of their timestamps, and a pruning does not reach into the future
(`OpsInOrder`). The events that are left are then the last ones. `thin` is what is left of a
builder. It does not matter whether a builder is thinned before an event that is left or after it
(`advance_thin`).
-/

set_option autoImplicit false

namespace EdgeSentinel.Proofs.Diagnostics

open EdgeSentinel.Core
open EdgeSentinel.Diagnostics

variable {τ : Type}

/-! ### What is left of an incident -/

section
variable (keep : Event τ → Bool)

/-- The events that are left, from the first one on that enters an unhealthy state. -/
def left (events : List (Event τ)) : List (Event τ) :=
  (events.filter keep).dropWhile fun e => (unhealthyState? e).isNone

/-- What is left of an incident. -/
def remains (x : Incident τ) : Option (Incident τ) :=
  (left keep x.events).head?.map fun e =>
    { x with
      startedAt := e.timestamp
      states := (left keep x.events).filterMap unhealthyState?
      events := left keep x.events }

/-- What is left of the open incident. -/
def remainsOpen (o : OpenIncident τ) : Option (OpenIncident τ) :=
  (left keep o.events).head?.map fun e =>
    ⟨e.timestamp, left keep o.events, (left keep o.events).filterMap unhealthyState?⟩

/-- What is left of a builder. -/
def thin (b : IncidentBuilder τ) : IncidentBuilder τ :=
  ⟨b.closed.filterMap (remains keep), b.opened.bind (remainsOpen keep)⟩

end

variable {keep : Event τ → Bool} {events : List (Event τ)} {e : Event τ}

theorem left_snoc_of_dropped (h : keep e = false) :
    left keep (events ++ [e]) = left keep events := by
  simp [left, List.filter_append, h]

theorem left_snoc (h : keep e = true) :
    left keep (events ++ [e])
      = if left keep events = [] then (if (unhealthyState? e).isSome then [e] else [])
        else left keep events ++ [e] := by
  have hlast : [e].filter keep = [e] := by simp [h]
  rw [left, List.filter_append, hlast, List.dropWhile_append]
  simp only [List.isEmpty_iff]
  refine if_congr Iff.rfl ?_ rfl
  cases hs : unhealthyState? e <;> simp [hs]

/-! ### An event that is left -/

section
variable (hkeep : keep e = true)
include hkeep

/-- Outside of an incident. -/
theorem advance_thin_of_none (closed : List (Incident τ)) :
    advance (thin keep ⟨closed, none⟩) e = thin keep (advance ⟨closed, none⟩ e) := by
  cases hs : unhealthyState? e with
  | none => simp [advance, thin, hs]
  | some s =>
    have hleft : left keep [e] = [e] := by simp [left, hkeep, hs]
    simp [advance, thin, hs, remainsOpen, hleft]

/-- In an incident of which nothing is left. The event may open what is left of it. -/
theorem advance_thin_of_gone (closed : List (Incident τ)) {o : OpenIncident τ}
    (hgone : left keep o.events = []) :
    advance (thin keep ⟨closed, some o⟩) e = thin keep (advance ⟨closed, some o⟩ e) := by
  have hleft : left keep (o.events ++ [e]) = if (unhealthyState? e).isSome then [e] else [] := by
    rw [left_snoc hkeep, if_pos hgone]
  cases hs : unhealthyState? e with
  | none =>
    rw [hs] at hleft
    by_cases hcloses : closes e = true <;>
      simp [advance, thin, hs, hcloses, remains, remainsOpen, hgone, hleft]
  | some s =>
    rw [hs] at hleft
    have hcloses : closes e = false := by simp [closes, hs]
    simp [advance, thin, hs, hcloses, remainsOpen, hgone, hleft]

/-- In an incident of which something is left. -/
theorem advance_thin_of_left (closed : List (Incident τ)) {o : OpenIncident τ}
    (hleft : left keep o.events ≠ []) :
    advance (thin keep ⟨closed, some o⟩) e = thin keep (advance ⟨closed, some o⟩ e) := by
  have hleft' : left keep (o.events ++ [e]) = left keep o.events ++ [e] := by
    rw [left_snoc hkeep, if_neg hleft]
  obtain ⟨first, rest, hfirst⟩ := List.exists_cons_of_ne_nil hleft
  rw [hfirst, List.cons_append] at hleft'
  have hstates : (first :: (rest ++ [e])).filterMap unhealthyState?
      = (first :: rest).filterMap unhealthyState? ++ (unhealthyState? e).toList := by
    rw [← List.cons_append, List.filterMap_append]
    cases hs : unhealthyState? e <;> simp [hs]
  by_cases hcloses : closes e = true
  · have hs : unhealthyState? e = none := by
      simp only [closes, Bool.and_eq_true, Option.isNone_iff_eq_none] at hcloses
      exact hcloses.2
    simp [advance, thin, hcloses, remains, remainsOpen, hfirst, hleft', hstates, hs]
  · simp [advance, thin, hcloses, remainsOpen, hfirst, hleft', hstates]

end

/-- Thinning commutes with an event that is left. -/
theorem advance_thin (hkeep : keep e = true) (b : IncidentBuilder τ) :
    advance (thin keep b) e = thin keep (advance b e) := by
  obtain ⟨closed, opened⟩ := b
  cases opened with
  | none => exact advance_thin_of_none hkeep closed
  | some o =>
    by_cases hleft : left keep o.events = []
    · exact advance_thin_of_gone hkeep closed hleft
    · exact advance_thin_of_left hkeep closed hleft

/-- Nothing is left of a builder without an event that is left. -/
theorem thin_advance_of_dropped (hdropped : keep e = false) {b : IncidentBuilder τ}
    (hgone : thin keep b = {}) : thin keep (advance b e) = {} := by
  obtain ⟨closed, opened⟩ := b
  obtain ⟨hclosed, hopened⟩ := IncidentBuilder.mk.inj hgone
  have hnothing : left keep [e] = [] := by simp [left, hdropped]
  cases opened with
  | none =>
    cases hs : unhealthyState? e <;>
      simp [advance, thin, hs, hclosed, remainsOpen, hnothing]
  | some o =>
    have hleft : left keep (o.events ++ [e]) = [] := by
      rw [left_snoc_of_dropped hdropped]
      simpa [remainsOpen] using hopened
    by_cases hcloses : closes e = true <;>
      simp [advance, thin, hcloses, hclosed, remains, remainsOpen, hleft]

/-- What is left of the incidents of all events is the incidents of the events that are left, when
these are the last ones. -/
theorem thin_foldl_advance {events : List (Event τ)}
    (hlast : events.Pairwise fun e e' => keep e = true → keep e' = true) :
    thin keep (events.foldl advance {}) = (events.filter keep).foldl advance {} := by
  induction events using List.reverseRecOn with
  | nil => rfl
  | append_singleton events e ih =>
    rw [List.pairwise_append] at hlast
    obtain ⟨hevents, -, hbefore⟩ := hlast
    have hthin := ih hevents
    rw [List.foldl_append, List.filter_append, List.foldl_append]
    cases hkeep : keep e with
    | true =>
      have hlast : [e].filter keep = [e] := by simp [hkeep]
      rw [hlast, ← hthin]
      exact (advance_thin hkeep _).symm
    | false =>
      -- Nothing before the event is left either.
      have hnil : events.filter keep = [] := by
        refine List.filter_eq_nil_iff.mpr fun x hx hx' => ?_
        have hkeep' := hbefore x hx e (List.mem_singleton_self e) hx'
        rw [hkeep] at hkeep'
        cases hkeep'
      have hlast : [e].filter keep = [] := by simp [hkeep]
      rw [hnil] at hthin ⊢
      rw [hlast]
      exact thin_advance_of_dropped hkeep hthin

theorem result_thin (b : IncidentBuilder τ) :
    (thin keep b).result = b.result.filterMap (remains keep) := by
  obtain ⟨closed, opened⟩ := b
  cases opened with
  | none => simp [IncidentBuilder.result, IncidentBuilder.openIncident, thin]
  | some o =>
    rw [IncidentBuilder.result, IncidentBuilder.result, List.filterMap_append]
    cases hleft : left keep o.events <;>
      simp [IncidentBuilder.openIncident, thin, remains, remainsOpen, OpenIncident.freeze, hleft]

/-! ### The timeline -/

/-- A replay that reaches the end of the table. -/
theorem cmdIncidents_eq [LE τ] [DecidableLE τ] {t : EventTable τ} (hvalid : ValidSeverities t)
    (hshort : t.rows.length ≤ 5000) : cmdIncidents t = buildIncidents (t.rows.map eventOf) := by
  have hmatching : matching t ({} : Filters τ) false = t.rows :=
    List.filter_eq_self.mpr fun row _ => by simp [Filters.matches]
  have hlimit : ((matching t ({} : Filters τ) false).length : Int) ≤ incidentReplayLimit := by
    rw [hmatching, incidentReplayLimit]
    omega
  rw [cmdIncidents, query_plain hvalid {} false (by decide) (Or.inr hlimit), hmatching]
  rfl

/-- An operation on the timeline. -/
inductive TimelineOp (τ : Type) where
  /-- `_on_event`. -/
  | publish (e : Event τ)
  /-- `prune_older_than`. -/
  | prune (olderThan : τ)

namespace TimelineOp

/-- The timestamp of the event, or the bound of the pruning. -/
def time : TimelineOp τ → τ
  | publish e => e.timestamp
  | prune olderThan => olderThan

def event? : TimelineOp τ → Option (Event τ)
  | publish e => some e
  | prune _ => none

variable [Preorder τ] [DecidableLT τ]

/-- The table after the operation. -/
def apply (t : EventTable τ) : TimelineOp τ → EventTable τ
  | publish e => EventLog.onEvent t e
  | prune olderThan => (t.pruneEventsOlderThan olderThan).1

/-- The operation does not delete an earlier event. -/
def spares (e : Event τ) : TimelineOp τ → Bool
  | publish _ => true
  | prune olderThan => ¬ e.timestamp < olderThan

end TimelineOp

/-- The events that were published. -/
def published (ops : List (TimelineOp τ)) : List (Event τ) := ops.filterMap (·.event?)

/-- No event is older than an event or the bound of a pruning before it. -/
def OpsInOrder [Preorder τ] (ops : List (TimelineOp τ)) : Prop :=
  ops.Pairwise fun op op' => ∀ e ∈ op'.event?, op.time ≤ e.timestamp

variable [Preorder τ] [DecidableLT τ]

/-- The table after the operations. -/
def timeline (ops : List (TimelineOp τ)) : EventTable τ := ops.foldl TimelineOp.apply .empty

/-- No pruning deletes the event. -/
def spared (ops : List (TimelineOp τ)) (e : Event τ) : Bool := ops.all (·.spares e)

/-- The rows are the events that no pruning has deleted. -/
theorem rows_timeline {ops : List (TimelineOp τ)} (horder : OpsInOrder ops) :
    ValidSeverities (timeline ops) ∧
      (timeline ops).rows.map eventOf = (published ops).filter (spared ops) := by
  induction ops using List.reverseRecOn with
  | nil => exact ⟨by simp [ValidSeverities, timeline, EventTable.empty], rfl⟩
  | append_singleton ops op ih =>
    rw [OpsInOrder, List.pairwise_append] at horder
    obtain ⟨horder', -, hlater⟩ := horder
    obtain ⟨hvalid, hrows⟩ := ih horder'
    have htimeline : timeline (ops ++ [op]) = TimelineOp.apply (timeline ops) op := by
      rw [timeline, List.foldl_append]
      rfl
    rw [htimeline]
    cases op with
    | publish e =>
      -- The prunings before the event do not reach it.
      have hspared : spared ops e = true := by
        refine List.all_eq_true.mpr fun op hop => ?_
        have hle := hlater op hop _ (List.mem_singleton_self _) e rfl
        cases op with
        | publish e' => rfl
        | prune olderThan =>
          have hnot : ¬ e.timestamp < olderThan := not_lt_of_ge hle
          simpa [TimelineOp.spares] using hnot
      have hsame : spared (ops ++ [TimelineOp.publish e]) = spared ops := by
        funext x
        simp [spared, TimelineOp.spares]
      refine ⟨fun row hrow => ?_, ?_⟩
      · rcases List.mem_append.mp hrow with hrow | hrow
        · exact hvalid row hrow
        · rw [List.mem_singleton.mp hrow]
          exact ⟨e.severity, Severity.ofValue?_value e.severity⟩
      · rw [hsame, published, List.filterMap_append, List.filter_append, ← published, ← hrows]
        simp [TimelineOp.apply, EventLog.onEvent, EventTable.insertEvent, TimelineOp.event?,
          hspared, eventOf]
    | prune olderThan =>
      refine ⟨fun row hrow => hvalid row (List.mem_filter.mp hrow).1, ?_⟩
      have hpublished : published (ops ++ [.prune olderThan]) = published ops := by
        simp [published, TimelineOp.event?]
      have hspared : spared (ops ++ [.prune olderThan])
          = fun e => (¬ e.timestamp < olderThan : Bool) && spared ops e := by
        funext e
        simp [spared, TimelineOp.spares, Bool.and_comm]
      rw [hpublished, hspared, ← List.filter_filter, ← hrows, List.filter_map]
      rfl

/-- The events that are left are the last ones. -/
theorem spared_of_spared {ops : List (TimelineOp τ)} (horder : OpsInOrder ops) :
    (published ops).Pairwise fun e e' => spared ops e = true → spared ops e' = true := by
  refine List.pairwise_filterMap.mpr (horder.imp fun {op op'} hle e he e' he' hspared => ?_)
  have hlt : e.timestamp ≤ e'.timestamp := by
    cases op with
    | publish x =>
      obtain rfl := Option.some.inj he
      exact hle e' he'
    | prune olderThan => cases he
  refine List.all_eq_true.mpr fun op hop => ?_
  have hspares := List.all_eq_true.mp hspared op hop
  cases op with
  | publish x => rfl
  | prune olderThan =>
    simp only [TimelineOp.spares, decide_eq_true_eq] at hspares ⊢
    exact fun hlater => hspares (lt_of_le_of_lt hlt hlater)

/-- What `edgesentinel incidents` shows of a timeline that was pruned any number of times: of every
incident of the events that were published, what the events that are left of it make. -/
theorem incidents_of_pruned [DecidableLE τ] (ops : List (TimelineOp τ))
    (hvalid : ValidStates (published ops)) (horder : OpsInOrder ops)
    (hshort : (timeline ops).rows.length ≤ 5000) :
    ∃ incidents, buildIncidents (published ops) = .ok incidents ∧
      cmdIncidents (timeline ops) = .ok (incidents.filterMap (remains (spared ops))) := by
  obtain ⟨hseverities, hrows⟩ := rows_timeline horder
  have hvalid' : ValidStates ((published ops).filter (spared ops)) :=
    fun e he => hvalid e (List.mem_filter.mp he).1
  refine ⟨((published ops).foldl advance {}).result, buildIncidents_eq hvalid, ?_⟩
  rw [cmdIncidents_eq hseverities hshort, hrows, buildIncidents_eq hvalid',
    ← thin_foldl_advance (spared_of_spared horder), result_thin]

/-- A blip and an outage, and a pruning during the outage. -/
def prunedOutage : List (TimelineOp Nat) :=
  [.publish (changed .healthy .degraded 1), .publish (changed .degraded .healthy 2),
    .publish (changed .healthy .offline 3), .publish (changed .offline .degraded 5),
    .prune 4, .publish (changed .degraded .healthy 6)]

/-- The blip is gone, and the outage begins with its second change. -/
theorem incidents_of_pruned_prunedOutage :
    ∃ incidents, buildIncidents (published prunedOutage) = .ok incidents ∧
      cmdIncidents (timeline prunedOutage)
        = .ok (incidents.filterMap (remains (spared prunedOutage))) ∧
      incidents.map (·.startedAt) = [1, 3] ∧
      (incidents.filterMap (remains (spared prunedOutage))).map (·.startedAt) = [5] := by
  have hvalid : ValidStates (published prunedOutage) := by
    refine validStates_of_changed fun e he _ => ?_
    simp only [published, prunedOutage, List.filterMap_cons, TimelineOp.event?, List.filterMap_nil,
      List.mem_cons, List.not_mem_nil, or_false] at he
    rcases he with rfl | rfl | rfl | rfl | rfl <;> exact ⟨_, _, _, rfl⟩
  have horder : OpsInOrder prunedOutage := by
    simp [OpsInOrder, prunedOutage, TimelineOp.event?, TimelineOp.time, changed, Event.stateChange]
  obtain ⟨incidents, hbuilt, hshown⟩ :=
    incidents_of_pruned prunedOutage hvalid horder (by decide)
  refine ⟨incidents, hbuilt, hshown, ?_⟩
  obtain rfl := Except.ok.inj (hbuilt.symm.trans rfl)
  decide

end EdgeSentinel.Proofs.Diagnostics
