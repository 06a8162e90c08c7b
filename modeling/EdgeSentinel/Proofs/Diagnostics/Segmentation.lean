import EdgeSentinel.Proofs.Diagnostics.Replay
import Mathlib.Data.List.Forall2

/-!
# `EdgeSentinel.Proofs.Diagnostics.Segmentation`: one incident for each unhealthy span

A span starts at a change into an unhealthy state when none is open: the last change before, if
there is one, is not into an unhealthy state (`Starts`). It goes through the first later change
into another state (`block`). `SpanIncident` says what the incident of a span is.

`advance` is `feed` on a valid event, as one step. `Segmented` ties the builder to the events so
far: the spans that start there have their incidents among the closed ones, and the last span
may be open. An event at the end does not touch the block of a span that is closed
(`through_append`).
-/

set_option autoImplicit false

namespace EdgeSentinel.Proofs.Diagnostics

open EdgeSentinel.Core
open EdgeSentinel.Diagnostics
open EdgeSentinel.Diagnostics.IncidentBuilder (feedAll)

variable {τ : Type}

/-! ### Spans -/

/-- The unhealthy state that the event enters. -/
def unhealthyState? (e : Event τ) : Option RuntimeState :=
  if e.type = "state_change" then
    match e.stateAt "current" with
    | .ok s => if s ∈ incidentStates then some s else none
    | .error _ => none
  else none

/-- The event is a change into a state that is not unhealthy. -/
def closes (e : Event τ) : Bool := e.type = "state_change" && (unhealthyState? e).isNone

/-- The list up to the first element with `p`, inclusive. -/
def through {α : Type} (p : α → Bool) : List α → List α
  | [] => []
  | x :: xs => if p x then [x] else x :: through p xs

/-- A span starts at the position `i`. -/
def Starts (events : List (Event τ)) (i : Nat) : Prop :=
  (∃ e ∈ events[i]?, IsUnhealthy e) ∧ EndsHealthy (events.take i)

/-- The events of the span that starts at `i`. -/
def block (events : List (Event τ)) (i : Nat) : List (Event τ) := through closes (events.drop i)

/-- What the incident of the span that starts at `i` is. -/
structure SpanIncident (events : List (Event τ)) (i : Nat) (x : Incident τ) : Prop where
  startedAt : ∃ e ∈ events[i]?, x.startedAt = e.timestamp
  endedAt : x.endedAt = ((events.drop i).find? closes).map (·.timestamp)
  states : x.states = (block events i).filterMap unhealthyState?
  events : x.events = block events i

theorem isUnhealthy_iff_isSome {e : Event τ} : IsUnhealthy e ↔ (unhealthyState? e).isSome := by
  unfold IsUnhealthy unhealthyState?
  by_cases htype : e.type = "state_change"
  · cases hs : e.stateAt "current" with
    | ok s => by_cases hmem : s ∈ incidentStates <;> simp [htype, hmem]
    | error err => simp [htype]
  · simp [htype]

instance (e : Event τ) : Decidable (IsUnhealthy e) :=
  decidable_of_iff _ isUnhealthy_iff_isSome.symm

instance (events : List (Event τ)) : Decidable (EndsHealthy events) :=
  decidable_of_iff
    ((events.filter fun e => e.type = "state_change").getLast?.all fun e => ¬ IsUnhealthy e)
    (by simp [EndsHealthy, Option.all_eq_true])

instance (events : List (Event τ)) (i : Nat) : Decidable (Starts events i) :=
  inferInstanceAs (Decidable ((∃ e ∈ events[i]?, IsUnhealthy e) ∧ EndsHealthy (events.take i)))

/-- The positions at which the spans start, in order. -/
def starts (events : List (Event τ)) : List Nat :=
  (List.range events.length).filter fun i => Starts events i

/-! ### One more event -/

section
variable {α : Type} {p : α → Bool} {xs : List α}

/-- What comes after the first element with `p` does not matter. -/
theorem through_append (h : ∃ x ∈ xs, p x = true) (ys : List α) :
    through p (xs ++ ys) = through p xs := by
  induction xs with
  | nil => simp at h
  | cons x xs ih =>
    rw [List.cons_append, through, through]
    by_cases hx : p x = true
    · rw [if_pos hx, if_pos hx]
    · rw [if_neg hx, if_neg hx, ih (by simpa [hx] using h)]

/-- Before the first element with `p` nothing is left out. -/
theorem through_append_singleton (h : ∀ x ∈ xs, p x = false) (y : α) :
    through p (xs ++ [y]) = xs ++ [y] := by
  induction xs with
  | nil => simp [through]
  | cons x xs ih =>
    rw [List.cons_append, through, if_neg (by simp [h x]), ih fun z hz => h z (by simp [hz])]

theorem through_eq_self (h : ∀ x ∈ xs, p x = false) : through p xs = xs := by
  induction xs with
  | nil => rfl
  | cons x xs ih => rw [through, if_neg (by simp [h x]), ih fun z hz => h z (by simp [hz])]

theorem length_through_le (p : α → Bool) (xs : List α) :
    (through p xs).length ≤ xs.length := by
  induction xs with
  | nil => exact Nat.le_refl 0
  | cons x xs ih =>
    rw [through]
    split
    · simp
    · simpa using ih

end

/-- A change into an unhealthy state does not close a span. -/
theorem not_closes_of_isUnhealthy {e : Event τ} (h : IsUnhealthy e) : closes e = false := by
  rw [isUnhealthy_iff_isSome] at h
  simp [closes, Option.isNone_eq_false_iff.mpr h]

/-- After a change the events end in its state. -/
theorem endsHealthy_snoc_closes {events : List (Event τ)} {e : Event τ} (h : closes e = true) :
    EndsHealthy (events ++ [e]) := by
  obtain ⟨htype, hnone⟩ : e.type = "state_change" ∧ unhealthyState? e = none := by
    simpa [closes] using h
  rw [endsHealthy_snoc, if_pos htype, isUnhealthy_iff_isSome, hnone]
  simp

theorem not_endsHealthy_snoc {events : List (Event τ)} {e : Event τ} (h : IsUnhealthy e) :
    ¬ EndsHealthy (events ++ [e]) := by
  rw [endsHealthy_snoc, if_pos h.1]
  exact not_not.mpr h

/-- An event that neither enters an unhealthy state nor closes a span is no change. -/
theorem endsHealthy_snoc_iff {events : List (Event τ)} {e : Event τ} (hquiet : ¬ IsUnhealthy e)
    (hkeeps : closes e = false) : EndsHealthy (events ++ [e]) ↔ EndsHealthy events := by
  have htype : e.type ≠ "state_change" := by
    intro htype
    rw [isUnhealthy_iff_isSome, Option.not_isSome_iff_eq_none] at hquiet
    simp [closes, htype, hquiet] at hkeeps
  rw [endsHealthy_snoc, if_neg htype]

section
variable {events : List (Event τ)} {i : Nat}

theorem starts_snoc_iff (hi : i < events.length) (e : Event τ) :
    Starts (events ++ [e]) i ↔ Starts events i := by
  rw [Starts, Starts, List.getElem?_append_left hi, List.take_append_of_le_length hi.le]

/-- One more event starts a span when it enters an unhealthy state and none is open. -/
theorem starts_snoc (events : List (Event τ)) (e : Event τ) :
    starts (events ++ [e])
      = starts events ++ if IsUnhealthy e ∧ EndsHealthy events then [events.length] else [] := by
  have hlast : Starts (events ++ [e]) events.length ↔ IsUnhealthy e ∧ EndsHealthy events := by
    simp [Starts]
  rw [starts, List.length_append, List.length_singleton, List.range_succ, List.filter_append,
    List.filter_singleton]
  congr 1
  · refine List.filter_congr fun i hi => ?_
    rw [decide_eq_decide]
    exact starts_snoc_iff (List.mem_range.mp hi) e
  · by_cases h : IsUnhealthy e ∧ EndsHealthy events
    · simp [hlast.mpr h, h]
    · rw [if_neg h, decide_eq_false (mt hlast.mp h)]
      rfl

theorem drop_snoc (hi : i ≤ events.length) (e : Event τ) :
    (events ++ [e]).drop i = events.drop i ++ [e] := by
  rw [List.drop_append_of_le_length hi]

/-- One more event does not touch a span that is closed. -/
theorem block_snoc (hi : i ≤ events.length) (hclosed : ∃ x ∈ events.drop i, closes x = true)
    (e : Event τ) : block (events ++ [e]) i = block events i := by
  rw [block, drop_snoc hi, through_append hclosed]
  rfl

theorem SpanIncident.snoc {x : Incident τ} (h : SpanIncident events i x) (hi : i < events.length)
    (hclosed : ∃ x ∈ events.drop i, closes x = true) (e : Event τ) :
    SpanIncident (events ++ [e]) i x where
  startedAt := by
    rw [List.getElem?_append_left hi]
    exact h.startedAt
  endedAt := by
    rw [drop_snoc hi.le, List.find?_append, h.endedAt,
      Option.or_of_isSome (List.find?_isSome.mpr hclosed)]
  states := by rw [block_snoc hi.le hclosed, h.states]
  events := by rw [block_snoc hi.le hclosed, h.events]

/-- A block ends within the events. -/
theorem add_length_block_le (hi : i ≤ events.length) :
    i + (block events i).length ≤ events.length := by
  have hlength := length_through_le closes (events.drop i)
  rw [List.length_drop] at hlength
  show i + (through closes (events.drop i)).length ≤ _
  omega

end

/-! ### The builder -/

/-- `feed` on a valid event. -/
def advance (b : IncidentBuilder τ) (e : Event τ) : IncidentBuilder τ :=
  match b.opened with
  | none =>
    match unhealthyState? e with
    | some s => { b with opened := some ⟨e.timestamp, [e], [s]⟩ }
    | none => b
  | some o =>
    if closes e then
      ⟨b.closed ++ [⟨o.startedAt, some e.timestamp, o.states, o.events ++ [e]⟩], none⟩
    else
      { b with
        opened := some ⟨o.startedAt, o.events ++ [e], o.states ++ (unhealthyState? e).toList⟩ }

theorem feed_eq (b : IncidentBuilder τ) {e : Event τ}
    (hvalid : e.type = "state_change" → ∃ s, e.stateAt "current" = .ok s) :
    b.feed e = (advance b e, none) := by
  by_cases htype : e.type = "state_change"
  · obtain ⟨s, hs⟩ := hvalid htype
    have hstate : unhealthyState? e = if s ∈ incidentStates then some s else none := by
      simp [unhealthyState?, htype, hs]
    rw [IncidentBuilder.feed_of_stateAt htype hs]
    obtain ⟨closed, opened⟩ := b
    -- `_open` is there or not, and the state is unhealthy or not.
    cases opened <;> by_cases hmem : s ∈ incidentStates <;>
      simp [advance, closes, htype, hstate, hmem, IncidentBuilder.append, IncidentBuilder.enter,
        OpenIncident.close]
  · have hstate : unhealthyState? e = none := by simp [unhealthyState?, htype]
    rw [IncidentBuilder.feed_of_ne htype]
    obtain ⟨closed, opened⟩ := b
    cases opened <;> simp [advance, closes, htype, hstate, IncidentBuilder.append]

/-- The loop of `build_incidents` on valid events. -/
theorem feedAll_eq :
    ∀ (es : List (Event τ)) (b : IncidentBuilder τ), ValidStates es →
      b.feedAll es = .ok (es.foldl advance b) := by
  intro es
  induction es with
  | nil => exact fun b _ => rfl
  | cons e es ih =>
    intro b hvalid
    rw [feedAll, feed_eq b (hvalid e List.mem_cons_self), List.foldl_cons]
    exact ih _ fun e' he' => hvalid e' (List.mem_cons_of_mem e he')

theorem buildIncidents_eq {events : List (Event τ)} (hvalid : ValidStates events) :
    buildIncidents events = .ok (events.foldl advance {}).result := by
  rw [buildIncidents, feedAll_eq events {} hvalid]
  rfl

/-- The span that starts at `i` is open, as `o`. -/
structure OpenAt (events : List (Event τ)) (i : Nat) (o : OpenIncident τ) : Prop where
  startedAt : ∃ e ∈ events[i]?, o.startedAt = e.timestamp
  states : o.states = (events.drop i).filterMap unhealthyState?
  keeps : ∀ e ∈ events.drop i, closes e = false
  events : o.events = events.drop i

/-- The builder has the incidents of the spans: `past` are the spans that are closed. -/
structure Segmented (events : List (Event τ)) (b : IncidentBuilder τ) (past : List Nat) :
    Prop where
  closed : List.Forall₂ (SpanIncident events) past b.closed
  ended : ∀ i ∈ past, ∃ e ∈ events.drop i, closes e = true
  disjoint : past.Pairwise fun i j => i + (block events i).length ≤ j
  within : ∀ i ∈ past, i < events.length
  opened : (b.opened = none ∧ EndsHealthy events ∧ starts events = past) ∨
    ∃ i o, b.opened = some o ∧ ¬ EndsHealthy events ∧ starts events = past ++ [i] ∧
      i < events.length ∧ OpenAt events i o ∧ ∀ j ∈ past, j + (block events j).length ≤ i

namespace Segmented

variable {events : List (Event τ)} {b : IncidentBuilder τ} {past : List Nat}

theorem nil : Segmented ([] : List (Event τ)) {} [] where
  closed := .nil
  ended := by simp
  disjoint := .nil
  within := by simp
  opened := Or.inl ⟨rfl, by simp [EndsHealthy], rfl⟩

/-- The spans that are closed stay as they are. -/
theorem closed_snoc (h : Segmented events b past) (e : Event τ) :
    List.Forall₂ (SpanIncident (events ++ [e])) past b.closed := by
  have hspans : ∀ i ∈ past, i < events.length ∧ ∃ x ∈ events.drop i, closes x = true :=
    fun i hi => ⟨h.within i hi, h.ended i hi⟩
  exact ((List.forall₂_and_left past b.closed).mpr ⟨hspans, h.closed⟩).imp
    fun i x hx => hx.2.snoc hx.1.1 hx.1.2 e

theorem ended_snoc (h : Segmented events b past) (e : Event τ) :
    ∀ i ∈ past, ∃ x ∈ (events ++ [e]).drop i, closes x = true := by
  intro i hi
  obtain ⟨x, hx, hclosed⟩ := h.ended i hi
  rw [drop_snoc (h.within i hi).le]
  exact ⟨x, List.mem_append_left _ hx, hclosed⟩

theorem block_snoc (h : Segmented events b past) (e : Event τ) :
    ∀ i ∈ past, block (events ++ [e]) i = block events i :=
  fun i hi => Diagnostics.block_snoc (h.within i hi).le (h.ended i hi) e

theorem disjoint_snoc (h : Segmented events b past) (e : Event τ) :
    past.Pairwise fun i j => i + (block (events ++ [e]) i).length ≤ j := by
  refine h.disjoint.imp_of_mem fun hi _ hij => ?_
  rw [h.block_snoc e _ hi]
  exact hij

theorem within_snoc (h : Segmented events b past) (e : Event τ) :
    ∀ i ∈ past, i < (events ++ [e]).length := by
  intro i hi
  have hlt := h.within i hi
  rw [List.length_append]
  omega

/-- An event outside of a span, which opens none. -/
theorem snoc_outside (h : Segmented events b past) (hnone : b.opened = none)
    (hends : EndsHealthy events) (hstarts : starts events = past) {e : Event τ}
    (hquiet : ¬ IsUnhealthy e) : Segmented (events ++ [e]) b past where
  closed := h.closed_snoc e
  ended := h.ended_snoc e
  disjoint := h.disjoint_snoc e
  within := h.within_snoc e
  opened := by
    refine Or.inl ⟨hnone, ?_, ?_⟩
    · by_cases hcloses : closes e = true
      · exact endsHealthy_snoc_closes hcloses
      · exact (endsHealthy_snoc_iff hquiet (by simpa using hcloses)).mpr hends
    · rw [starts_snoc, hstarts, if_neg fun hopens => hquiet hopens.1, List.append_nil]

/-- An event that opens a span. -/
theorem snoc_opens (h : Segmented events b past) (hends : EndsHealthy events)
    (hstarts : starts events = past) {e : Event τ} {s : RuntimeState}
    (hs : unhealthyState? e = some s) :
    Segmented (events ++ [e]) { b with opened := some ⟨e.timestamp, [e], [s]⟩ } past where
  closed := h.closed_snoc e
  ended := h.ended_snoc e
  disjoint := h.disjoint_snoc e
  within := h.within_snoc e
  opened := by
    have hunhealthy : IsUnhealthy e := isUnhealthy_iff_isSome.mpr (by rw [hs]; rfl)
    -- The span starts at the new event.
    have hdrop : (events ++ [e]).drop events.length = [e] := List.drop_left' rfl
    refine Or.inr ⟨events.length, _, rfl, not_endsHealthy_snoc hunhealthy, ?_, by simp, ?_, ?_⟩
    · rw [starts_snoc, hstarts, if_pos ⟨hunhealthy, hends⟩]
    · refine ⟨⟨e, by simp, rfl⟩, ?_, ?_, hdrop.symm⟩
      · simp [hdrop, hs]
      · simpa [hdrop] using not_closes_of_isUnhealthy hunhealthy
    · intro j hj
      rw [h.block_snoc e j hj]
      exact add_length_block_le (h.within j hj).le

/-- An event within a span, which stays open. -/
theorem snoc_inside (h : Segmented events b past) {i : Nat} {o : OpenIncident τ}
    (hends : ¬ EndsHealthy events) (hstarts : starts events = past ++ [i])
    (hi : i < events.length) (ho : OpenAt events i o)
    (hpast : ∀ j ∈ past, j + (block events j).length ≤ i) {e : Event τ}
    (hkeeps : closes e = false) :
    Segmented (events ++ [e])
      { b with
        opened := some ⟨o.startedAt, o.events ++ [e], o.states ++ (unhealthyState? e).toList⟩ }
      past where
  closed := h.closed_snoc e
  ended := h.ended_snoc e
  disjoint := h.disjoint_snoc e
  within := h.within_snoc e
  opened := by
    refine Or.inr ⟨i, _, rfl, ?_, ?_, ?_, ⟨?_, ?_, ?_, ?_⟩, ?_⟩
    · by_cases hunhealthy : IsUnhealthy e
      · exact not_endsHealthy_snoc hunhealthy
      · rwa [endsHealthy_snoc_iff hunhealthy hkeeps]
    · rw [starts_snoc, hstarts, if_neg fun hopens => hends hopens.2, List.append_nil]
    · rw [List.length_append]
      omega
    · rw [List.getElem?_append_left hi]
      exact ho.startedAt
    · rw [drop_snoc hi.le, List.filterMap_append, ho.states]
      cases hs : unhealthyState? e <;> simp [hs]
    · rw [drop_snoc hi.le]
      intro x hx
      rcases List.mem_append.mp hx with hx | hx
      · exact ho.keeps x hx
      · rw [List.mem_singleton.mp hx]
        exact hkeeps
    · rw [drop_snoc hi.le, ho.events]
    · intro j hj
      rw [h.block_snoc e j hj]
      exact hpast j hj

/-- An event that closes the span. -/
theorem snoc_closes (h : Segmented events b past) {i : Nat} {o : OpenIncident τ}
    (hends : ¬ EndsHealthy events) (hstarts : starts events = past ++ [i])
    (hi : i < events.length) (ho : OpenAt events i o)
    (hpast : ∀ j ∈ past, j + (block events j).length ≤ i) {e : Event τ}
    (hcloses : closes e = true) :
    Segmented (events ++ [e])
      ⟨b.closed ++ [⟨o.startedAt, some e.timestamp, o.states, o.events ++ [e]⟩], none⟩
      (past ++ [i]) where
  closed := by
    -- The span that ends with `e` is its whole block.
    have hblock : block (events ++ [e]) i = events.drop i ++ [e] := by
      rw [block, drop_snoc hi.le, through_append_singleton ho.keeps]
    have hstate : unhealthyState? e = none := by
      have hboth : e.type = "state_change" ∧ unhealthyState? e = none := by
        simpa [closes] using hcloses
      exact hboth.2
    refine List.rel_append (h.closed_snoc e) (.cons ⟨?_, ?_, ?_, ?_⟩ .nil)
    · rw [List.getElem?_append_left hi]
      exact ho.startedAt
    · have hbefore : (events.drop i).find? closes = none := by
        simpa using ho.keeps
      rw [drop_snoc hi.le, List.find?_append, hbefore, Option.none_or,
        List.find?_cons_of_pos hcloses]
      rfl
    · rw [hblock, List.filterMap_append, ho.states]
      simp [hstate]
    · rw [hblock, ho.events]
  ended := by
    intro j hj
    rcases List.mem_append.mp hj with hj | hj
    · exact h.ended_snoc e j hj
    · rw [List.mem_singleton.mp hj, drop_snoc hi.le]
      exact ⟨e, by simp, hcloses⟩
  disjoint := by
    rw [List.pairwise_append]
    refine ⟨h.disjoint_snoc e, List.pairwise_singleton _ _, ?_⟩
    intro j hj j' hj'
    rw [List.mem_singleton.mp hj', h.block_snoc e j hj]
    exact hpast j hj
  within := by
    intro j hj
    rcases List.mem_append.mp hj with hj | hj
    · exact h.within_snoc e j hj
    · rw [List.mem_singleton.mp hj, List.length_append]
      omega
  opened := by
    refine Or.inl ⟨rfl, endsHealthy_snoc_closes hcloses, ?_⟩
    rw [starts_snoc, hstarts, if_neg fun hopens => hends hopens.2, List.append_nil]

/-- One more event. -/
theorem snoc (h : Segmented events b past) (e : Event τ) :
    ∃ past', Segmented (events ++ [e]) (advance b e) past' := by
  unfold advance
  rcases h.opened with ⟨hnone, hends, hstarts⟩ | ⟨i, o, hsome, hends, hstarts, hi, ho, hpast⟩
  · rw [hnone]
    cases hs : unhealthyState? e with
    | some s => exact ⟨past, h.snoc_opens hends hstarts hs⟩
    | none =>
      have hquiet : ¬ IsUnhealthy e := by simp [isUnhealthy_iff_isSome, hs]
      exact ⟨past, h.snoc_outside hnone hends hstarts hquiet⟩
  · rw [hsome]
    show ∃ past', Segmented _ (if closes e = true then _ else _) past'
    split
    · rename_i hcloses
      exact ⟨past ++ [i], h.snoc_closes hends hstarts hi ho hpast hcloses⟩
    · rename_i hkeeps
      exact ⟨past, h.snoc_inside hends hstarts hi ho hpast (by simpa using hkeeps)⟩

/-- The open span has its incident, too. -/
theorem opened_incident {i : Nat} {o : OpenIncident τ} (ho : OpenAt events i o) :
    SpanIncident events i o.freeze where
  startedAt := ho.startedAt
  endedAt := by
    have hbefore : (events.drop i).find? closes = none := by
      simpa using ho.keeps
    rw [hbefore]
    rfl
  states := by
    rw [block, through_eq_self ho.keeps]
    exact ho.states
  events := by
    rw [block, through_eq_self ho.keeps]
    exact ho.events

/-- The incidents of the builder are the incidents of the spans. -/
theorem result (h : Segmented events b past) :
    List.Forall₂ (SpanIncident events) (starts events) b.result ∧
      (starts events).Pairwise fun i j => i + (block events i).length ≤ j := by
  unfold IncidentBuilder.result IncidentBuilder.openIncident
  rcases h.opened with ⟨hnone, -, hstarts⟩ | ⟨i, o, hsome, -, hstarts, -, ho, hpast⟩
  · rw [hnone, hstarts]
    simpa using ⟨h.closed, h.disjoint⟩
  · rw [hsome, hstarts]
    refine ⟨List.rel_append h.closed (.cons (opened_incident ho) .nil), ?_⟩
    rw [List.pairwise_append]
    refine ⟨h.disjoint, List.pairwise_singleton _ _, ?_⟩
    intro j hj j' hj'
    rw [List.mem_singleton.mp hj']
    exact hpast j hj

theorem endedAt_closed (h : Segmented events b past) : ∀ x ∈ b.closed, x.endedAt ≠ none := by
  have hspans := ((List.forall₂_and_left past b.closed).mpr ⟨h.ended, h.closed⟩).flip
  have hended : List.Forall₂ (fun (x : Incident τ) (_ : Nat) => x.endedAt ≠ none ∧ True)
      b.closed past := by
    refine hspans.imp fun x i ⟨hclosed, hx⟩ => ⟨fun hnone => ?_, trivial⟩
    -- The event that closes the span is found.
    have hfound := List.find?_isSome.mpr hclosed
    rw [hx.endedAt, Option.map_eq_none_iff] at hnone
    rw [hnone] at hfound
    cases hfound
  exact ((List.forall₂_and_left b.closed past).mp hended).1

/-- The incidents that are not open are the closed ones of the builder. -/
theorem filter_result (h : Segmented events b past) :
    b.result.filter (!·.isOpen) = b.closed := by
  have hclosed : b.closed.filter (!·.isOpen) = b.closed := by
    refine List.filter_eq_self.mpr fun x hx => ?_
    have hended := h.endedAt_closed x hx
    cases hx' : x.endedAt with
    | none => exact absurd hx' hended
    | some endedAt => simp [Incident.isOpen, hx']
  rw [IncidentBuilder.result, List.filter_append, hclosed, IncidentBuilder.openIncident]
  cases b.opened with
  | none => exact List.append_nil _
  | some o => exact List.append_nil _

/-- The last incident is open when the builder has an open one. -/
theorem getLast?_result (h : Segmented events b past) :
    b.result.getLast?.filter (·.isOpen) = b.openIncident := by
  unfold IncidentBuilder.result IncidentBuilder.openIncident
  cases b.opened with
  | some o => simp [OpenIncident.freeze, Incident.isOpen]
  | none =>
    rw [Option.map_none, Option.toList_none, List.append_nil, Option.filter_eq_none_iff]
    intro x hx
    have hended := h.endedAt_closed x (List.mem_of_getLast? hx)
    simpa [Incident.isOpen] using hended

end Segmented

/-- After any events, the builder has the incidents of their spans. -/
theorem exists_segmented (events : List (Event τ)) :
    ∃ past, Segmented events (events.foldl advance {}) past := by
  induction events using List.reverseRecOn with
  | nil => exact ⟨[], .nil⟩
  | append_singleton events e ih =>
    obtain ⟨past, h⟩ := ih
    rw [List.foldl_append]
    exact h.snoc e

/-- `build_incidents` returns one incident for each maximal unhealthy span, in order. No two
spans share an event, and only the last one may be open. -/
theorem buildIncidents_spans (events : List (Event τ)) (hvalid : ValidStates events) :
    ∃ incidents, buildIncidents events = .ok incidents ∧
      List.Forall₂ (SpanIncident events) (starts events) incidents ∧
      ((starts events).Pairwise fun i j => i + (block events i).length ≤ j) ∧
      ∀ x ∈ incidents.dropLast, x.endedAt ≠ none := by
  obtain ⟨past, h⟩ := exists_segmented events
  refine ⟨(events.foldl advance {}).result, buildIncidents_eq hvalid, h.result.1, h.result.2, ?_⟩
  intro x hx
  apply h.endedAt_closed
  unfold IncidentBuilder.result IncidentBuilder.openIncident at hx
  cases hopened : (events.foldl advance {}).opened with
  | none =>
    rw [hopened, Option.map_none, Option.toList_none, List.append_nil] at hx
    exact List.dropLast_subset _ hx
  | some o =>
    rw [hopened, Option.map_some, Option.toList_some, List.dropLast_concat] at hx
    exact hx

/-- A blip and an outage that goes on. -/
def blipAndOutage : List (Event Nat) :=
  [changed .healthy .degraded 1, noted, changed .degraded .healthy 2, noted,
    changed .healthy .offline 3]

theorem validStates_blipAndOutage : ValidStates blipAndOutage := by
  intro e he htype
  simp only [blipAndOutage, List.mem_cons, List.not_mem_nil, or_false] at he
  rcases he with rfl | rfl | rfl | rfl | rfl
  · exact ⟨_, Event.stateAt_stateChange_current _ _ _ _⟩
  · exact absurd htype (by decide)
  · exact ⟨_, Event.stateAt_stateChange_current _ _ _ _⟩
  · exact absurd htype (by decide)
  · exact ⟨_, Event.stateAt_stateChange_current _ _ _ _⟩

theorem buildIncidents_spans_blipAndOutage :
    ∃ incidents, buildIncidents blipAndOutage = .ok incidents ∧
      List.Forall₂ (SpanIncident blipAndOutage) (starts blipAndOutage) incidents ∧
      incidents.map (·.endedAt) = [some 2, none] ∧ starts blipAndOutage = [0, 4] := by
  obtain ⟨incidents, hbuilt, hspans, -⟩ :=
    buildIncidents_spans blipAndOutage validStates_blipAndOutage
  refine ⟨incidents, hbuilt, hspans, ?_, by decide⟩
  obtain rfl := Except.ok.inj (hbuilt.symm.trans rfl)
  decide

end EdgeSentinel.Proofs.Diagnostics
