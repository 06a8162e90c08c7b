import EdgeSentinel.Diagnostics.Timeline
import Mathlib.Data.List.Induction

/-!
# `EdgeSentinel.Proofs.Diagnostics.Replay`: the incidents of a truncated timeline

`_cmd_incidents` replays the oldest 5000 events. `replay_complete_iff` says when that gives the
incidents of the whole timeline: the timeline is not longer, or the first 5000 events end
outside of an incident and no later event opens one.

Each event that a builder takes into an incident adds to the total number of events of its
incidents, and every other event leaves the builder as it is (`feed_cases`). So two replays
with the same incidents have taken the same events.
-/

set_option autoImplicit false

namespace EdgeSentinel.Proofs.Diagnostics

open EdgeSentinel.Core
open EdgeSentinel.Diagnostics
open EdgeSentinel.Diagnostics.IncidentBuilder (feedAll)

variable {τ : Type}

/-- Every `state_change` event carries the value of a state. -/
def ValidStates (events : List (Event τ)) : Prop :=
  ∀ e ∈ events, e.type = "state_change" → ∃ s, e.stateAt "current" = .ok s

/-- The event is a `state_change` into an unhealthy state. -/
def IsUnhealthy (e : Event τ) : Prop :=
  e.type = "state_change" ∧ ∃ s ∈ incidentStates, e.stateAt "current" = .ok s

/-- The last `state_change` of the events, if there is one, is into a state that is not
unhealthy. -/
def EndsHealthy (events : List (Event τ)) : Prop :=
  ∀ e, (events.filter fun e => e.type = "state_change").getLast? = some e → ¬ IsUnhealthy e

/-- The total number of events of the incidents. -/
def taken (incidents : List (Incident τ)) : Nat := (incidents.flatMap (·.events)).length

/-! ### One event -/

theorem taken_append (l l' : List (Incident τ)) : taken (l ++ l') = taken l + taken l' := by
  simp [taken]

/-- Outside of an incident an event is not taken by `append`. -/
theorem append_of_none {b : IncidentBuilder τ} (h : b.opened = none) (e : Event τ) :
    b.append e = b := by
  cases b
  cases h
  rfl

/-- An open incident takes the event. -/
theorem taken_append_of_some {b : IncidentBuilder τ} {o : OpenIncident τ}
    (h : b.opened = some o) (e : Event τ) :
    taken (b.append e).result = taken b.result + 1 := by
  simp only [IncidentBuilder.result, taken_append]
  simp [IncidentBuilder.append, IncidentBuilder.openIncident, taken, OpenIncident.freeze, h]
  omega

/-- A change of state within an incident takes no further event. -/
theorem taken_enter_of_some {b : IncidentBuilder τ} {o : OpenIncident τ}
    (h : b.opened = some o) (e : Event τ) (current : RuntimeState) :
    taken (b.enter e current).result = taken b.result := by
  by_cases hs : current ∈ incidentStates
  · simp [IncidentBuilder.enter, hs, h, IncidentBuilder.result,
      IncidentBuilder.openIncident, taken, OpenIncident.freeze]
  · simp [IncidentBuilder.enter, hs, h, IncidentBuilder.result,
      IncidentBuilder.openIncident, taken, OpenIncident.freeze, OpenIncident.close]

/-- A change to an unhealthy state opens an incident with the event. -/
theorem taken_enter_of_none {b : IncidentBuilder τ} (h : b.opened = none) (e : Event τ)
    {current : RuntimeState} (hs : current ∈ incidentStates) :
    taken (b.enter e current).result = taken b.result + 1 := by
  simp [IncidentBuilder.enter, hs, h, IncidentBuilder.result,
    IncidentBuilder.openIncident, taken, OpenIncident.freeze]

/-- A change to another state leaves a builder without an open incident as it is. -/
theorem enter_of_none {b : IncidentBuilder τ} (h : b.opened = none) (e : Event τ)
    {current : RuntimeState} (hs : current ∉ incidentStates) : b.enter e current = b := by
  simp [IncidentBuilder.enter, hs, h]

/-- A `state_change` is into an unhealthy state exactly when its state is unhealthy. -/
theorem isUnhealthy_iff {e : Event τ} {current : RuntimeState} (h : e.type = "state_change")
    (hc : e.stateAt "current" = .ok current) : IsUnhealthy e ↔ current ∈ incidentStates := by
  constructor
  · rintro ⟨-, s, hs, hs'⟩
    obtain rfl : s = current := Except.ok.inj (hs'.symm.trans hc)
    exact hs
  · intro hs
    exact ⟨h, current, hs, hc⟩

/-- An event outside of an incident that opens none leaves the builder as it is. Any other
event is taken into an incident. -/
theorem feed_cases (b : IncidentBuilder τ) {e : Event τ}
    (hvalid : e.type = "state_change" → ∃ s, e.stateAt "current" = .ok s) :
    ∃ b', b.feed e = (b', none) ∧
      ((b.opened = none ∧ ¬ IsUnhealthy e ∧ b' = b) ∨
        ((b.opened.isSome ∨ IsUnhealthy e) ∧ taken b'.result = taken b.result + 1)) := by
  by_cases htype : e.type = "state_change"
  · obtain ⟨current, hc⟩ := hvalid htype
    refine ⟨_, IncidentBuilder.feed_of_stateAt htype hc, ?_⟩
    rw [isUnhealthy_iff htype hc]
    cases hopen : b.opened with
    | none =>
      rw [append_of_none hopen]
      by_cases hs : current ∈ incidentStates
      · exact Or.inr ⟨Or.inr hs, taken_enter_of_none hopen e hs⟩
      · exact Or.inl ⟨rfl, hs, enter_of_none hopen e hs⟩
    | some o =>
      have happend : (b.append e).opened = some { o with events := o.events ++ [e] } := by
        simp [IncidentBuilder.append, hopen]
      refine Or.inr ⟨Or.inl rfl, ?_⟩
      rw [taken_enter_of_some happend, taken_append_of_some hopen]
  · refine ⟨_, IncidentBuilder.feed_of_ne htype, ?_⟩
    have hnot : ¬ IsUnhealthy e := fun h => htype h.1
    cases hopen : b.opened with
    | none => exact Or.inl ⟨rfl, hnot, append_of_none hopen e⟩
    | some o => exact Or.inr ⟨Or.inl rfl, taken_append_of_some hopen e⟩

/-! ### All events -/

/-- The builder takes the events in two parts as it takes them in one. -/
theorem feedAll_append (es' : List (Event τ)) :
    ∀ (es : List (Event τ)) (b : IncidentBuilder τ),
      b.feedAll (es ++ es') = (b.feedAll es).bind fun b' => b'.feedAll es' := by
  intro es
  induction es with
  | nil => exact fun b => rfl
  | cons e es ih =>
    intro b
    simp only [List.cons_append, feedAll]
    split
    · exact ih _
    · rfl

/-- Valid events are never refused, and incidents never lose an event. -/
theorem feedAll_valid :
    ∀ (es : List (Event τ)) (b : IncidentBuilder τ), ValidStates es →
      ∃ b', b.feedAll es = .ok b' ∧ taken b.result ≤ taken b'.result := by
  intro es
  induction es with
  | nil => exact fun b _ => ⟨b, rfl, le_refl _⟩
  | cons e es ih =>
    intro b hvalid
    obtain ⟨b₁, hfeed, hcases⟩ := feed_cases b (hvalid e List.mem_cons_self)
    obtain ⟨b', hb', hle⟩ := ih b₁ fun e' he' => hvalid e' (List.mem_cons_of_mem e he')
    refine ⟨b', by simp only [feedAll, hfeed, hb'], ?_⟩
    rcases hcases with ⟨-, -, rfl⟩ | ⟨-, hmore⟩
    · exact hle
    · omega

/-- The incidents stay the same exactly when no event is taken: there is none left, or no
incident is open and no event opens one. -/
theorem result_feedAll_iff :
    ∀ (es : List (Event τ)) (b b' : IncidentBuilder τ), ValidStates es →
      b.feedAll es = .ok b' →
      (b.result = b'.result ↔ es = [] ∨ (b.opened = none ∧ ∀ e ∈ es, ¬ IsUnhealthy e)) := by
  intro es
  induction es with
  | nil =>
    intro b b' _ h
    cases h
    simp
  | cons e es ih =>
    intro b b' hvalid h
    obtain ⟨b₁, hfeed, hcases⟩ := feed_cases b (hvalid e List.mem_cons_self)
    have hvalid' : ValidStates es := fun e' he' => hvalid e' (List.mem_cons_of_mem e he')
    have hrest : b₁.feedAll es = .ok b' := by simpa only [feedAll, hfeed] using h
    rcases hcases with ⟨hnone, hquiet, rfl⟩ | ⟨htaken, hmore⟩
    · rw [ih b₁ b' hvalid' hrest]
      constructor
      · rintro (rfl | ⟨-, hall⟩)
        · exact Or.inr ⟨hnone, by simpa using hquiet⟩
        · exact Or.inr ⟨hnone, List.forall_mem_cons.mpr ⟨hquiet, hall⟩⟩
      · rintro (hnil | ⟨-, hall⟩)
        · cases hnil
        · exact Or.inr ⟨hnone, (List.forall_mem_cons.mp hall).2⟩
    · -- The event is taken, and no later one gives it back.
      obtain ⟨b'', hb'', hle⟩ := feedAll_valid es b₁ hvalid'
      obtain rfl : b'' = b' := Except.ok.inj (hb''.symm.trans hrest)
      constructor
      · intro heq
        rw [heq] at hmore
        omega
      · rintro (hnil | ⟨hnone, hall⟩)
        · cases hnil
        · rcases htaken with hsome | hopens
          · rw [hnone] at hsome
            cases hsome
          · exact absurd hopens (hall e List.mem_cons_self)

/-- After a `state_change` an incident is open exactly when the new state is unhealthy. -/
theorem opened_of_stateChange {b b' : IncidentBuilder τ} {e : Event τ}
    (htype : e.type = "state_change") (hvalid : ∃ s, e.stateAt "current" = .ok s)
    (h : b.feed e = (b', none)) : b'.opened = none ↔ ¬ IsUnhealthy e := by
  obtain ⟨current, hc⟩ := hvalid
  obtain rfl : (b.append e).enter e current = b' := by
    have hfeed := IncidentBuilder.feed_of_stateAt (b := b) htype hc
    rw [h] at hfeed
    exact (congrArg Prod.fst hfeed).symm
  have hopen := IncidentBuilder.enter_opened_isSome (b := b.append e) (e := e) current
  rw [isUnhealthy_iff htype hc, ← Option.not_isSome_iff_eq_none, hopen, decide_eq_true_iff]

/-- The last event decides, when it is a `state_change`. -/
theorem endsHealthy_snoc (es : List (Event τ)) (e : Event τ) :
    EndsHealthy (es ++ [e]) ↔
      if e.type = "state_change" then ¬ IsUnhealthy e else EndsHealthy es := by
  by_cases htype : e.type = "state_change"
  · rw [if_pos htype]
    simp [EndsHealthy, List.filter_append, htype]
  · rw [if_neg htype]
    simp [EndsHealthy, List.filter_append, htype]

/-- No incident is open after the events exactly when they end outside of the unhealthy
states. -/
theorem opened_eq_none_iff (es : List (Event τ)) :
    ∀ b : IncidentBuilder τ, ValidStates es → feedAll {} es = .ok b →
      (b.opened = none ↔ EndsHealthy es) := by
  induction es using List.reverseRecOn with
  | nil =>
    intro b _ h
    cases h
    simp [EndsHealthy]
  | append_singleton es e ih =>
    intro b hvalid h
    have hvalid' : ValidStates es := fun e' he' => hvalid e' (by simp [he'])
    have hvalidLast := hvalid e (by simp)
    -- `b₁` is the builder before the last event.
    obtain ⟨b₁, hb₁, -⟩ := feedAll_valid es {} hvalid'
    obtain ⟨b₂, hfeed, -⟩ := feed_cases b₁ hvalidLast
    obtain rfl : b₂ = b := by
      rw [feedAll_append, hb₁] at h
      simpa [Except.bind, feedAll, hfeed] using h
    rw [endsHealthy_snoc]
    by_cases htype : e.type = "state_change"
    · rw [if_pos htype]
      exact opened_of_stateChange htype (hvalidLast htype) hfeed
    · rw [if_neg htype, ← ih b₁ hvalid' hb₁]
      rw [IncidentBuilder.feed_of_ne htype, Prod.mk.injEq] at hfeed
      rw [← hfeed.1]
      simp [IncidentBuilder.append]

/-! ### The command -/

/-- Reading a prefix of the rows gives a prefix of the events. -/
theorem mapM_take {α β ε : Type} {f : α → Except ε β} (n : Nat) :
    ∀ {xs : List α} {ys : List β}, xs.mapM f = .ok ys → (xs.take n).mapM f = .ok (ys.take n) := by
  induction n with
  | zero => exact fun _ => rfl
  | succ n ih =>
    intro xs ys h
    cases xs with
    | nil =>
      obtain rfl : ys = [] := (Except.ok.inj h).symm
      rfl
    | cons x xs =>
      rw [List.mapM_cons] at h
      cases hx : f x with
      | error err => simp [hx, bind, Except.bind] at h
      | ok y =>
        cases hxs : xs.mapM f with
        | error err => simp [hx, hxs, bind, Except.bind] at h
        | ok ys' =>
          obtain rfl : y :: ys' = ys := by
            simpa [hx, hxs, bind, Except.bind, pure, Except.pure] using h
          simp [hx, ih hxs, bind, Except.bind, pure, Except.pure]

variable [LE τ] [DecidableLE τ]

/-- The replay takes the oldest 5000 events. -/
theorem cmdIncidents_record (events : List (Event τ)) :
    cmdIncidents (EventLog.record events) = buildIncidents (events.take 5000) := by
  have hall : ∀ row : Row τ, ({} : Filters τ).matches row = true := by
    simp [Filters.matches]
  have hrows : (EventLog.record events).loadEvents {} incidentReplayLimit false
      = .ok ((EventLog.record events).rows.take 5000) := by
    have hfilter : (EventLog.record events).rows.filter ({} : Filters τ).matches
        = (EventLog.record events).rows := List.filter_eq_self.mpr fun row _ => hall row
    simp [EventTable.loadEvents, isSqlInteger, sqlLimit, incidentReplayLimit, hfilter]
  have hquery : EventLog.query (EventLog.record events) {} none incidentReplayLimit false
      = .ok (events.take 5000) := by
    simp [EventLog.query, hrows, mapM_take 5000 (mapM_toEvent_record events), bind, Except.bind,
      pure, Except.pure]
  rw [cmdIncidents, hquery]
  rfl

/-- The command reports the incidents of the whole timeline exactly when the timeline has at
most 5000 events, or the first 5000 events end outside of an incident and no later event
opens one. -/
theorem replay_complete_iff (events : List (Event τ)) (hvalid : ValidStates events) :
    cmdIncidents (EventLog.record events) = buildIncidents events ↔
      events.length ≤ 5000 ∨
        (EndsHealthy (events.take 5000) ∧ ∀ e ∈ events.drop 5000, ¬ IsUnhealthy e) := by
  have hvalidTake : ValidStates (events.take 5000) :=
    fun e he => hvalid e (List.mem_of_mem_take he)
  have hvalidDrop : ValidStates (events.drop 5000) :=
    fun e he => hvalid e (List.mem_of_mem_drop he)
  obtain ⟨b, hb, -⟩ := feedAll_valid _ {} hvalidTake
  obtain ⟨b', hb', -⟩ := feedAll_valid _ b hvalidDrop
  have hwhole : feedAll {} events = .ok b' := by
    conv_lhs => rw [← List.take_append_drop 5000 events]
    rw [feedAll_append, hb]
    exact hb'
  rw [cmdIncidents_record, buildIncidents, buildIncidents, hb, hwhole, Except.map, Except.map,
    Except.ok.injEq, result_feedAll_iff _ b b' hvalidDrop hb',
    opened_eq_none_iff _ b hvalidTake hb, List.drop_eq_nil_iff]

/-- A change of state at a time. -/
def changed (previous current : RuntimeState) (now : Nat) : Event Nat :=
  .stateChange "network" previous current now

theorem validStates_of_changed {events : List (Event Nat)}
    (h : ∀ e ∈ events, e.type = "state_change" → ∃ s t now, e = changed s t now) :
    ValidStates events := by
  intro e he htype
  obtain ⟨s, t, now, rfl⟩ := h e he htype
  exact ⟨t, Event.stateAt_stateChange_current _ s t now⟩

/-- A short timeline is reported in full. -/
theorem replay_complete_iff_blip :
    cmdIncidents (EventLog.record [changed .healthy .degraded 1, changed .degraded .healthy 2])
      = buildIncidents [changed .healthy .degraded 1, changed .degraded .healthy 2] := by
  refine (replay_complete_iff _ (validStates_of_changed ?_)).mpr (Or.inl (by decide))
  intro e he _
  simp only [List.mem_cons, List.not_mem_nil, or_false] at he
  rcases he with rfl | rfl
  · exact ⟨_, _, _, rfl⟩
  · exact ⟨_, _, _, rfl⟩

/-- An event of a subsystem that is no change of state. -/
def noted : Event Nat where
  type := "network_status_changed"
  component := "network"
  timestamp := 0

/-- The 5001st event ends the incident. The command does not read it, and reports the incident
as ongoing. -/
theorem truncated_replay_misreports :
    ¬ ∀ events : List (Event Nat), ValidStates events →
      cmdIncidents (EventLog.record events) = buildIncidents events := by
  intro h
  have hvalidTake : ValidStates (changed .healthy .degraded 1 :: List.replicate 4999 noted) := by
    apply validStates_of_changed
    intro e he htype
    rcases List.mem_cons.mp he with rfl | he
    · exact ⟨_, _, _, rfl⟩
    · rw [List.eq_of_mem_replicate he] at htype
      exact absurd htype (by decide)
  have hvalidEnd : ValidStates [changed .degraded .healthy 2] :=
    validStates_of_changed fun e he _ => ⟨_, _, _, List.mem_singleton.mp he⟩
  have hvalid := h ((changed .healthy .degraded 1 :: List.replicate 4999 noted)
    ++ [changed .degraded .healthy 2]) fun e he =>
      (List.mem_append.mp he).elim (hvalidTake e) (hvalidEnd e)
  obtain ⟨b, hb, -⟩ := feedAll_valid _ {} hvalidTake
  obtain ⟨b', hb', -⟩ := feedAll_valid _ b hvalidEnd
  have htake : ((changed .healthy .degraded 1 :: List.replicate 4999 noted)
      ++ [changed .degraded .healthy 2]).take 5000
        = changed .healthy .degraded 1 :: List.replicate 4999 noted := by
    apply List.take_left'
    rw [List.length_cons, List.length_replicate]
  rw [cmdIncidents_record, htake, buildIncidents, buildIncidents, feedAll_append, hb, Except.bind,
    hb', Except.map, Except.map, Except.ok.injEq, result_feedAll_iff _ b b' hvalidEnd hb',
    opened_eq_none_iff _ b hvalidTake hb] at hvalid
  obtain hnil | ⟨hends, -⟩ := hvalid
  · cases hnil
  · refine hends (changed .healthy .degraded 1) ?_ ⟨rfl, .degraded, by decide, by
      exact Event.stateAt_stateChange_current _ _ _ _⟩
    have hnotes : ((List.replicate 4999 noted).filter fun e => e.type = "state_change") = [] := by
      rw [List.filter_eq_nil_iff]
      intro e he
      rw [List.eq_of_mem_replicate he]
      decide
    rw [List.filter_cons_of_pos (by decide), hnotes]
    rfl

end EdgeSentinel.Proofs.Diagnostics
