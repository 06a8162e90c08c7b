import EdgeSentinel.Proofs.Diagnostics.Segmentation
import Mathlib.Data.List.DropRight

/-!
# `EdgeSentinel.Proofs.Diagnostics.LiveView`: the tracker shows what a replay would

A tracker trims the closed incidents of its builder after every event, and the builder goes on
with what is left. An event adds closed incidents at the end and reads none (`advance_eq`), so it
does not matter when the list is trimmed (`rtake_rtake_append`). After any events the builder of
the tracker is the one of `build_incidents` with its closed incidents trimmed (`builder_track`).
-/

set_option autoImplicit false

namespace EdgeSentinel.Proofs.Diagnostics

open EdgeSentinel.Core
open EdgeSentinel.Diagnostics

variable {τ : Type}

/-- A list that has been trimmed before is trimmed as the whole list. -/
theorem rtake_rtake_append {α : Type} (n : Nat) (xs ys : List α) :
    (xs.rtake n ++ ys).rtake n = (xs ++ ys).rtake n := by
  simp only [List.rtake_eq_reverse_take_reverse, List.reverse_append, List.reverse_reverse,
    List.take_append, List.take_take]
  congr 3
  omega

theorem length_rtake_le {α : Type} (n : Nat) (xs : List α) : (xs.rtake n).length ≤ n := by
  rw [List.rtake_eq_reverse_take_reverse, List.length_reverse]
  exact List.length_take_le n _

/-- An event does not read the closed incidents. -/
theorem advance_eq (b : IncidentBuilder τ) (e : Event τ) :
    advance b e
      = ⟨b.closed ++ (advance ⟨[], b.opened⟩ e).closed, (advance ⟨[], b.opened⟩ e).opened⟩ := by
  obtain ⟨closed, opened⟩ := b
  cases opened with
  | none => cases hs : unhealthyState? e <;> simp [advance, hs]
  | some o => by_cases hcloses : closes e = true <;> simp [advance, hcloses]

/-- The builder after it has been trimmed. -/
def trim (h : Nat) (b : IncidentBuilder τ) : IncidentBuilder τ :=
  { b with closed := b.closed.rtake h }

/-- Trimming before an event does not matter when the list is trimmed after it. -/
theorem trim_advance_trim (h : Nat) (b : IncidentBuilder τ) (e : Event τ) :
    trim h (advance (trim h b) e) = trim h (advance b e) := by
  -- What the event adds to the closed incidents is the same on both sides.
  rw [advance_eq b, advance_eq (trim h b)]
  simp only [trim, rtake_rtake_append]

/-- One event of the tracker. -/
theorem onEvent_eq (t : IncidentTracker τ) {e : Event τ}
    (hvalid : e.type = "state_change" → ∃ s, e.stateAt "current" = .ok s) :
    t.onEvent e = { t with builder := trim t.maxHistory (advance t.builder e) } := by
  rw [IncidentTracker.onEvent, feed_eq t.builder hvalid]
  rfl

/-- A new tracker to which the events have been delivered. -/
def track (h : Nat) (hpos : 1 ≤ h) (events : List (Event τ)) : IncidentTracker τ :=
  events.foldl IncidentTracker.onEvent { maxHistory := h, history_pos := hpos }

/-- The tracker goes on with a trimmed builder. -/
theorem builder_track (h : Nat) (hpos : 1 ≤ h) (events : List (Event τ))
    (hvalid : ValidStates events) :
    track h hpos events
      = { maxHistory := h, builder := trim h (events.foldl advance {}), history_pos := hpos } := by
  induction events using List.reverseRecOn with
  | nil => simp [track, trim]
  | append_singleton events e ih =>
    have hbefore := ih fun e' he' => hvalid e' (List.mem_append_left _ he')
    rw [track, List.foldl_append, List.foldl_append, ← track, hbefore]
    show IncidentTracker.onEvent _ e = _
    rw [onEvent_eq _ (hvalid e (by simp)), trim_advance_trim]
    rfl

/-- After any events, a tracker shows the last `h` closed incidents of `build_incidents` on
these events, and its open one. -/
theorem tracker_agrees (h : Nat) (hpos : 1 ≤ h) (events : List (Event τ))
    (hvalid : ValidStates events) :
    ∃ incidents, buildIncidents events = .ok incidents ∧
      (track h hpos events).incidents = (incidents.filter (!·.isOpen)).rtake h ∧
      (track h hpos events).openIncident = incidents.getLast?.filter (·.isOpen) ∧
      (track h hpos events).builder.closed.length ≤ h := by
  obtain ⟨past, hsegmented⟩ := exists_segmented events
  refine ⟨(events.foldl advance {}).result, buildIncidents_eq hvalid, ?_, ?_, ?_⟩
  · rw [builder_track h hpos events hvalid, hsegmented.filter_result]
    rfl
  · rw [builder_track h hpos events hvalid, hsegmented.getLast?_result]
    rfl
  · rw [builder_track h hpos events hvalid]
    exact length_rtake_le h _

/-- A tracker of one incident. The outage has ended, and has replaced the blip. -/
theorem tracker_agrees_outageEnds :
    ∃ incidents, buildIncidents (blipAndOutage ++ [changed .offline .healthy 4]) = .ok incidents ∧
      (track 1 (by decide) (blipAndOutage ++ [changed .offline .healthy 4])).incidents
        = (incidents.filter (!·.isOpen)).rtake 1 ∧
      (incidents.map (·.startedAt)) = [1, 3] := by
  have hvalid : ValidStates (blipAndOutage ++ [changed .offline .healthy 4]) := by
    intro e he htype
    rcases List.mem_append.mp he with he | he
    · exact validStates_blipAndOutage e he htype
    · rw [List.mem_singleton.mp he]
      exact ⟨_, Event.stateAt_stateChange_current _ _ _ _⟩
  obtain ⟨incidents, hbuilt, hincidents, -⟩ := tracker_agrees 1 (by decide) _ hvalid
  refine ⟨incidents, hbuilt, hincidents, ?_⟩
  obtain rfl := Except.ok.inj (hbuilt.symm.trans rfl)
  decide

end EdgeSentinel.Proofs.Diagnostics
