import EdgeSentinel.Diagnostics.StateChanges
import EdgeSentinel.Library.Keyed

/-!
# `EdgeSentinel.Proofs.Diagnostics.History`: what the `state_change` events tell

`TellsHistory` is the contract of the `state_change` events: they form a chain from the
initial state, and once no call is going on the chain ends in the current state. Then the
incident tracker has an open incident exactly when the runtime is unhealthy.

The state moves before the handlers are awaited, and the event is published after them. So a
call with a slow handler publishes its event after the event of a later move, and the chain
is broken. `tellsHistory_of_inOrder` proves the contract for the runs in which each call
publishes its event before the calls that moved the machine later do.

The invariant `Told` continues the chain of the published events by the moves of the pending
calls, up to the current state.
-/

set_option autoImplicit false

namespace EdgeSentinel.Proofs.Diagnostics

open EdgeSentinel.Core
open EdgeSentinel.Diagnostics
open EdgeSentinel.Diagnostics.StateChanges (start Quiet step)

variable {τ : Type}

/-- The event tells of a change from `s` to `t`. -/
def IsChange (s : RuntimeState) (e : Event τ) (t : RuntimeState) : Prop :=
  e.type = "state_change" ∧ e.stateAt "previous" = .ok s ∧ e.stateAt "current" = .ok t

/-- The call has moved the machine from `s` to `t`. -/
def Moved (s : RuntimeState) (c : Change) (t : RuntimeState) : Prop :=
  c.previous = s ∧ c.target = t

/-- The contract of the `state_change` events. -/
structure TellsHistory (initial : RuntimeState) (w : StateChanges τ) : Prop where
  /-- The first event's previous state is the initial one, and each next event's previous
  state is the current state of the event before. -/
  chain : ∃ last, Run.Path IsChange initial w.published last
  /-- When all calls have finished, the last event's current state is the machine's. -/
  upToDate : w.Quiet → Run.Path IsChange initial w.published w.current
  incident : initial ∉ incidentStates → w.Quiet →
    (w.tracker.openIncident.isSome ↔ w.current ∈ incidentStates)

/-- A call publishes its event only when no earlier move is still unpublished. -/
def InOrder (handlers : Nat) (w : StateChanges τ) : ChangeStep τ → StateChanges τ → Prop
  | .handled id _, _ =>
    ∀ c ∈ w.pending, c.id = id → handlers ≤ c.handler + 1 → w.pending.head? = some c
  | _, _ => True

instance (handlers : Nat) (w : StateChanges τ) : ∀ e w', Decidable (InOrder handlers w e w')
  | .handled id _, _ => inferInstanceAs (Decidable (∀ c ∈ w.pending, c.id = id →
      handlers ≤ c.handler + 1 → w.pending.head? = some c))
  | .setState _ _ _ _, _ => isTrue trivial
  | .delivered _, _ => isTrue trivial

/-- The invariant. The published events lead to a state `last` that the tracker knows, and
the pending moves lead from there to the current state. -/
structure Told (initial : RuntimeState) (w : StateChanges τ) : Prop where
  told : ∃ last, Run.Path IsChange initial w.published last ∧
    Run.Path Moved last w.pending w.current ∧
    (initial ∉ incidentStates →
      w.tracker.openIncident.isSome = decide (last ∈ incidentStates))
  ids : (w.pending.map (·.id)).Nodup

theorem Told.start (initial : RuntimeState) (maxHistory : Nat) (h : 1 ≤ maxHistory) :
    Told initial (StateChanges.start (τ := τ) initial maxHistory h) where
  told := ⟨initial, rfl, rfl, fun hne => by
    simp [StateChanges.start, IncidentTracker.openIncident, IncidentBuilder.openIncident, hne]⟩
  ids := List.nodup_nil

/-- After a `state_change` event the tracker has an open incident exactly when the state is
unhealthy. -/
theorem onEvent_openIncident_isSome (t : IncidentTracker τ) {e : Event τ}
    {s current : RuntimeState} (h : IsChange s e current) :
    (t.onEvent e).openIncident.isSome = decide (current ∈ incidentStates) := by
  have hfeed := IncidentBuilder.feed_of_stateAt (b := t.builder) h.1 h.2.2
  simp only [IncidentTracker.onEvent, hfeed, IncidentTracker.openIncident,
    IncidentBuilder.openIncident, Option.isSome_map]
  exact IncidentBuilder.enter_opened_isSome current

theorem isChange_stateChange (component : String) (previous current : RuntimeState) (now : τ) :
    IsChange previous (Event.stateChange component previous current now) current :=
  ⟨rfl, by simp, by simp⟩

namespace Told

variable {initial : RuntimeState} {w : StateChanges τ}

/-- The oldest pending call publishes its event. The chain goes on by its move. -/
theorem publish (h : Told initial w) {c : Change} {rest : List Change}
    (hp : w.pending = c :: rest) (now : τ) :
    Told initial (w.publish c now) ∧ (w.publish c now).pending = rest := by
  obtain ⟨last, hchain, hpending, -⟩ := h.told
  have hids := h.ids
  rw [hp] at hpending hids
  obtain ⟨m, ⟨rfl, rfl⟩, hrest⟩ := hpending
  have hevent := isChange_stateChange c.component c.previous c.target now
  -- The ids are distinct, so only the oldest call leaves.
  have hfilter : (w.publish c now).pending = rest := by
    show w.pending.filter (·.id ≠ c.id) = rest
    rw [List.map_cons, List.nodup_cons] at hids
    rw [hp, List.filter_cons_of_neg (by simp), List.filter_eq_self]
    intro d hd
    have hne : d.id ≠ c.id := fun heq => hids.1 (heq ▸ List.mem_map_of_mem hd)
    simpa using hne
  refine ⟨⟨⟨c.target, hchain.snoc hevent, ?_, fun _ => ?_⟩, ?_⟩, hfilter⟩
  · rw [hfilter]
    exact hrest
  · exact onEvent_openIncident_isSome w.tracker hevent
  · rw [hfilter]
    exact (List.nodup_cons.mp hids).2

/-- A call moves the machine. The move is the last one of the pending moves. -/
theorem move (h : Told initial w) {id : Nat} (hid : id ∉ w.pending.map (·.id))
    (component : String) (target : RuntimeState) :
    Told initial { w with
      current := target
      pending := w.pending ++ [⟨id, component, w.current, target, 0⟩] } := by
  obtain ⟨last, hchain, hpending, htracker⟩ := h.told
  exact ⟨⟨last, hchain, hpending.snoc ⟨rfl, rfl⟩, htracker⟩, Keyed.nodup_append h.ids hid⟩

/-- A call goes on to its next handler. -/
theorem nextHandler (h : Told initial w) (id : Nat) :
    Told initial { w with
      pending := w.pending.map fun d =>
        if d.id = id then { d with handler := d.handler + 1 } else d } := by
  obtain ⟨last, hchain, hpending, htracker⟩ := h.told
  have hkeep : ∀ s (d : Change) t, Moved s d t →
      Moved s (if d.id = id then { d with handler := d.handler + 1 } else d) t := by
    intro s d t hd
    split
    · exact hd
    · exact hd
  refine ⟨⟨last, hchain, hpending.map hkeep, htracker⟩, ?_⟩
  rw [Keyed.map_key_map fun d => by split <;> rfl]
  exact h.ids

/-- A step that publishes in order keeps the invariant. -/
theorem step {handlers : Nat} (h : Told initial w) (hprompt : handlers = 0 → w.pending = [])
    {e : ChangeStep τ} {w' : StateChanges τ} (hstep : step handlers w e = some w')
    (horder : InOrder handlers w e w') :
    Told initial w' ∧ (handlers = 0 → w'.pending = []) := by
  obtain ⟨hen, rfl⟩ := Run.guarded_eq_some.mp hstep
  cases e with
  | setState id target component now =>
    simp only [StateChanges.next]
    by_cases heq : target = w.current
    · -- The machine is there already.
      rw [heq, StateMachine.transition_self]
      simp only [if_pos]
      exact ⟨h, hprompt⟩
    · by_cases hmem : target ∈ w.current.transitions
      · rw [StateMachine.transition_of_mem hmem]
        simp only [if_neg (Ne.symm heq)]
        have hmove := h.move hen.1 component target
        by_cases hzero : handlers = 0
        · -- Without handlers the call publishes before it can be suspended.
          rw [if_pos hzero]
          have hsingle : w.pending ++ [⟨id, component, w.current, target, 0⟩]
              = [⟨id, component, w.current, target, 0⟩] := by
            rw [hprompt hzero]
            rfl
          obtain ⟨htold, hrest⟩ := hmove.publish hsingle now
          exact ⟨htold, fun _ => hrest⟩
        · rw [if_neg hzero]
          exact ⟨hmove, fun hz => absurd hz hzero⟩
      · rw [StateMachine.transition_of_not_mem heq hmem]
        exact ⟨h, hprompt⟩
  | handled id now =>
    obtain ⟨c, hc, hcid⟩ := List.mem_map.mp hen
    -- A call that is with a handler needs one.
    have hzero : handlers ≠ 0 := by
      intro hz
      rw [hprompt hz] at hc
      cases hc
    have hfind : w.pending.find? (·.id = id) = some c := by
      rw [← hcid]
      exact Keyed.find?_of_mem h.ids hc
    simp only [StateChanges.next, hfind]
    by_cases hlast : c.handler + 1 < handlers
    · rw [if_pos hlast]
      exact ⟨h.nextHandler id, fun hz => absurd hz hzero⟩
    · -- The last handler is done, and by the order the call is the oldest one.
      rw [if_neg hlast]
      have hhead := horder c hc hcid (Nat.le_of_not_lt hlast)
      obtain ⟨rest, hrest⟩ := List.head?_eq_some_iff.mp hhead
      exact ⟨(h.publish hrest now).1, fun hz => absurd hz hzero⟩
  | delivered id => exact ⟨⟨h.told, h.ids⟩, hprompt⟩

/-- The invariant is the contract, and more. -/
theorem tellsHistory (h : Told initial w) : TellsHistory initial w := by
  obtain ⟨last, hchain, hpending, htracker⟩ := h.told
  -- In a quiet world no move is pending after the last event.
  have hlast : w.Quiet → last = w.current := by
    intro hquiet
    rw [hquiet.1] at hpending
    exact hpending
  refine ⟨⟨last, hchain⟩, fun hquiet => ?_, fun hinitial hquiet => ?_⟩
  · rw [← hlast hquiet]
    exact hchain
  · rw [← hlast hquiet, htracker hinitial, decide_eq_true_iff]

end Told

/-- In every run whose calls publish in the order of their moves, the events tell the true
history. -/
theorem tellsHistory_of_inOrder (handlers : Nat) (initial : RuntimeState) (maxHistory : Nat)
    (h : 1 ≤ maxHistory) (es : List (ChangeStep τ)) (w : StateChanges τ)
    (hrun : Run.exec (step handlers) (start initial maxHistory h) es = some w)
    (horder : Run.Along (step handlers) (InOrder handlers) (start initial maxHistory h) es) :
    TellsHistory initial w := by
  have hinv := Run.exec_invariant (fun w => Told initial w ∧ (handlers = 0 → w.pending = []))
    (fun w e w' hw hstep hin => hw.1.step hw.2 hstep hin) es _ w
    ⟨Told.start initial maxHistory h, fun _ => rfl⟩ hrun horder
  exact hinv.1.tellsHistory

/-- Boot with one handler, then a network that is lost and found. The calls publish in the
order of their moves. -/
def bootAndBlip : List (ChangeStep Nat) :=
  [.setState 0 .initializing "runtime" 1, .handled 0 2, .delivered 0,
    .setState 1 .healthy "runtime" 3, .handled 1 4, .setState 2 .degraded "network" 5,
    .setState 3 .healthy "network" 6, .delivered 1, .handled 2 7, .handled 3 8, .delivered 3,
    .delivered 2]

theorem tellsHistory_of_inOrder_bootAndBlip :
    ∃ w, Run.exec (step 1) (start .booting 100 (by decide)) bootAndBlip = some w ∧
      TellsHistory .booting w ∧ w.published.length = 4 := by
  have hrun : (Run.exec (step 1) (start .booting 100 (by decide)) bootAndBlip).map
      (fun w => w.published.length) = some 4 := by decide
  obtain ⟨w, hw, hlength⟩ := Option.map_eq_some_iff.mp hrun
  exact ⟨w, hw,
    tellsHistory_of_inOrder 1 .booting 100 (by decide) bootAndBlip w hw (by decide), hlength⟩

/-- The handler of the move to DEGRADED is slower than the one of the way back. The last
event says DEGRADED, and the tracker's incident stays open in HEALTHY. -/
theorem overtaken_event_breaks_chain :
    ¬ ∀ (handlers : Nat) (initial : RuntimeState) (maxHistory : Nat) (h : 1 ≤ maxHistory)
      (es : List (ChangeStep Nat)) (w : StateChanges Nat),
      Run.exec (step handlers) (start initial maxHistory h) es = some w →
        TellsHistory initial w := by
  intro h
  have hrun : (Run.exec (step 1) (start .booting 100 (by decide))
      [.setState 0 .initializing "runtime" 1, .handled 0 2, .delivered 0,
        .setState 1 .healthy "runtime" 3, .handled 1 4, .delivered 1,
        .setState 2 .degraded "network" 5, .setState 3 .healthy "network" 6, .handled 3 7,
        .delivered 3, .handled 2 8, .delivered 2]).map
      (fun w => (w.current, w.pending, w.delivering, w.tracker.openIncident.isSome))
      = some (.healthy, [], [], true) := by decide
  obtain ⟨w, hw, hdata⟩ := Option.map_eq_some_iff.mp hrun
  simp only [Prod.mk.injEq] at hdata
  obtain ⟨hcurrent, hpending, hdelivering, hopen⟩ := hdata
  have hincident := (h 1 .booting 100 (by decide) _ w hw).incident (by decide)
    ⟨hpending, hdelivering⟩
  rw [hcurrent] at hincident
  have hhealthy : RuntimeState.healthy ∈ incidentStates := hincident.mp hopen
  exact absurd hhealthy (by decide)

end EdgeSentinel.Proofs.Diagnostics
