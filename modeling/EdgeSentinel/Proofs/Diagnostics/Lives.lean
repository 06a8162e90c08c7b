import EdgeSentinel.Proofs.Diagnostics.LiveView

/-!
# `EdgeSentinel.Proofs.Diagnostics.Lives`: the incidents of several processes

The timeline of a device outlives its processes, and an incident tracker does not. When a process
dies during an incident, its tracker has an open incident, and the tracker of the next process knows
nothing of it. `edgesentinel incidents` replays the whole timeline.

`incidents_of_lives` says what it shows: what the trackers showed at the end of each process, one
after the other. An incident that was open when its process died goes on through the events of the
next processes, up to the first change of state that they have recorded. That is the INITIALIZING of
a boot (`Boots`), so the incident ends there, and what the trackers of the next processes show is
left alone.
-/

set_option autoImplicit false

namespace EdgeSentinel.Proofs.Diagnostics

open EdgeSentinel.Core
open EdgeSentinel.Diagnostics

variable {τ : Type}

/-! ### What outlives a process -/

/-- The first change that the process has recorded, if there is one, is not into an unhealthy state.
It is the change of `boot` into INITIALIZING. -/
def Boots (events : List (Event τ)) : Prop :=
  ∀ e ∈ events.find? (fun e => e.type = "state_change"), closes e = true

instance (events : List (Event τ)) : Decidable (Boots events) :=
  inferInstanceAs (Decidable (∀ e ∈ events.find? (fun e => e.type = "state_change"),
    closes e = true))

/-- What a tracker with the history `h` shows after the events: its closed incidents, and the open
one. -/
def view (h : Nat) (hpos : 1 ≤ h) (events : List (Event τ)) : List (Incident τ) :=
  (track h hpos events).incidents ++ (track h hpos events).openIncident.toList

/-- An incident with the events that were recorded after its process had died. -/
def outlived (later : List (Event τ)) (x : Incident τ) : Incident τ :=
  if x.isOpen then
    { x with
      endedAt := (later.find? closes).map (·.timestamp)
      events := x.events ++ through closes later }
  else x

/-- The incidents that the processes have shown, one process after the other. -/
def told (shown : List (Event τ) → List (Incident τ)) : List (List (Event τ)) → List (Incident τ)
  | [] => []
  | events :: later => (shown events).map (outlived later.flatten) ++ told shown later

/-! ### The builder -/

/-- The closed incidents are not read. -/
theorem foldl_advance_eq (es : List (Event τ)) :
    ∀ b : IncidentBuilder τ, es.foldl advance b
      = ⟨b.closed ++ (es.foldl advance ⟨[], b.opened⟩).closed,
          (es.foldl advance ⟨[], b.opened⟩).opened⟩ := by
  induction es with
  | nil => exact fun b => by simp
  | cons e es ih =>
    intro b
    rw [List.foldl_cons, List.foldl_cons, ih (advance b e), ih (advance ⟨[], b.opened⟩ e),
      advance_eq b e]
    simp only [List.append_assoc]

theorem result_foldl_advance (b : IncidentBuilder τ) (es : List (Event τ)) :
    (es.foldl advance b).result = b.closed ++ (es.foldl advance ⟨[], b.opened⟩).result := by
  rw [foldl_advance_eq es b]
  simp only [IncidentBuilder.result, IncidentBuilder.openIncident, List.append_assoc]

/-- An event that opens no incident leaves a new builder. -/
theorem advance_empty {e : Event τ} (h : unhealthyState? e = none) :
    advance ({} : IncidentBuilder τ) e = {} := by
  simp only [advance, h]

/-- An open incident goes through the events up to the first change, and the later incidents are
those of the events alone. -/
theorem result_foldl_opened (es : List (Event τ)) :
    ∀ o : OpenIncident τ, Boots es →
      (es.foldl advance ⟨[], some o⟩).result
        = outlived es o.freeze :: (es.foldl advance {}).result := by
  induction es with
  | nil =>
    intro o _
    simp [IncidentBuilder.result, IncidentBuilder.openIncident, outlived, through,
      OpenIncident.freeze, Incident.isOpen]
  | cons e es ih =>
    intro o hboots
    by_cases hchange : e.type = "state_change"
    · -- The change ends the incident.
      have hcloses : closes e = true := hboots e (by simp [hchange])
      have hnone : unhealthyState? e = none := by simpa [closes, hchange] using hcloses
      rw [List.foldl_cons, List.foldl_cons, advance_empty hnone]
      simp only [advance, hcloses, if_true, List.nil_append]
      rw [result_foldl_advance]
      simp [outlived, through, OpenIncident.freeze, Incident.isOpen, hcloses]
    · have hnone : unhealthyState? e = none := by simp [unhealthyState?, hchange]
      have hkeeps : closes e = false := by simp [closes, hchange]
      have hboots' : Boots es := by simpa [Boots, hchange] using hboots
      rw [List.foldl_cons, List.foldl_cons, advance_empty hnone]
      simp only [advance, hkeeps, hnone, Bool.false_eq_true, if_false, Option.toList_none,
        List.append_nil]
      rw [ih _ hboots']
      simp [outlived, through, OpenIncident.freeze, Incident.isOpen, hkeeps]

/-- An incident that is closed is left alone. -/
theorem outlived_of_closed {x : Incident τ} (h : x.endedAt ≠ none) (later : List (Event τ)) :
    outlived later x = x := by
  rw [outlived, if_neg]
  simpa [Incident.isOpen] using h

/-- Two parts of the timeline, the second of which begins with a boot. -/
theorem result_append (es later : List (Event τ)) (hboots : Boots later) :
    ((es ++ later).foldl advance {}).result
      = (es.foldl advance {}).result.map (outlived later) ++ (later.foldl advance {}).result := by
  obtain ⟨past, hsegmented⟩ := exists_segmented es
  have hclosed : (es.foldl advance {}).closed.map (outlived later)
      = (es.foldl advance {}).closed := by
    refine (List.map_congr_left fun x hx => ?_).trans (List.map_id _)
    exact outlived_of_closed (hsegmented.endedAt_closed x hx) later
  have hresult : (es.foldl advance {}).result.map (outlived later)
      = (es.foldl advance {}).closed
        ++ (es.foldl advance {}).openIncident.toList.map (outlived later) := by
    rw [IncidentBuilder.result, List.map_append, hclosed]
  rw [List.foldl_append, result_foldl_advance, hresult, List.append_assoc,
    IncidentBuilder.openIncident]
  congr 1
  cases (es.foldl advance {}).opened with
  | none => rfl
  | some o => exact result_foldl_opened later o hboots

/-- The processes one after the other begin with a boot, when each of them does. -/
theorem boots_flatten {lives : List (List (Event τ))} (h : ∀ es ∈ lives, Boots es) :
    Boots lives.flatten := by
  induction lives with
  | nil => exact fun e he => by simp at he
  | cons es lives ih =>
    obtain ⟨hfirst, hrest⟩ := List.forall_mem_cons.mp h
    intro e he
    rw [List.flatten_cons, List.find?_append, Option.mem_def, Option.or_eq_some_iff] at he
    rcases he with he | ⟨-, he⟩
    · exact hfirst e he
    · exact ih hrest e he

/-- The replay of all processes. -/
theorem result_flatten {lives : List (List (Event τ))} (h : ∀ es ∈ lives, Boots es) :
    (lives.flatten.foldl advance {}).result
      = told (fun es => (es.foldl advance {}).result) lives := by
  induction lives with
  | nil => rfl
  | cons es lives ih =>
    obtain ⟨-, hrest⟩ := List.forall_mem_cons.mp h
    rw [List.flatten_cons, result_append es _ (boots_flatten hrest), ih hrest]
    rfl

/-! ### The trackers -/

/-- A tracker whose history is long enough shows what a replay of its process would. -/
theorem view_eq (h : Nat) (hpos : 1 ≤ h) {events : List (Event τ)} (hvalid : ValidStates events)
    (hhistory : (starts events).length ≤ h) :
    view h hpos events = (events.foldl advance {}).result := by
  have hlength : (events.foldl advance {}).closed.length ≤ h := by
    obtain ⟨past, hsegmented⟩ := exists_segmented events
    have hspans := hsegmented.result.1.length_eq
    rw [IncidentBuilder.result, List.length_append] at hspans
    omega
  have hkept : (events.foldl advance {}).closed.rtake h = (events.foldl advance {}).closed := by
    rw [List.rtake_eq_reverse_take_reverse, List.take_of_length_le (by simpa using hlength),
      List.reverse_reverse]
  rw [view, builder_track h hpos events hvalid]
  show (events.foldl advance {}).closed.rtake h ++ (events.foldl advance {}).openIncident.toList = _
  rw [hkept]
  rfl

/-- What the trackers show is told alike. -/
theorem told_congr {shown shown' : List (Event τ) → List (Incident τ)}
    {lives : List (List (Event τ))} (h : ∀ es ∈ lives, shown es = shown' es) :
    told shown lives = told shown' lives := by
  induction lives with
  | nil => rfl
  | cons es lives ih =>
    obtain ⟨hfirst, hrest⟩ := List.forall_mem_cons.mp h
    rw [told, told, hfirst, ih hrest]

variable [LE τ] [DecidableLE τ]

/-- What `edgesentinel incidents` shows of a device, after any number of processes: the incidents
that the trackers of the processes have shown, one process after the other, where an incident that
was open at the death of its process has ended at the next boot. Each process has begun with its
boot, no tracker has forgotten an incident, and the timeline is not longer than the replay. -/
theorem incidents_of_lives (h : Nat) (hpos : 1 ≤ h) (lives : List (List (Event τ)))
    (hvalid : ∀ es ∈ lives, ValidStates es) (hboots : ∀ es ∈ lives, Boots es)
    (hhistory : ∀ es ∈ lives, (starts es).length ≤ h)
    (hshort : lives.flatten.length ≤ 5000) :
    cmdIncidents (EventLog.record lives.flatten) = .ok (told (view h hpos) lives) := by
  have hvalid' : ValidStates lives.flatten := by
    intro e he
    obtain ⟨es, hes, he⟩ := List.mem_flatten.mp he
    exact hvalid es hes e he
  have hviews : told (view h hpos) lives = told (fun es => (es.foldl advance {}).result) lives :=
    told_congr fun es hes => view_eq h hpos (hvalid es hes) (hhistory es hes)
  rw [cmdIncidents_record, List.take_of_length_le hshort, buildIncidents_eq hvalid',
    result_flatten hboots, hviews]

/-- A process that dies during an outage, and the next one. -/
def diedOffline : List (List (Event Nat)) :=
  [[changed .booting .initializing 1, changed .initializing .healthy 2,
      changed .healthy .offline 3],
    [changed .booting .initializing 5, noted, changed .initializing .healthy 6]]

/-- The first tracker shows an ongoing outage, and the command shows that it ended at the boot. -/
theorem incidents_of_lives_diedOffline :
    cmdIncidents (EventLog.record diedOffline.flatten)
        = .ok (told (view 1 Nat.one_pos) diedOffline) ∧
      (diedOffline.flatMap (view 1 Nat.one_pos)).map (·.endedAt) = [none] ∧
      (told (view 1 Nat.one_pos) diedOffline).map (·.endedAt) = [some 5] := by
  refine ⟨incidents_of_lives 1 Nat.one_pos diedOffline ?_ (by decide) (by decide) (by decide),
    by decide, by decide⟩
  intro es hes e he htype
  simp only [diedOffline, List.mem_cons, List.not_mem_nil, or_false] at hes
  rcases hes with rfl | rfl
  · simp only [List.mem_cons, List.not_mem_nil, or_false] at he
    rcases he with rfl | rfl | rfl
    all_goals exact ⟨_, Event.stateAt_stateChange_current _ _ _ _⟩
  · simp only [List.mem_cons, List.not_mem_nil, or_false] at he
    rcases he with rfl | rfl | rfl
    · exact ⟨_, Event.stateAt_stateChange_current _ _ _ _⟩
    · exact absurd htype (by decide)
    · exact ⟨_, Event.stateAt_stateChange_current _ _ _ _⟩

end EdgeSentinel.Proofs.Diagnostics
