import EdgeSentinel.Process.Rounds
import EdgeSentinel.Proofs.Process.Vigilance

/-!
# `EdgeSentinel.Proofs.Process.Alternation`: the events are the transitions that checks see

`Checking` is the invariant of a check that runs alone. It has the targets that the check has
come to. Their flags say whether they are overdue, the flags of the others are as they were,
and the events are the transitions of the former (`Told`). At the end these are all targets
(`does_checkOnce`).

`Agrees` ties the watchdog to the history of its calls: the registered names stand in the order
of their registration, and each record is what the history tells of the name. The flag of a
target is set exactly when the last event about it says that it is stale. So a check publishes
an event exactly where the history asks for one (`Agrees.reports`), and the events about one
registration alternate (`alternate_snoc`).
-/

set_option autoImplicit false

namespace EdgeSentinel.Proofs.Process

open EdgeSentinel.Core
open EdgeSentinel.Process
open EdgeSentinel.Process.Watchdog
open Slots (Cursor)

variable {τ : Type}

/-! ### What a check says about its targets -/

/-- The transition that a check at `now` sees. -/
def seenNotice (now : ℚ) (x : Watch) : Option Notice :=
  if x.isOverdue now && !x.stale then some .stale
  else if !x.isOverdue now && x.stale then some .recovered
  else none

/-- The target after a check at `now` has come to it. -/
def refreshed (now : ℚ) (x : Watch) : Watch := { x with stale := x.isOverdue now }

/-- The target when a check at `now` has come to the targets `seen`. -/
def marked (now : ℚ) (seen : List Watch) (x : Watch) : Watch :=
  if x.name ∈ seen.map (·.name) then refreshed now x else x

@[simp] theorem marked_name (now : ℚ) (seen : List Watch) (x : Watch) :
    (marked now seen x).name = x.name := by
  unfold marked
  split <;> rfl

/-- No transition is seen when the flag is right. -/
theorem refreshed_eq_self {now : ℚ} {x : Watch} (h : seenNotice now x = none) :
    refreshed now x = x := by
  obtain ⟨name, timeout, lastSeen, stale⟩ := x
  simp only [refreshed, Watch.mk.injEq, true_and]
  revert h
  unfold seenNotice
  cases Watch.isOverdue ⟨name, timeout, lastSeen, stale⟩ now <;> cases stale <;> simp

theorem seenNotice_eq_stale {now : ℚ} {x : Watch} :
    seenNotice now x = some .stale ↔ x.isOverdue now = true ∧ x.stale = false := by
  unfold seenNotice
  cases x.isOverdue now <;> cases x.stale <;> simp

theorem seenNotice_eq_recovered {now : ℚ} {x : Watch} :
    seenNotice now x = some .recovered ↔ x.isOverdue now = false ∧ x.stale = true := by
  unfold seenNotice
  cases x.isOverdue now <;> cases x.stale <;> simp

@[simp] theorem notice?_staleEvent (cfg : WatchdogSettings) (x : Watch) (stamp : τ)
    (name : String) :
    notice? name (staleEvent cfg x stamp) = if x.name = name then some .stale else none := by
  simp [notice?, staleEvent]

@[simp] theorem notice?_recoveredEvent (cfg : WatchdogSettings) (x : Watch) (stamp : τ)
    (name : String) :
    notice? name (recoveredEvent cfg x stamp)
      = if x.name = name then some .recovered else none := by
  simp [notice?, recoveredEvent]

@[simp] theorem notices_append (name : String) (events events' : List (Event τ)) :
    notices name (events ++ events') = notices name events ++ notices name events' :=
  List.filterMap_append

/-- The events are the transitions of the targets `seen`. -/
structure Told (now : ℚ) (seen : List Watch) (events : List (Event τ)) : Prop where
  notices : ∀ name,
    notices name events = (seen.filter (·.name = name)).filterMap (seenNotice now)
  about : ∀ e ∈ events, ∃ name, notice? name e ≠ none

namespace Told

variable {now : ℚ} {seen : List Watch} {events : List (Event τ)} {x : Watch}

theorem nil : Told now [] ([] : List (Event τ)) := ⟨fun _ => rfl, by simp⟩

/-- The check has come to a target without a transition. -/
theorem pass (h : Told now seen events) (hx : seenNotice now x = none) :
    Told now (seen ++ [x]) events where
  notices name := by
    rw [h.notices, List.filter_append, List.filterMap_append, List.filter_singleton]
    cases decide (x.name = name) <;> simp [hx]
  about := h.about

/-- The check has published the transition of a target. -/
theorem publish (h : Told now seen events) {k : Notice} (hx : seenNotice now x = some k)
    {e : Event τ} (he : ∀ name, notice? name e = if x.name = name then some k else none) :
    Told now (seen ++ [x]) (events ++ [e]) where
  notices name := by
    rw [notices_append, h.notices, List.filter_append, List.filterMap_append,
      List.filter_singleton]
    refine congrArg _ ?_
    by_cases hname : x.name = name <;> simp [EdgeSentinel.Process.notices, he, hname, hx]
  about e' he' := by
    rcases List.mem_append.mp he' with hold | hnew
    · exact h.about e' hold
    · rw [List.mem_singleton.mp hnew]
      exact ⟨x.name, by simp [he]⟩

end Told

/-! ### A check alone -/

/-- The check `c`, which began in `w₀`, has come to the targets `seen` and has published
`events`. -/
structure Checking (w₀ w : Watchdog τ) (c : Check) (seen : List Watch)
    (events : List (Event τ)) : Prop where
  checks : w.checks = w₀.checks ++ [c]
  new : c.id ∉ w₀.checks.map (·.id)
  watches : w.watches = Slots.adjust (marked c.now seen) w₀.watches
  published : w.published = w₀.published ++ events
  told : Told c.now seen events
  stale : c.newlyStale = (seen.filter fun x => seenNotice c.now x = some .stale).map (·.name)
  inLoop : c.leftAt = none → c.point ∈ [.iterating, .publishing] ∧
    c.cursor.Tracks w₀.watches ∧ Slots.live w₀.watches = seen ++ c.cursor.rest w₀.watches
  left : c.leftAt ≠ none → c.point ∈ [.escalating, .returned] ∧ seen = Slots.live w₀.watches

/-- The check `id` has raised. It takes no more steps. -/
def Failed (id : Nat) (w : Watchdog τ) : Prop := ∀ c ∈ w.checks, c.id = id → c.point = .failed

/-- A check that has raised takes no step. -/
theorem Failed.step {cfg : WatchdogSettings} {id : Nat} {w w' : Watchdog τ} (h : Failed id w)
    {e : WatchdogStep τ} (hown : OwnStep id e) (hstep : step cfg w e = some w') : Failed id w' := by
  obtain ⟨hen, rfl⟩ := Run.guarded_eq_some.mp hstep
  cases e with
  | turn id' stamp audience =>
    obtain ⟨c, hc, hid, hpoint⟩ := hen
    rw [h c hc (hid.trans hown)] at hpoint
    cases hpoint
  | resume id' =>
    obtain ⟨-, c, hc, hid, hpoint⟩ := hen
    rw [h c hc (hid.trans hown)] at hpoint
    exact absurd hpoint (by decide)
  | moved current => exact h
  | register name timeout now compacts => exact hown.elim
  | unregister name => exact hown.elim
  | heartbeat name now => exact hown.elim
  | check id now => exact hown.elim

theorem Failed.exec {cfg : WatchdogSettings} {id : Nat} :
    ∀ (es : List (WatchdogStep τ)) {w w' : Watchdog τ}, Failed id w → (∀ e ∈ es, OwnStep id e) →
      Run.exec (Watchdog.step cfg) w es = some w' → Failed id w' := by
  intro es
  induction es with
  | nil =>
    intro w w' h _ hrun
    cases hrun
    exact h
  | cons e es ih =>
    intro w w' h hown hrun
    obtain ⟨w₁, hstep, hrest⟩ := Run.exec_cons_eq_some hrun
    exact ih (h.step (hown e List.mem_cons_self) hstep)
      (fun e' he' => hown e' (List.mem_cons_of_mem e he')) hrest

namespace Checking

variable {cfg : WatchdogSettings} {w₀ w : Watchdog τ} {c : Check} {seen : List Watch}
  {events : List (Event τ)}

theorem mem (h : Checking w₀ w c seen events) : c ∈ w.checks := by
  rw [h.checks]
  exact List.mem_append_right _ List.mem_cons_self

theorem ids (h : Checking w₀ w c seen events) (hids : (w₀.checks.map (·.id)).Nodup) :
    (w.checks.map (·.id)).Nodup := by
  rw [h.checks]
  exact Keyed.nodup_append hids h.new

/-- The check is found by its id. -/
theorem eq_of_id (h : Checking w₀ w c seen events) (hids : (w₀.checks.map (·.id)).Nodup)
    {c' : Check} (hc' : c' ∈ w.checks) (hid : c'.id = c.id) : c' = c :=
  Keyed.eq_of_key_eq (h.ids hids) hc' h.mem hid

/-- The check goes on as `c'`. -/
theorem checks_put (h : Checking w₀ w c seen events) {v : Watchdog τ} (hv : v.checks = w.checks)
    {c' : Check} (hid : c'.id = c.id) : (v.put c').checks = w₀.checks ++ [c'] := by
  show Keyed.replace (·.id) c'.id c' v.checks = _
  rw [hv, h.checks, hid]
  exact Keyed.replace_append_singleton h.new

/-- A check begins. -/
theorem start (w₀ : Watchdog τ) {id : Nat} (hid : id ∉ w₀.checks.map (·.id)) (now : ℚ) :
    Checking w₀ (w₀.check id now)
      { id := id, now := now, cursor := .new w₀.watches, due := w₀.due now } [] [] where
  checks := rfl
  new := hid
  watches := by
    have hsame : marked now [] = fun x => x := rfl
    rw [hsame, ← Function.id_def, Slots.adjust_id]
    rfl
  published := (List.append_nil _).symm
  told := .nil
  stale := rfl
  inLoop _ := ⟨by simp, Cursor.tracks_new _, rfl⟩
  left h := absurd rfl h

/-- The record that the iterator finds is as it was when the check began. -/
theorem record (h : Checking w₀ w c seen events) (hnames : w₀.names.Nodup)
    (hleft : c.leftAt = none) {x : Watch} (hx : w.watches[c.cursor.pos]? = some (some x)) :
    w₀.watches[c.cursor.pos]? = some (some x) ∧ x.name ∉ seen.map (·.name) := by
  rw [h.watches, Slots.getElem?_adjust] at hx
  obtain ⟨slot, hslot, hmap⟩ := Option.map_eq_some_iff.mp hx
  obtain ⟨x₀, rfl, rfl⟩ := Option.map_eq_some_iff.mp hmap
  -- The targets that the loop has still to come to have other names than those it has seen.
  have hfresh : x₀.name ∉ seen.map (·.name) := by
    have hsplit := (h.inLoop hleft).2.2
    rw [Cursor.rest_of_record hslot] at hsplit
    rw [Watchdog.names, hsplit, List.map_append, List.map_cons] at hnames
    intro hmem
    exact (List.disjoint_of_nodup_append hnames) hmem List.mem_cons_self
  rw [marked_name]
  refine ⟨?_, hfresh⟩
  rw [hslot, marked, if_neg hfresh]

/-- The targets when the check has come to one more, which it changes by `f`. -/
theorem adjust_marked (h : Checking w₀ w c seen events) (hnames : w₀.names.Nodup) {x : Watch}
    (hmem : x ∈ Slots.live w₀.watches) (hfresh : x.name ∉ seen.map (·.name))
    {f : Watch → Watch} (hf : f x = refreshed c.now x) :
    Slots.adjust (fun y => if y.name = x.name then f y else y) w.watches
      = Slots.adjust (marked c.now (seen ++ [x])) w₀.watches := by
  rw [h.watches, Slots.adjust_adjust]
  refine Slots.adjust_congr fun y hy => ?_
  rw [marked_name]
  -- Names are distinct, so this is the only record that changes.
  by_cases hyx : y.name = x.name
  · obtain rfl : y = x := Keyed.eq_of_key_eq hnames hy hmem hyx
    rw [if_pos rfl, marked, if_neg hfresh, hf]
    simp [marked]
  · rw [if_neg hyx]
    simp [marked, hyx]

/-- The loop has come to the target `x`, and the check goes on as `c'`. -/
theorem visited (h : Checking w₀ w c seen events) {x : Watch} (hleft : c.leftAt = none)
    (hx : w₀.watches[c.cursor.pos]? = some (some x)) {w' : Watchdog τ} {c' : Check}
    (new : List (Event τ)) (hchecks : w'.checks = w₀.checks ++ [c']) (hid : c'.id = c.id)
    (hnow : c'.now = c.now) (hcursor : c'.cursor = c.cursor.yielded)
    (hpoint : c'.point ∈ [.iterating, .publishing]) (hleft' : c'.leftAt = none)
    (hwatches : w'.watches = Slots.adjust (marked c.now (seen ++ [x])) w₀.watches)
    (hpublished : w'.published = w.published ++ new)
    (htold : Told c.now (seen ++ [x]) (events ++ new))
    (hstale : c'.newlyStale
      = c.newlyStale ++ if seenNotice c.now x = some .stale then [x.name] else []) :
    Checking w₀ w' c' (seen ++ [x]) (events ++ new) where
  checks := hchecks
  new := hid ▸ h.new
  watches := by rw [hwatches, hnow]
  published := by rw [hpublished, h.published, List.append_assoc]
  told := hnow ▸ htold
  stale := by
    rw [hstale, h.stale, hnow, List.filter_append, List.map_append, List.filter_singleton]
    by_cases hx : seenNotice c.now x = some .stale <;> simp [hx]
  inLoop _ := by
    obtain ⟨-, htracks, hsplit⟩ := h.inLoop hleft
    rw [hcursor]
    refine ⟨hpoint, htracks.yielded hx, ?_⟩
    rw [hsplit, Cursor.rest_of_record hx, List.append_assoc]
    rfl
  left hnot := absurd hleft' hnot

/-- The check raises. -/
theorem fails (h : Checking w₀ w c seen events) {v : Watchdog τ} (hv : v.checks = w.checks)
    {c' : Check} (hid : c'.id = c.id) : Failed c.id (v.fail c') := by
  intro x hx hxid
  have hchecks : (v.fail c').checks
      = w₀.checks ++ [{ c' with point := .failed, leftAt := some v.current }] := h.checks_put hv hid
  rw [hchecks] at hx
  rcases List.mem_append.mp hx with hx | hx
  · exact absurd (List.mem_map.mpr ⟨x, hx, hxid⟩) h.new
  · rw [List.mem_singleton.mp hx]

/-- The check has come to the target `x`, and publishes its transition. -/
theorem publish (h : Checking w₀ w c seen events) (hevents : cfg.hasEvents = true)
    (hnames : w₀.names.Nodup) (hleft : c.leftAt = none) {x : Watch}
    (hx : w.watches[c.cursor.pos]? = some (some x)) {k : Notice}
    (hk : seenNotice c.now x = some k) {f : Watch → Watch} (hf : f x = refreshed c.now x)
    {e : Event τ} (he : ∀ name, notice? name e = if x.name = name then some k else none)
    {stale : List String} (hstale : stale
      = c.newlyStale ++ if seenNotice c.now x = some .stale then [x.name] else [])
    (audience : Audience String) :
    Checking w₀
      (publish cfg (w.adjust x.name f)
        { c with cursor := c.cursor.yielded, newlyStale := stale } e audience)
      { c with cursor := c.cursor.yielded, newlyStale := stale, point := .publishing }
      (seen ++ [x]) (events ++ [e]) ∨
    Failed c.id (publish cfg (w.adjust x.name f)
      { c with cursor := c.cursor.yielded, newlyStale := stale } e audience) := by
  obtain ⟨hx₀, hfresh⟩ := h.record hnames hleft hx
  have hmem : x ∈ Slots.live w₀.watches := Slots.mem_live.mpr (List.mem_of_getElem? hx₀)
  rw [Watchdog.publish, if_pos hevents]
  split
  · exact Or.inr (h.fails (v := w.adjust x.name f) rfl rfl)
  · refine Or.inl (h.visited hleft hx₀ [e] ?_ rfl rfl rfl (by simp) hleft ?_ rfl ?_ hstale)
    · exact h.checks_put (v := w.adjust x.name f) rfl rfl
    · exact h.adjust_marked hnames hmem hfresh hf
    · exact h.told.publish hk he

theorem visit (h : Checking w₀ w c seen events) (hevents : cfg.hasEvents = true)
    (hnames : w₀.names.Nodup) (hleft : c.leftAt = none) (hpoint : c.point = .iterating)
    {x : Watch} (hx : w.watches[c.cursor.pos]? = some (some x)) (stamp : τ)
    (audience : Audience String) :
    (∃ c' events', Checking w₀
      (visit cfg w { c with cursor := c.cursor.yielded } x stamp audience) c'
      (seen ++ [x]) events' ∧ c'.id = c.id ∧ c'.now = c.now) ∨
    Failed c.id (visit cfg w { c with cursor := c.cursor.yielded } x stamp audience) := by
  unfold Watchdog.visit
  split
  · -- The target has gone stale.
    rename_i hstale
    have hstale' : x.isOverdue c.now = true ∧ x.stale = false := by simpa using hstale
    have hk := seenNotice_eq_stale.mpr hstale'
    refine (h.publish hevents hnames hleft hx hk ?_ ?_ ?_ audience).imp_left ?_
    · rw [refreshed, hstale'.1]
    · exact notice?_staleEvent cfg x stamp
    · rw [if_pos hk]
    · intro hnext
      exact ⟨_, _, hnext, rfl, rfl⟩
  · rename_i hnot
    split
    · -- The target has recovered.
      rename_i hrecovered
      have hrecovered' : x.isOverdue c.now = false ∧ x.stale = true := by
        simpa using hrecovered
      have hk := seenNotice_eq_recovered.mpr hrecovered'
      refine (h.publish hevents hnames hleft hx hk ?_ ?_ ?_ audience).imp_left ?_
      · rw [refreshed, hrecovered'.1]
      · exact notice?_recoveredEvent cfg x stamp
      · rw [hk, if_neg (by decide), List.append_nil]
      · intro hnext
        exact ⟨_, _, hnext, rfl, rfl⟩
    · rename_i hnot'
      -- Its flag agrees with the clock, and the check passes it by.
      have hk : seenNotice c.now x = none := by
        rw [seenNotice, if_neg hnot, if_neg hnot']
      obtain ⟨hx₀, hfresh⟩ := h.record hnames hleft hx
      have hmem : x ∈ Slots.live w₀.watches := Slots.mem_live.mpr (List.mem_of_getElem? hx₀)
      have hsame := h.adjust_marked hnames hmem hfresh (f := id) (refreshed_eq_self hk).symm
      simp only [id_eq, ite_self] at hsame
      rw [← Function.id_def, Slots.adjust_id] at hsame
      refine Or.inl ⟨_, _, h.visited hleft hx₀ [] (h.checks_put rfl rfl) rfl rfl rfl ?_ hleft
        ?_ (List.append_nil _).symm ?_ ?_, rfl, rfl⟩
      · rw [hpoint]
        simp
      · rw [← hsame]
        rfl
      · rw [List.append_nil]
        exact h.told.pass hk
      · rw [hk, if_neg (by decide), List.append_nil]

/-- The loop is over, and the check goes on as `c'`. -/
theorem leave (h : Checking w₀ w c seen events) (hleft : c.leftAt = none)
    (hend : w₀.watches[c.cursor.pos]? = none) {w' : Watchdog τ} {c' : Check}
    (hchecks : w'.checks = w₀.checks ++ [c']) (hid : c'.id = c.id) (hnow : c'.now = c.now)
    (hpoint : c'.point ∈ [.escalating, .returned]) (hleft' : c'.leftAt ≠ none)
    (hstale : c'.newlyStale = c.newlyStale) (hwatches : w'.watches = w.watches)
    (hpublished : w'.published = w.published) : Checking w₀ w' c' seen events where
  checks := hchecks
  new := hid ▸ h.new
  watches := by rw [hwatches, h.watches, hnow]
  published := hpublished ▸ h.published
  told := hnow ▸ h.told
  stale := by rw [hstale, h.stale, hnow]
  inLoop hnone := absurd hnone hleft'
  left _ := by
    have hsplit := (h.inLoop hleft).2.2
    rw [Cursor.rest_of_exhausted hend, List.append_nil] at hsplit
    exact ⟨hpoint, hsplit.symm⟩

/-- A turn of the loop. -/
theorem turn (h : Checking w₀ w c seen events) (hevents : cfg.hasEvents = true)
    (hnames : w₀.names.Nodup) (hpoint : c.point = .iterating) (stamp : τ)
    (audience : Audience String) :
    (∃ c' seen' events', Checking w₀ (turn cfg w c stamp audience) c' seen' events' ∧
      c'.id = c.id ∧ c'.now = c.now) ∨ Failed c.id (turn cfg w c stamp audience) := by
  -- A check that iterates is in its loop.
  have hleft : c.leftAt = none := by
    by_contra hnot
    have hother := (h.left hnot).1
    rw [hpoint] at hother
    exact absurd hother (by decide)
  obtain ⟨-, htracks, hsplit⟩ := h.inLoop hleft
  -- The check has changed flags, but no places.
  have htracks' : c.cursor.Tracks w.watches := by
    rw [h.watches]
    exact htracks.adjust _
  unfold Watchdog.turn
  rcases htracks'.find_cases with ⟨hfind, hend⟩ | ⟨hfind, hgap⟩ | ⟨x, hfind, hx⟩
  · refine Or.inl ?_
    rw [hfind]
    rw [h.watches, Slots.getElem?_adjust, Option.map_eq_none_iff] at hend
    show ∃ c' seen' events', Checking w₀ (leaveLoop cfg w c) c' seen' events' ∧ _
    unfold Watchdog.leaveLoop
    dsimp only
    split
    · exact ⟨_, seen, events, h.leave hleft hend (h.checks_put rfl rfl) rfl rfl (by simp)
        (by simp) rfl rfl rfl, rfl, rfl⟩
    · exact ⟨_, seen, events, h.leave hleft hend (h.checks_put rfl rfl) rfl rfl (by simp)
        (by simp) rfl rfl rfl, rfl, rfl⟩
  · rw [hfind]
    rw [h.watches, Slots.getElem?_adjust] at hgap
    have hgap' : w₀.watches[c.cursor.pos]? = some none := by simpa using hgap
    refine Or.inl ⟨_, seen, events, ⟨h.checks_put rfl rfl, h.new, h.watches, h.published, h.told,
      h.stale, fun _ => ⟨?_, htracks.skip hgap', ?_⟩, h.left⟩, rfl, rfl⟩
    · rw [hpoint]
      simp
    · rw [hsplit, ← Cursor.rest_of_gap hgap']
  · rw [hfind]
    exact (h.visit hevents hnames hleft hpoint hx stamp audience).imp_left
      fun ⟨c', events', hnext, hsame⟩ => ⟨c', _, events', hnext, hsame⟩

/-- The await of the check is over. -/
theorem resume (h : Checking w₀ w c seen events) (hpoint : c.point ∈ [.publishing, .escalating]) :
    ∃ c', Checking w₀ (w.resume c) c' seen events ∧ c'.id = c.id ∧ c'.now = c.now := by
  unfold Watchdog.resume
  split
  · rename_i hpublishing
    refine ⟨_, ⟨h.checks_put rfl rfl, h.new, h.watches, h.published, h.told, h.stale, ?_, ?_⟩,
      rfl, rfl⟩
    · intro hleft
      exact ⟨by simp, (h.inLoop hleft).2⟩
    · intro hleft
      have hother := (h.left hleft).1
      rw [hpublishing] at hother
      exact absurd hother (by decide)
  · rename_i hnot
    refine ⟨_, ⟨h.checks_put rfl rfl, h.new, h.watches, h.published, h.told, h.stale, ?_, ?_⟩,
      rfl, rfl⟩
    · intro hleft
      have hother := (h.inLoop hleft).1
      simp only [List.mem_cons, List.not_mem_nil, or_false] at hpoint hother
      rcases hpoint with hpublishing | hescalating
      · exact absurd hpublishing hnot
      · rw [hescalating] at hother
        exact absurd hother (by decide)
    · intro hleft
      exact ⟨by simp, (h.left hleft).2⟩

/-- A step of the check. An event that is published may end it. -/
theorem step (h : Checking w₀ w c seen events) (hevents : cfg.hasEvents = true)
    (hnames : w₀.names.Nodup) (hids : (w₀.checks.map (·.id)).Nodup) {e : WatchdogStep τ}
    (hown : OwnStep c.id e) {w' : Watchdog τ} (hstep : step cfg w e = some w') :
    (∃ c' seen' events', Checking w₀ w' c' seen' events' ∧ c'.id = c.id ∧ c'.now = c.now) ∨
      Failed c.id w' := by
  obtain ⟨hen, rfl⟩ := Run.guarded_eq_some.mp hstep
  cases e with
  | turn id stamp audience =>
    obtain ⟨c', hc', hid, hpoint⟩ := hen
    obtain rfl : c' = c := h.eq_of_id hids hc' (hid.trans hown)
    rw [Watchdog.next, ← hid, Keyed.find?_of_mem (h.ids hids) hc']
    exact h.turn hevents hnames hpoint stamp audience
  | resume id =>
    obtain ⟨-, c', hc', hid, hpoint⟩ := hen
    obtain rfl : c' = c := h.eq_of_id hids hc' (hid.trans hown)
    rw [Watchdog.next, ← hid, Keyed.find?_of_mem (h.ids hids) hc']
    obtain ⟨c'', hnext⟩ := h.resume hpoint
    exact Or.inl ⟨c'', seen, events, hnext⟩
  | moved current =>
    exact Or.inl ⟨c, seen, events, ⟨h.checks, h.new, h.watches, h.published, h.told, h.stale, h.inLoop,
      h.left⟩, rfl, rfl⟩
  | register name timeout now compacts => exact hown.elim
  | unregister name => exact hown.elim
  | heartbeat name now => exact hown.elim
  | check id now => exact hown.elim

/-- The steps of the check, which has raised at the end or gone on. -/
theorem exec (hevents : cfg.hasEvents = true) (hnames : w₀.names.Nodup)
    (hids : (w₀.checks.map (·.id)).Nodup) :
    ∀ (es : List (WatchdogStep τ)) {w w' : Watchdog τ} {c : Check} {seen : List Watch}
      {events : List (Event τ)}, Checking w₀ w c seen events → (∀ e ∈ es, OwnStep c.id e) →
      Run.exec (Watchdog.step cfg) w es = some w' →
      (∃ c' seen' events', Checking w₀ w' c' seen' events' ∧ c'.id = c.id ∧ c'.now = c.now) ∨
        Failed c.id w' := by
  intro es
  induction es with
  | nil =>
    intro w w' c seen events h _ hrun
    cases hrun
    exact Or.inl ⟨c, seen, events, h, rfl, rfl⟩
  | cons e es ih =>
    intro w w' c seen events h hown hrun
    obtain ⟨w₁, hstep, hrest⟩ := Run.exec_cons_eq_some hrun
    have hlater : ∀ e' ∈ es, OwnStep c.id e' := fun e' he' => hown e' (List.mem_cons_of_mem e he')
    rcases h.step hevents hnames hids (hown e List.mem_cons_self) hstep with
      ⟨c₁, seen₁, events₁, h₁, hid, hnow⟩ | hfailed
    · rcases ih h₁ (hid.symm ▸ hlater) hrest with ⟨c', seen', events', h', hid', hnow'⟩ | hfailed
      · exact Or.inl ⟨c', seen', events', h', hid'.trans hid, hnow'.trans hnow⟩
      · exact Or.inr (hid ▸ hfailed)
    · exact Or.inr (hfailed.exec es hlater hrest)

end Checking

/-- What `check_once` has done when it returns. -/
theorem does_checkOnce {cfg : WatchdogSettings} {w w' : Watchdog τ} {d : Done τ} {now : ℚ}
    (hevents : cfg.hasEvents = true) (hnames : w.names.Nodup)
    (hids : (w.checks.map (·.id)).Nodup) (hcall : d.call = .checkOnce now)
    (h : Does cfg w d w') :
    (w'.checks.map (·.id)).Nodup ∧ w'.watches = Slots.adjust (refreshed now) w.watches ∧
      Told now (Slots.live w.watches) d.events ∧
      d.returned = ((Slots.live w.watches).filter fun x =>
        seenNotice now x = some .stale).map (·.name) := by
  obtain ⟨hruns, hpublished⟩ := h
  unfold Runs at hruns
  rw [hcall] at hruns
  obtain ⟨id, steps, hown, hrun, c', hc', hid', hpoint, hreturned⟩ := hruns
  obtain ⟨w₁, hcheck, hrest⟩ := Run.exec_cons_eq_some hrun
  obtain ⟨⟨-, hnew⟩, rfl⟩ := Run.guarded_eq_some.mp hcheck
  obtain ⟨c, seen, events, hend, hid, hnow⟩ :=
    (Checking.exec hevents hnames hids steps (Checking.start w hnew now) hown hrest).resolve_right
      fun hfailed => by
        rw [hfailed c' hc' hid'] at hpoint
        cases hpoint
  obtain rfl : c' = c := hend.eq_of_id hids hc' (hid'.trans hid.symm)
  -- The check has returned, so its loop is over and has seen every target.
  have hleft : c'.leftAt ≠ none := by
    intro hnone
    have hother := (hend.inLoop hnone).1
    rw [hpoint] at hother
    exact absurd hother (by decide)
  obtain rfl := (hend.left hleft).2
  obtain rfl : events = d.events :=
    List.append_cancel_left (hend.published.symm.trans hpublished)
  have hnow : c'.now = now := hnow
  refine ⟨hend.ids hids, ?_, hnow ▸ hend.told, ?_⟩
  · rw [hend.watches, hnow]
    refine Slots.adjust_congr fun x hx => ?_
    rw [marked, if_pos (List.mem_map_of_mem hx)]
  · rw [← hreturned, hend.stale, hnow]

/-! ### The history -/

/-- One more notice after notices that alternate. -/
theorem alternate_snoc {ks : List Notice} (h : Alternate ks) {k : Notice}
    (hk : k = .stale ↔ ks.getLast? ≠ some .stale) : Alternate (ks ++ [k]) := by
  constructor
  · intro k' hk'
    cases ks with
    | nil =>
      obtain rfl : k = k' := by simpa using hk'
      exact hk.mpr (by simp)
    | cons k₀ ks => exact h.1 k' (by simpa using hk')
  · refine h.2.append (List.isChain_singleton k) ?_
    intro k' hk' k'' hk''
    obtain rfl : k = k'' := by simpa using hk''
    -- A notice follows the other one: `stale` comes exactly when the last one is not `stale`.
    rintro rfl
    have hlast : ks.getLast? = some k' := hk'
    rw [hlast] at hk
    cases k' <;> simp at hk

section
variable {name : String} {r : Registration τ} {d : Done τ}

@[simp] theorem lastSeen_snoc :
    ({ r with since := r.since ++ [d] } : Registration τ).lastSeen name
      = (Registration.beat? name d).getD (r.lastSeen name) := by
  show (List.getLast? (List.filterMap _ (r.since ++ [d]))).getD r.registeredAt = _
  rw [List.filterMap_append]
  cases hbeat : Registration.beat? name d with
  | none => simp [hbeat, Registration.lastSeen]
  | some now => simp [hbeat]

@[simp] theorem notices_snoc :
    ({ r with since := r.since ++ [d] } : Registration τ).notices name
      = r.notices name ++ notices name d.events := by
  show notices name (List.flatMap _ (r.since ++ [d])) = _
  rw [List.flatMap_append, notices_append]
  simp [Registration.notices]

end

@[simp] theorem registration_snoc (name : String) (past : List (Done τ)) (d : Done τ) :
    registration name (past ++ [d]) = Registration.after name (registration name past) d := by
  rw [registration, List.foldl_append]
  rfl

@[simp] theorem registered_snoc (past : List (Done τ)) (d : Done τ) :
    registered (past ++ [d]) = registeredAfter (registered past) d := by
  rw [registered, List.foldl_append]
  rfl

/-- The record is what the registration tells of the target. -/
structure Describes (r : Registration τ) (x : Watch) : Prop where
  timeout : x.timeout = r.timeout
  lastSeen : x.lastSeen = r.lastSeen x.name
  stale : x.stale = true ↔ (r.notices x.name).getLast? = some .stale

/-- The watchdog is what the history of its calls tells. -/
structure Agrees (past : List (Done τ)) (w : Watchdog τ) : Prop where
  ids : (w.checks.map (·.id)).Nodup
  names : w.names = registered past
  nodup : w.names.Nodup
  isSome : ∀ name, (registration name past).isSome = true ↔ name ∈ w.names
  described : ∀ x ∈ Slots.live w.watches, ∀ r ∈ registration x.name past, Describes r x
  alternate : ∀ name, ∀ r ∈ registration name past, Alternate (r.notices name)

/-- A call that is not about the target leaves its description. -/
theorem Describes.snoc {r : Registration τ} {x : Watch} (h : Describes r x) {d : Done τ}
    (hbeat : Registration.beat? x.name d = none) (hevents : d.events = []) :
    Describes { r with since := r.since ++ [d] } x where
  timeout := h.timeout
  lastSeen := by rw [lastSeen_snoc, hbeat, h.lastSeen, Option.getD_none]
  stale := by rw [notices_snoc, hevents, h.stale, notices, List.filterMap_nil, List.append_nil]

/-- A new registration, before any other call. -/
theorem Describes.fresh (name : String) (timeout now : ℚ) :
    Describes ({ timeout := timeout, registeredAt := now } : Registration τ)
      { name := name, timeout := timeout, lastSeen := now } := by
  refine ⟨rfl, rfl, ?_⟩
  simp [Registration.notices, notices]

theorem alternate_nil : Alternate [] := ⟨by simp, List.isChain_nil⟩

namespace Agrees

variable {past : List (Done τ)} {w w' : Watchdog τ} {d : Done τ}

theorem new (current : RuntimeState) : Agrees [] (new (τ := τ) current) := by
  refine ⟨List.nodup_nil, rfl, List.nodup_nil, ?_, ?_, ?_⟩
  · intro name
    simp [registration, Watchdog.names, Watchdog.new, Slots.live]
  · intro x hx
    cases hx
  · intro name r hr
    cases hr

/-- A call that leaves the registrations. It changes the records by `f`. -/
theorem keep (h : Agrees past w) (hids : (w'.checks.map (·.id)).Nodup)
    (hafter : ∀ name (r : Option (Registration τ)),
      Registration.after name r d = r.map fun r => { r with since := r.since ++ [d] })
    (hregistered : registeredAfter (registered past) d = registered past)
    {f : Watch → Watch} (hwatches : w'.watches = Slots.adjust f w.watches)
    (hname : ∀ x, (f x).name = x.name) (htimeout : ∀ x, (f x).timeout = x.timeout)
    (hseen : ∀ x, (f x).lastSeen = (Registration.beat? x.name d).getD x.lastSeen)
    (hstale : ∀ x ∈ Slots.live w.watches, ∀ r ∈ registration x.name past,
      ((f x).stale = true ↔
        (r.notices x.name ++ notices x.name d.events).getLast? = some .stale))
    (halternate : ∀ name, ∀ r ∈ registration name past,
      Alternate (r.notices name ++ notices name d.events)) : Agrees (past ++ [d]) w' := by
  have hnames : w'.names = w.names := by
    rw [Watchdog.names, hwatches, Slots.live_adjust]
    exact Keyed.map_key_map hname _
  refine ⟨hids, ?_, hnames ▸ h.nodup, ?_, ?_, ?_⟩
  · rw [hnames, registered_snoc, hregistered, h.names]
  · intro name
    rw [registration_snoc, hafter, Option.isSome_map, hnames]
    exact h.isSome name
  · intro y hy r hr
    rw [hwatches, Slots.live_adjust] at hy
    obtain ⟨x, hx, rfl⟩ := List.mem_map.mp hy
    rw [registration_snoc, hafter, hname] at hr
    obtain ⟨r₀, hr₀, rfl⟩ := Option.map_eq_some_iff.mp hr
    have hx' := h.described x hx r₀ hr₀
    refine ⟨?_, ?_, ?_⟩
    · rw [htimeout, hx'.timeout]
    · rw [hseen, hname, lastSeen_snoc, hx'.lastSeen]
    · rw [hname, notices_snoc]
      exact hstale x hx r₀ hr₀
  · intro name r hr
    rw [registration_snoc, hafter] at hr
    obtain ⟨r₀, hr₀, rfl⟩ := Option.map_eq_some_iff.mp hr
    rw [notices_snoc]
    exact halternate name r₀ hr₀

/-- A call that publishes nothing and leaves the registrations. -/
theorem keep_silent (h : Agrees past w) (hids : (w'.checks.map (·.id)).Nodup)
    (hafter : ∀ name (r : Option (Registration τ)),
      Registration.after name r d = r.map fun r => { r with since := r.since ++ [d] })
    (hregistered : registeredAfter (registered past) d = registered past)
    {f : Watch → Watch} (hwatches : w'.watches = Slots.adjust f w.watches)
    (hname : ∀ x, (f x).name = x.name) (htimeout : ∀ x, (f x).timeout = x.timeout)
    (hseen : ∀ x, (f x).lastSeen = (Registration.beat? x.name d).getD x.lastSeen)
    (hstale : ∀ x, (f x).stale = x.stale) (hevents : d.events = []) :
    Agrees (past ++ [d]) w' := by
  have hnone : ∀ name, notices name d.events = [] := by
    intro name
    rw [hevents]
    rfl
  refine h.keep hids hafter hregistered hwatches hname htimeout hseen ?_ ?_
  · intro x hx r hr
    rw [hstale, hnone, List.append_nil]
    exact (h.described x hx r hr).stale
  · intro name r hr
    rw [hnone, List.append_nil]
    exact h.alternate name r hr

/-- A call about one target that publishes nothing. The registration of its name is `new` after
it, and the records of the other names stay. -/
theorem change (h : Agrees past w) (name : String) (new : Option (Registration τ))
    (hafter : ∀ name' (r : Option (Registration τ)), Registration.after name' r d
      = if name = name' then new else r.map fun r => { r with since := r.since ++ [d] })
    (hbeat : ∀ name', Registration.beat? name' d = none) (hevents : d.events = [])
    (hnew : ∀ r ∈ new, Alternate (r.notices name)) (hids : (w'.checks.map (·.id)).Nodup)
    (hregistered : w'.names = registered (past ++ [d])) (hnodup : w'.names.Nodup)
    (hisSome : ∀ name', name' ∈ w'.names ↔
      if name = name' then new.isSome = true else name' ∈ w.names)
    (hmem : ∀ y ∈ Slots.live w'.watches, (y.name = name ∧ ∀ r ∈ new, Describes r y) ∨
      (y ∈ Slots.live w.watches ∧ name ≠ y.name)) : Agrees (past ++ [d]) w' := by
  refine ⟨hids, hregistered, hnodup, ?_, ?_, ?_⟩
  · intro name'
    rw [registration_snoc, hafter, hisSome]
    split
    · rfl
    · rw [Option.isSome_map, h.isSome]
  · intro y hy r hr
    rw [registration_snoc, hafter] at hr
    rcases hmem y hy with ⟨rfl, hdescribes⟩ | ⟨hy, hne⟩
    · rw [if_pos rfl] at hr
      exact hdescribes r hr
    · rw [if_neg hne] at hr
      obtain ⟨r₀, hr₀, rfl⟩ := Option.map_eq_some_iff.mp hr
      exact (h.described y hy r₀ hr₀).snoc (hbeat _) hevents
  · intro name' r hr
    rw [registration_snoc, hafter] at hr
    split at hr
    · rename_i hname
      subst hname
      exact hnew r hr
    · obtain ⟨r₀, hr₀, rfl⟩ := Option.map_eq_some_iff.mp hr
      rw [notices_snoc, hevents]
      exact (List.append_nil _).symm ▸ h.alternate name' r₀ hr₀

section
variable {name : String} {timeout now : ℚ} {compacts : Bool}

theorem live_register (hpos : 0 < timeout) :
    Slots.live (w.register name timeout now compacts).watches
      = if name ∈ w.names then (Slots.live w.watches).map fun x => if x.name = name then
          { name := name, timeout := timeout, lastSeen := now } else x
        else Slots.live w.watches ++ [{ name := name, timeout := timeout, lastSeen := now }] := by
  unfold Watchdog.register
  rw [if_neg (Rat.not_le.mpr hpos)]
  split
  · exact Slots.live_adjust _ _
  · exact Slots.live_insert _ _ _

/-- A name that is registered already keeps its place. -/
theorem names_register (hpos : 0 < timeout) :
    (w.register name timeout now compacts).names
      = if name ∈ w.names then w.names else w.names ++ [name] := by
  rw [Watchdog.names, live_register hpos]
  split
  · refine Keyed.map_key_map (fun x => ?_) _
    split
    · rename_i hx
      exact hx.symm
    · rfl
  · rw [List.map_append]
    rfl

/-- A record is the new one, or it is one of the others. -/
theorem mem_live_register (hpos : 0 < timeout) {y : Watch}
    (hy : y ∈ Slots.live (w.register name timeout now compacts).watches) :
    y = { name := name, timeout := timeout, lastSeen := now } ∨
      (y ∈ Slots.live w.watches ∧ name ≠ y.name) := by
  rw [live_register hpos] at hy
  split at hy
  · obtain ⟨x, hx, rfl⟩ := List.mem_map.mp hy
    split
    · exact Or.inl rfl
    · rename_i hne
      exact Or.inr ⟨hx, fun heq => hne heq.symm⟩
  · rename_i hnew
    rcases List.mem_append.mp hy with hy | hy
    · exact Or.inr ⟨hy, fun heq => hnew (heq ▸ List.mem_map_of_mem hy)⟩
    · exact Or.inl (List.mem_singleton.mp hy)

theorem nodup_register (hnodup : w.names.Nodup) (hpos : 0 < timeout) :
    (w.register name timeout now compacts).names.Nodup := by
  rw [names_register hpos]
  split
  · exact hnodup
  · rename_i hnew
    refine List.nodup_append.mpr ⟨hnodup, List.nodup_singleton name, ?_⟩
    rintro k hk k' hk' rfl
    exact hnew (List.mem_singleton.mp hk' ▸ hk)

/-- A target is registered, possibly anew. -/
theorem register (h : Agrees past w) (hcall : d.call = .register name timeout now)
    (hpos : 0 < timeout) (hevents : d.events = []) (compacts : Bool) :
    Agrees (past ++ [d]) (w.register name timeout now compacts) := by
  have hnames : (w.register name timeout now compacts).names
      = if name ∈ w.names then w.names else w.names ++ [name] := names_register hpos
  refine h.change name (some { timeout := timeout, registeredAt := now }) ?_ ?_ hevents ?_ ?_ ?_
    (nodup_register h.nodup hpos) ?_ ?_
  · intro name' r
    simp [Registration.after, hcall, hpos]
  · intro name'
    simp [Registration.beat?, hcall]
  · intro r hr
    obtain rfl := Option.some.inj hr
    exact alternate_nil
  · unfold Watchdog.register
    split
    · exact h.ids
    · split <;> exact h.ids
  · rw [hnames, registered_snoc, ← h.names]
    by_cases hold : name ∈ w.names <;> simp [registeredAfter, hcall, hpos, hold]
  · intro name'
    rw [hnames]
    by_cases hname : name = name'
    · subst hname
      by_cases hold : name ∈ w.names <;> simp [hold]
    · by_cases hold : name ∈ w.names <;> simp [hold, hname, Ne.symm hname]
  · intro y hy
    rcases mem_live_register hpos hy with rfl | hother
    · refine Or.inl ⟨rfl, fun r hr => ?_⟩
      obtain rfl := Option.some.inj hr
      exact .fresh name timeout now
    · exact Or.inr hother

theorem unregister (h : Agrees past w) (hcall : d.call = .unregister name)
    (hevents : d.events = []) : Agrees (past ++ [d]) (w.unregister name) := by
  have hlive : Slots.live (w.unregister name).watches
      = (Slots.live w.watches).filter (·.name ≠ name) := Slots.live_erase _ _ _
  have hnames : (w.unregister name).names = w.names.filter (· ≠ name) := by
    rw [Watchdog.names, hlive, Watchdog.names, List.filter_map]
    rfl
  have hids : (w.unregister name).checks.map (·.id) = w.checks.map (·.id) := by
    refine Keyed.map_key_map (fun c => ?_) _
    split <;> rfl
  refine h.change name none ?_ ?_ hevents ?_ (hids ▸ h.ids) ?_ ?_ ?_ ?_
  · intro name' r
    simp [Registration.after, hcall]
  · intro name'
    simp [Registration.beat?, hcall]
  · intro r hr
    cases hr
  · rw [registered_snoc, hnames, h.names, registeredAfter, hcall]
  · rw [hnames]
    exact h.nodup.filter _
  · intro name'
    rw [hnames]
    by_cases hname : name = name'
    · simp [hname]
    · simp [hname, Ne.symm hname]
  · intro y hy
    rw [hlive] at hy
    obtain ⟨hy, hne⟩ := List.mem_filter.mp hy
    exact Or.inr ⟨hy, fun heq => by simp [heq] at hne⟩

end

/-! ### A check after the history -/

/-- A target is the only one with its name. -/
theorem filter_name (h : Agrees past w) {x : Watch} (hx : x ∈ Slots.live w.watches) :
    (Slots.live w.watches).filter (·.name = x.name) = [x] := Keyed.filter_key_eq h.nodup hx

/-- What a check says about a target. -/
theorem notices_eq (h : Agrees past w) {now : ℚ} (htold : Told now (Slots.live w.watches) d.events)
    {x : Watch} (hx : x ∈ Slots.live w.watches) :
    notices x.name d.events = (seenNotice now x).toList := by
  rw [htold.notices, h.filter_name hx]
  cases hk : seenNotice now x <;> simp [hk]

/-- A registered name has its target, which is described by its registration. -/
theorem exists_watch (h : Agrees past w) {name : String} {r : Registration τ}
    (hr : r ∈ registration name past) :
    ∃ x ∈ Slots.live w.watches, x.name = name ∧ Describes r x := by
  have hname : name ∈ w.names := (h.isSome name).mp (Option.isSome_of_mem hr)
  obtain ⟨x, hx, rfl⟩ := List.mem_map.mp hname
  exact ⟨x, hx, rfl, h.described x hx r hr⟩

/-- Nothing is said about a name that is not registered. -/
theorem notices_of_not_mem {now : ℚ} (htold : Told now (Slots.live w.watches) d.events)
    {name : String} (hname : name ∉ w.names) : notices name d.events = [] := by
  rw [htold.notices, List.filter_eq_nil_iff.mpr, List.filterMap_nil]
  intro x hx heq
  exact hname (of_decide_eq_true heq ▸ List.mem_map_of_mem hx)

end Agrees

namespace Describes

variable {r : Registration τ} {x : Watch} {now : ℚ}

theorem isOverdue (h : Describes r x) : x.isOverdue now = true ↔ r.Overdue x.name now := by
  rw [Watch.isOverdue, decide_eq_true_iff, Registration.Overdue, h.timeout, h.lastSeen]

/-- The check sees the target go stale. -/
theorem seen_stale (h : Describes r x) : seenNotice now x = some .stale ↔
    r.Overdue x.name now ∧ (r.notices x.name).getLast? ≠ some .stale := by
  rw [seenNotice_eq_stale, h.isOverdue, ← Bool.not_eq_true, h.stale]

/-- The check sees the target recover. -/
theorem seen_recovered (h : Describes r x) : seenNotice now x = some .recovered ↔
    ¬ r.Overdue x.name now ∧ (r.notices x.name).getLast? = some .stale := by
  rw [seenNotice_eq_recovered, ← Bool.not_eq_true, h.isOverdue, h.stale]

/-- After the check the last notice says whether the target is overdue. -/
theorem last_notice (h : Describes r x) :
    x.isOverdue now = true ↔
      (r.notices x.name ++ (seenNotice now x).toList).getLast? = some .stale := by
  cases hk : seenNotice now x with
  | none =>
    rw [Option.toList_none, List.append_nil, ← h.stale]
    revert hk
    unfold seenNotice
    cases x.isOverdue now <;> cases x.stale <;> simp
  | some k =>
    cases k with
    | stale => simp [(seenNotice_eq_stale.mp hk).1]
    | recovered => simp [(seenNotice_eq_recovered.mp hk).1]

/-- What the check says goes with what has been said. -/
theorem alternate_snoc (h : Describes r x) (halternate : Alternate (r.notices x.name)) :
    Alternate (r.notices x.name ++ (seenNotice now x).toList) := by
  cases hk : seenNotice now x with
  | none => simpa using halternate
  | some k =>
    refine Process.alternate_snoc halternate ?_
    cases k with
    | stale => simpa using (h.seen_stale.mp hk).2
    | recovered => simpa using (h.seen_recovered.mp hk).2

end Describes

namespace Agrees

variable {past : List (Done τ)} {w w' : Watchdog τ} {d : Done τ} {cfg : WatchdogSettings}

/-- A check keeps the agreement. -/
theorem checkOnce (h : Agrees past w) (hevents : cfg.hasEvents = true) {now : ℚ}
    (hcall : d.call = .checkOnce now) (hdoes : Does cfg w d w') : Agrees (past ++ [d]) w' := by
  obtain ⟨hids, hwatches, htold, -⟩ := does_checkOnce hevents h.nodup h.ids hcall hdoes
  refine h.keep hids ?_ ?_ hwatches (fun _ => rfl) (fun _ => rfl) ?_ ?_ ?_
  · intro name r
    simp [Registration.after, hcall]
  · simp [registeredAfter, hcall]
  · intro x
    simp [Registration.beat?, hcall, refreshed]
  · intro x hx r hr
    rw [h.notices_eq htold hx]
    exact (h.described x hx r hr).last_notice
  · intro name r hr
    obtain ⟨x, hx, rfl, hdescribes⟩ := h.exists_watch hr
    rw [h.notices_eq htold hx]
    exact hdescribes.alternate_snoc (h.alternate x.name r hr)

/-- A check publishes what the history asks for. -/
theorem reports (h : Agrees past w) (hevents : cfg.hasEvents = true) {now : ℚ}
    (hcall : d.call = .checkOnce now) (hdoes : Does cfg w d w') : Reports past now d := by
  obtain ⟨-, -, htold, hreturned⟩ := does_checkOnce hevents h.nodup h.ids hcall hdoes
  refine ⟨?_, ?_, ?_, ?_, htold.about, ?_⟩
  · intro name r hr
    obtain ⟨x, hx, rfl, hdescribes⟩ := h.exists_watch hr
    rw [h.notices_eq htold hx, Option.mem_toList, ← hdescribes.seen_stale]
  · intro name r hr
    obtain ⟨x, hx, rfl, hdescribes⟩ := h.exists_watch hr
    rw [h.notices_eq htold hx, Option.mem_toList, ← hdescribes.seen_recovered]
  · intro name
    by_cases hname : name ∈ w.names
    · obtain ⟨x, hx, rfl⟩ := List.mem_map.mp hname
      rw [h.notices_eq htold hx]
      cases seenNotice now x <;> simp
    · rw [notices_of_not_mem htold hname]
      exact Nat.zero_le 1
  · intro name hnone
    apply notices_of_not_mem htold
    rw [← h.isSome, hnone]
    simp
  · rw [hreturned, ← h.names, Watchdog.names, List.filter_map]
    refine congrArg _ (List.filter_congr fun x hx => ?_)
    rw [Function.comp_apply, decide_eq_decide, h.notices_eq htold hx, Option.mem_toList]

/-- A check leaves the other targets alone. -/
theorem spares (h : Agrees past w) (hevents : cfg.hasEvents = true) {now : ℚ}
    (hcall : d.call = .checkOnce now) (hdoes : Does cfg w d w') : Spares w d w' := by
  obtain ⟨-, hwatches, htold, -⟩ := does_checkOnce hevents h.nodup h.ids hcall hdoes
  have hlive : Slots.live w'.watches = (Slots.live w.watches).map (refreshed now) := by
    rw [hwatches, Slots.live_adjust]
  refine ⟨?_, fun x hx => ⟨refreshed now x, ?_, rfl, rfl, rfl, ?_⟩⟩
  · rw [Watchdog.names, hlive]
    exact Keyed.map_key_map (f := refreshed now) (fun _ => rfl) _
  · rw [hlive]
    exact List.mem_map_of_mem hx
  · intro hnone
    rw [h.notices_eq htold hx, Option.toList_eq_nil_iff] at hnone
    exact refreshed_eq_self hnone

/-- Each call keeps the agreement. -/
theorem does (h : Agrees past w) (hevents : cfg.hasEvents = true) (hdoes : Does cfg w d w') :
    Agrees (past ++ [d]) w' := by
  obtain ⟨hruns, hpublished⟩ := id hdoes
  unfold Runs at hruns
  have hsilent : w'.published = w.published → d.events = [] := by
    intro hsame
    exact List.append_right_eq_self.mp (hpublished.symm.trans hsame)
  cases hcall : d.call with
  | checkOnce now => exact h.checkOnce hevents hcall hdoes
  | register name timeout now =>
    rw [hcall] at hruns
    obtain ⟨-, compacts, hstep⟩ := hruns
    obtain ⟨-, rfl⟩ := Run.guarded_eq_some.mp hstep
    have hevents' : d.events = [] := by
      apply hsilent
      show (w.register name timeout now compacts).published = _
      unfold Watchdog.register
      split
      · rfl
      · split <;> rfl
    by_cases hpos : 0 < timeout
    · exact h.register hcall hpos hevents' compacts
    · -- The timeout is rejected.
      have hsame : next cfg w (.register name timeout now compacts) = w := by
        show w.register name timeout now compacts = w
        rw [Watchdog.register, if_pos (Rat.not_lt.mp hpos)]
      rw [hsame]
      refine h.keep_silent h.ids ?_ ?_ (Slots.adjust_id _).symm (fun _ => rfl) (fun _ => rfl) ?_
        (fun _ => rfl) hevents'
      · intro name' r
        simp [Registration.after, hcall, hpos]
      · simp [registeredAfter, hcall, hpos]
      · intro x
        simp [Registration.beat?, hcall]
  | unregister name =>
    rw [hcall] at hruns
    obtain ⟨-, rfl⟩ := Run.guarded_eq_some.mp hruns.2
    exact h.unregister hcall (hsilent rfl)
  | heartbeat name now =>
    -- A heartbeat leaves every flag: the next check clears it and publishes the recovery.
    rw [hcall] at hruns
    obtain ⟨-, rfl⟩ := Run.guarded_eq_some.mp hruns.2
    refine h.keep_silent h.ids ?_ ?_ rfl ?_ ?_ ?_ ?_ (hsilent rfl)
    · intro name' r
      simp [Registration.after, hcall]
    · simp [registeredAfter, hcall]
    all_goals intro x
    · split <;> rfl
    · split <;> rfl
    · by_cases hx : x.name = name
      · simp [Registration.beat?, hcall, hx]
      · simp [Registration.beat?, hcall, hx, Ne.symm hx]
    · split <;> rfl
  | moved current =>
    rw [hcall] at hruns
    obtain ⟨-, rfl⟩ := Run.guarded_eq_some.mp hruns.2
    refine h.keep_silent h.ids ?_ ?_ (Slots.adjust_id _).symm (fun _ => rfl) (fun _ => rfl) ?_
      (fun _ => rfl) (hsilent rfl)
    · intro name' r
      simp [Registration.after, hcall]
    · simp [registeredAfter, hcall]
    · intro x
      simp [Registration.beat?, hcall]

end Agrees

/-- After any calls of a watchdog with a bus, the events about each registration alternate, and
the next check publishes exactly the transitions that it sees. -/
theorem check_reports (cfg : WatchdogSettings) (hevents : cfg.hasEvents = true)
    (current : RuntimeState) (past : List (Done τ)) (w : Watchdog τ)
    (hpast : Run.Path (Does cfg) (new current) past w) :
    (∀ name, ∀ r ∈ registration name past, Alternate (r.notices name)) ∧
      ∀ (now : ℚ) (d : Done τ) (w' : Watchdog τ), d.call = .checkOnce now → Does cfg w d w' →
        Reports past now d ∧ Spares w d w' := by
  have h : Agrees past w := Run.path_history Agrees
    (fun _ _ _ _ h hdoes => h.does hevents hdoes) (Agrees.new current) hpast
  refine ⟨h.alternate, fun now d w' hcall hdoes => ?_⟩
  exact ⟨h.reports hevents hcall hdoes, h.spares hevents hcall hdoes⟩

/-- A target goes stale, and the check says so. -/
theorem check_reports_staleUploader :
    ∃ (w w' : Watchdog Nat) (d : Done Nat),
      Run.Path (Does wired) (new .healthy) [⟨.register "uploader" 5 0, [], []⟩] w ∧
        d.call = .checkOnce 10 ∧ Does wired w d w' ∧ d.returned = ["uploader"] ∧
        Reports [⟨.register "uploader" 5 0, [], []⟩] 10 d := by
  have hregister : (step wired (new (τ := Nat) .healthy) (.register "uploader" 5 0 false)).map
      (·.published) = some [] := by decide +kernel
  obtain ⟨w, hw, hsilent⟩ := Option.map_eq_some_iff.mp hregister
  have hpath : Run.Path (Does wired) (new .healthy) [⟨.register "uploader" 5 0, [], []⟩] w :=
    ⟨w, ⟨⟨rfl, false, hw⟩, hsilent⟩, rfl⟩
  have hrun : (Run.exec (step wired) (new (τ := Nat) .healthy)
      [.register "uploader" 5 0 false, .check 0 10, .turn 0 10, .resume 0, .turn 0 10,
        .resume 0]).map (fun w => (w.published, w.checks.map fun c => (c.id, c.point, c.newlyStale)))
      = some ([staleEvent wired ⟨"uploader", 5, 0, false⟩ 10], [(0, .returned, ["uploader"])]) := by
    decide +kernel
  obtain ⟨w', hw', hends⟩ := Option.map_eq_some_iff.mp hrun
  rw [Run.exec_cons, hw, Option.bind_some] at hw'
  obtain ⟨hpublished, hchecks⟩ := Prod.mk.injEq _ _ _ _ ▸ hends
  obtain ⟨c, hc, hends⟩ := List.mem_map.mp (hchecks ▸ List.mem_cons_self)
  simp only [Prod.mk.injEq] at hends
  let d : Done Nat :=
    ⟨.checkOnce 10, [staleEvent wired ⟨"uploader", 5, 0, false⟩ 10], ["uploader"]⟩
  have hdoes : Does wired w d w' :=
    ⟨⟨0, _, by decide, hw', c, hc, hends⟩, by rw [hpublished, hsilent]; rfl⟩
  exact ⟨w, w', d, hpath, rfl, hdoes, rfl,
    ((check_reports wired rfl .healthy _ w hpath).2 10 d w' rfl hdoes).1⟩

end EdgeSentinel.Proofs.Process
