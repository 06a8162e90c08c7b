import EdgeSentinel.Process.Watchdog
import EdgeSentinel.Proofs.Core.Publication

/-!
# `EdgeSentinel.Proofs.Process.Vigilance`: no stale target is lost

`Vigilant` is what a watchdog owes to its targets: no check fails, a target that is overdue when
a check begins is reported in it, and a check that marks a target stale tries to move the runtime
to FAILED. A registration during a check breaks all of it, because the iteration fails after the
flag is set, and no later check takes the target up again (`registration_aborts_check`).

`vigilant_of_steady` proves it for the runs in which a check is alone, no target comes or goes
during a check, the targets that a check still has to report are left alone, and each event that a
check publishes meets handlers that return awaitables. The invariant follows the iterator of the
check: each of these targets is among the records it has not come to.
-/

set_option autoImplicit false

namespace EdgeSentinel.Proofs.Process

open EdgeSentinel.Core
open EdgeSentinel.Process
open EdgeSentinel.Process.Watchdog
open Slots (Cursor)

variable {τ : Type} {cfg : WatchdogSettings}

/-- The event says that the target is stale. -/
def Announces (e : Event τ) (name : String) : Prop :=
  e.type = "watchdog_target_stale" ∧ ("name", .str name) ∈ e.metadata

/-- What a watchdog owes to its targets. -/
structure Vigilant (cfg : WatchdogSettings) (w : Watchdog τ) : Prop where
  notFailed : ∀ c ∈ w.checks, c.point ≠ .failed
  reported : ∀ c ∈ w.checks, c.leftAt ≠ none → ∀ name ∈ c.due, name ∈ c.newlyStale ∧
    (cfg.hasEvents = true → ∃ e ∈ w.published, Announces e name)
  escalates : ∀ c ∈ w.checks, ∀ current ∈ c.leftAt, c.newlyStale ≠ [] →
    cfg.hasSetState = true → .failed ∈ current.transitions → c.attempted = true

/-- The check still has to report the target. -/
def Pending (c : Check) (name : String) : Prop := name ∈ c.due ∧ name ∉ c.newlyStale

instance (c : Check) (name : String) : Decidable (Pending c name) :=
  inferInstanceAs (Decidable (name ∈ c.due ∧ name ∉ c.newlyStale))

/-- While a check is in its loop, no other check begins, no target is added or deleted, and the
targets it still has to report get no heartbeat and are not registered anew. -/
def Steady (w : Watchdog τ) : WatchdogStep τ → Watchdog τ → Prop
  | .register name timeout _ _, _ => 0 < timeout → ∀ c ∈ w.checks, c.leftAt = none →
      name ∈ w.names ∧ ¬ Pending c name
  | .unregister name, _ => name ∈ w.names → ∀ c ∈ w.checks, c.leftAt ≠ none
  | .heartbeat name _, _ => ∀ c ∈ w.checks, c.leftAt = none → ¬ Pending c name
  | .check _ _, _ => ∀ c ∈ w.checks, c.leftAt ≠ none
  | .turn _ _ _, _ | .resume _, _ | .moved _, _ => True

instance (w : Watchdog τ) : ∀ e w', Decidable (Steady w e w')
  | .register name timeout _ _, _ => inferInstanceAs (Decidable
      (0 < timeout → ∀ c ∈ w.checks, c.leftAt = none → name ∈ w.names ∧ ¬ Pending c name))
  | .unregister name, _ =>
    inferInstanceAs (Decidable (name ∈ w.names → ∀ c ∈ w.checks, c.leftAt ≠ none))
  | .heartbeat name _, _ =>
    inferInstanceAs (Decidable (∀ c ∈ w.checks, c.leftAt = none → ¬ Pending c name))
  | .check _ _, _ => inferInstanceAs (Decidable (∀ c ∈ w.checks, c.leftAt ≠ none))
  | .turn _ _ _, _ | .resume _, _ | .moved _, _ => isTrue trivial

/-- The event that a check publishes in its turn, if it does, meets an audience of awaitables. -/
def Answered (cfg : WatchdogSettings) (w : Watchdog τ) : WatchdogStep τ → Watchdog τ → Prop
  | .turn id _ audience, _ => ∀ c ∈ w.checks, c.id = id →
      ∀ x ∈ w.watches[c.cursor.pos]?.join, cfg.hasEvents = true → x.isOverdue c.now ≠ x.stale →
        audience.Awaitables
  | _, _ => True

instance (w : Watchdog τ) : ∀ e w', Decidable (Answered cfg w e w')
  | .turn id _ audience, _ => inferInstanceAs (Decidable (∀ c ∈ w.checks, c.id = id →
      ∀ x ∈ w.watches[c.cursor.pos]?.join, cfg.hasEvents = true → x.isOverdue c.now ≠ x.stale →
        audience.Awaitables))
  | .register _ _ _ _, _ | .unregister _, _ | .heartbeat _ _, _ | .check _ _, _ | .resume _, _
  | .moved _, _ => isTrue trivial

/-! ### A check in its loop -/

/-- The iterator is on track, and the targets that the check still has to report are among the
records it has not come to. -/
structure InLoop (watches : List (Option Watch)) (c : Check) : Prop where
  tracks : c.cursor.Tracks watches
  pending : ∀ name, Pending c name → ∃ x ∈ c.cursor.rest watches,
    x.name = name ∧ x.isOverdue c.now = true ∧ x.stale = false

namespace InLoop

variable {watches : List (Option Watch)} {c : Check}

/-- A change of a target that the check does not have to report. -/
theorem adjust (h : InLoop watches c) {name : String} (hname : ¬ Pending c name)
    (f : Watch → Watch) :
    InLoop (Slots.adjust (fun x => if x.name = name then f x else x) watches) c where
  tracks := h.tracks.adjust _
  pending n hn := by
    obtain ⟨x, hx, rfl, hoverdue⟩ := h.pending n hn
    have hne : x.name ≠ name := fun heq => hname (heq ▸ hn)
    refine ⟨x, ?_, rfl, hoverdue⟩
    rw [Cursor.rest_adjust]
    exact List.mem_map.mpr ⟨x, hx, if_neg hne⟩

theorem skip (h : InLoop watches c) (hgap : watches[c.cursor.pos]? = some none) :
    InLoop watches { c with cursor := c.cursor.skip } where
  tracks := h.tracks.skip hgap
  pending name hname := by
    obtain ⟨x, hx, hrest⟩ := h.pending name hname
    exact ⟨x, (Cursor.rest_of_gap hgap).symm ▸ hx, hrest⟩

variable {x : Watch}

/-- Past the record `x`, the other records are still to come. -/
theorem pending_tail (h : InLoop watches c) (hx : watches[c.cursor.pos]? = some (some x))
    {name : String} (hname : Pending c name) :
    (x.name = name ∧ x.isOverdue c.now = true ∧ x.stale = false) ∨
      ∃ y ∈ c.cursor.yielded.rest watches,
        y.name = name ∧ y.isOverdue c.now = true ∧ y.stale = false := by
  obtain ⟨y, hy, hrest⟩ := h.pending name hname
  rw [Cursor.rest_of_record hx] at hy
  rcases List.mem_cons.mp hy with rfl | hy
  · exact Or.inl hrest
  · exact Or.inr ⟨y, hy, hrest⟩

/-- The target `x` is marked stale and reported. -/
theorem mark (h : InLoop watches c) (hx : watches[c.cursor.pos]? = some (some x)) :
    InLoop (Slots.adjust (fun y => if y.name = x.name then { y with stale := true } else y)
        watches)
      { c with cursor := c.cursor.yielded, newlyStale := c.newlyStale ++ [x.name] } where
  tracks := (h.tracks.yielded hx).adjust _
  pending name hname := by
    obtain ⟨hdue, hnot⟩ := hname
    rw [List.mem_append, List.mem_singleton, not_or] at hnot
    -- The check has just reported `x`, so another target is meant.
    rcases h.pending_tail hx ⟨hdue, hnot.1⟩ with ⟨rfl, -⟩ | ⟨y, hy, rfl, hoverdue⟩
    · exact absurd rfl hnot.2
    · refine ⟨y, ?_, rfl, hoverdue⟩
      rw [Cursor.rest_adjust]
      exact List.mem_map.mpr ⟨y, hy, if_neg hnot.2⟩

/-- The target `x` is not overdue, and its flag is cleared. -/
theorem recover (h : InLoop watches c) (hx : watches[c.cursor.pos]? = some (some x))
    (hseen : x.isOverdue c.now = false) :
    InLoop (Slots.adjust (fun y => if y.name = x.name then { y with stale := false } else y)
        watches) { c with cursor := c.cursor.yielded } where
  tracks := (h.tracks.yielded hx).adjust _
  pending name hname := by
    rcases h.pending_tail hx hname with ⟨-, hoverdue, -⟩ | ⟨y, hy, hname, hoverdue, hfresh⟩
    · rw [hseen] at hoverdue
      cases hoverdue
    · refine ⟨y, ?_, hname, hoverdue, hfresh⟩
      rw [Cursor.rest_adjust]
      refine List.mem_map.mpr ⟨y, hy, ?_⟩
      -- The flag of `y` is clear already.
      split
      · rw [← hfresh]
      · rfl

/-- Nothing is to be done about the target `x`. -/
theorem pass (h : InLoop watches c) (hx : watches[c.cursor.pos]? = some (some x))
    (hnot : ¬ (x.isOverdue c.now = true ∧ x.stale = false)) :
    InLoop watches { c with cursor := c.cursor.yielded } where
  tracks := h.tracks.yielded hx
  pending name hname := by
    rcases h.pending_tail hx hname with ⟨-, hoverdue⟩ | hrest
    · exact absurd hoverdue hnot
    · exact hrest

/-- At the end of the loop everything has been reported. -/
theorem reported (h : InLoop watches c) (hend : watches[c.cursor.pos]? = none) {name : String}
    (hdue : name ∈ c.due) : name ∈ c.newlyStale := by
  by_contra hnot
  obtain ⟨x, hx, -⟩ := h.pending name ⟨hdue, hnot⟩
  rw [Cursor.rest_of_exhausted hend] at hx
  cases hx

end InLoop

/-! ### The invariant -/

/-- What holds of each check. -/
structure OnTrack (cfg : WatchdogSettings) (w : Watchdog τ) (c : Check) : Prop where
  notFailed : c.point ≠ .failed
  inLoop : c.leftAt = none → InLoop w.watches c
  point : c.leftAt = none ↔ c.point = .iterating ∨ c.point = .publishing
  reported : c.leftAt ≠ none → ∀ name ∈ c.due, name ∈ c.newlyStale
  announced : cfg.hasEvents = true → ∀ name ∈ c.newlyStale, ∃ e ∈ w.published, Announces e name
  escalates : ∀ current ∈ c.leftAt, c.newlyStale ≠ [] → cfg.hasSetState = true →
    .failed ∈ current.transitions → c.attempted = true

/-- The invariant. At most one check is in its loop. -/
structure Tracking (cfg : WatchdogSettings) (w : Watchdog τ) : Prop where
  ids : (w.checks.map (·.id)).Nodup
  alone : ∀ c ∈ w.checks, ∀ c' ∈ w.checks, c.leftAt = none → c'.leftAt = none → c = c'
  checks : ∀ c ∈ w.checks, OnTrack cfg w c

theorem Tracking.new (current : RuntimeState) : Tracking cfg (new (τ := τ) current) where
  ids := List.nodup_nil
  alone := by simp [Watchdog.new]
  checks := by simp [Watchdog.new]

/-- A check stays on track when what it reads of the watchdog does. -/
theorem OnTrack.congr {w w' : Watchdog τ} {c : Check} (h : OnTrack cfg w c)
    (hpublished : w.published ⊆ w'.published)
    (hloop : c.leftAt = none → InLoop w.watches c → InLoop w'.watches c) : OnTrack cfg w' c where
  notFailed := h.notFailed
  inLoop hleft := hloop hleft (h.inLoop hleft)
  point := h.point
  reported := h.reported
  announced hevents name hname := by
    obtain ⟨e, he, hannounces⟩ := h.announced hevents name hname
    exact ⟨e, hpublished he, hannounces⟩
  escalates := h.escalates

/-- A check may forget a target that it had to report. -/
theorem OnTrack.forget {w : Watchdog τ} {c : Check} (h : OnTrack cfg w c) (name : String) :
    OnTrack cfg w
      (if c.leftAt.isNone then { c with due := c.due.filter (· ≠ name) } else c) := by
  split
  · rename_i hnone
    refine ⟨h.notFailed, fun hleft => ⟨(h.inLoop hleft).tracks, ?_⟩, h.point, ?_, h.announced,
      h.escalates⟩
    · rintro n ⟨hdue, hnot⟩
      exact (h.inLoop hleft).pending n ⟨(List.mem_filter.mp hdue).1, hnot⟩
    · intro hleft n hn
      exact h.reported hleft n (List.mem_filter.mp hn).1
  · exact h

/-- No state from which FAILED is reachable is unsafe to escalate. -/
theorem not_mem_unsafeToEscalate {current : RuntimeState}
    (h : .failed ∈ current.transitions) : current ∉ RuntimeState.unsafeToEscalate := by
  revert h
  cases current <;> decide

namespace Tracking

variable {w : Watchdog τ}

theorem vigilant (h : Tracking cfg w) : Vigilant cfg w where
  notFailed c hc := (h.checks c hc).notFailed
  reported c hc hleft name hname := by
    have hreported := (h.checks c hc).reported hleft name hname
    exact ⟨hreported, fun hevents => (h.checks c hc).announced hevents name hreported⟩
  escalates c hc := (h.checks c hc).escalates

/-- The targets change in a way that keeps the check in its loop on track. -/
theorem watches (h : Tracking cfg w) {slots : List (Option Watch)}
    (hloop : ∀ c ∈ w.checks, c.leftAt = none → InLoop w.watches c → InLoop slots c) :
    Tracking cfg { w with watches := slots } where
  ids := h.ids
  alone := h.alone
  checks c hc := (h.checks c hc).congr (List.Subset.refl _) (hloop c hc)

/-- The check `c` goes on as `c'`. The targets change only when `c` is in its loop. -/
theorem put (h : Tracking cfg w) {c c' : Check} (hc : c ∈ w.checks) {w' : Watchdog τ}
    (hchecks : w'.checks = Keyed.replace (·.id) c.id c' w.checks) (hid : c'.id = c.id)
    (hleft : c'.leftAt = none → c.leftAt = none) (hpublished : w.published ⊆ w'.published)
    (hwatches : c.leftAt = none ∨ w'.watches = w.watches) (hc' : OnTrack cfg w' c') :
    Tracking cfg w' where
  ids := by
    have hkeys : w'.checks.map (·.id) = w.checks.map (·.id) := by
      rw [hchecks]
      exact Keyed.map_key_replace hid w.checks
    rw [hkeys]
    exact h.ids
  alone x hx y hy hx' hy' := by
    have hother : ∀ {z : Check}, z ∈ w.checks → z.id ≠ c.id → z.leftAt = none →
        c.leftAt ≠ none := by
      intro z hz hne hz' hnone
      exact hne (congrArg (·.id) (h.alone z hz c hc hz' hnone))
    rw [hchecks] at hx hy
    -- Each of the two is `c'`, or one of the other checks.
    rcases Keyed.mem_replace hx with rfl | ⟨hx₀, hnex⟩
    · rcases Keyed.mem_replace hy with rfl | ⟨hy₀, hney⟩
      · rfl
      · exact absurd (hleft hx') (hother hy₀ hney hy')
    · rcases Keyed.mem_replace hy with rfl | ⟨hy₀, -⟩
      · exact absurd (hleft hy') (hother hx₀ hnex hx')
      · exact h.alone x hx₀ y hy₀ hx' hy'
  checks x hx := by
    rw [hchecks] at hx
    rcases Keyed.mem_replace hx with rfl | ⟨hx, hne⟩
    · exact hc'
    · refine (h.checks x hx).congr hpublished fun hx' hloop => ?_
      rcases hwatches with hnone | heq
      · exact absurd (congrArg (·.id) (h.alone x hx c hc hx' hnone)) hne
      · rw [heq]
        exact hloop

/-! ### The turns of a check -/

/-- The check `c` goes on in its loop with nothing but another cursor. -/
theorem moveOn (h : Tracking cfg w) {c : Check} (hc : c ∈ w.checks) (hleft : c.leftAt = none)
    {cursor : Cursor} (hloop : InLoop w.watches { c with cursor := cursor }) :
    Tracking cfg (w.put { c with cursor := cursor }) := by
  have htrack := h.checks c hc
  exact h.put hc rfl rfl (fun _ => hleft) (List.Subset.refl _) (Or.inl hleft)
    ⟨htrack.notFailed, fun _ => hloop, htrack.point, htrack.reported, htrack.announced,
      htrack.escalates⟩

/-- The check `c` goes on in its loop as `c'`, and may publish an event. -/
theorem publish (h : Tracking cfg w) {c c' : Check} (hc : c ∈ w.checks) (hleft : c.leftAt = none)
    {slots : List (Option Watch)} (hloop : InLoop slots c') (hid : c'.id = c.id)
    (hleft' : c'.leftAt = none) (hpoint : c'.point = .iterating) {e : Event τ}
    (hannounced : ∀ name ∈ c'.newlyStale, name ∈ c.newlyStale ∨ Announces e name)
    {audience : Audience String} (hanswered : cfg.hasEvents = true → audience.Awaitables) :
    Tracking cfg (publish cfg { w with watches := slots } c' e audience) := by
  have hescalates : ∀ current ∈ c'.leftAt, c'.newlyStale ≠ [] → cfg.hasSetState = true →
      .failed ∈ current.transitions → c'.attempted = true := by
    rw [hleft']
    nofun
  unfold Watchdog.publish
  split
  · rename_i hevents
    rw [(Core.raised_eq_none_iff audience e).mpr (hanswered hevents)]
    have hid' : ({ c' with point := .publishing } : Check).id = c.id := hid
    refine h.put hc (by rw [← hid']; rfl) hid' (fun _ => hleft) (List.subset_append_left _ _)
      (Or.inl hleft) ⟨nofun, fun _ => ⟨hloop.tracks, hloop.pending⟩, ?_, ?_, ?_, hescalates⟩
    · exact ⟨fun _ => Or.inr rfl, fun _ => hleft'⟩
    · exact fun hnot => absurd hleft' hnot
    · intro hevents name hname
      rcases hannounced name hname with hold | hnew
      · obtain ⟨e', he', hannounces⟩ := (h.checks c hc).announced hevents name hold
        exact ⟨e', List.mem_append_left _ he', hannounces⟩
      · exact ⟨e, List.mem_append_right _ List.mem_cons_self, hnew⟩
  · rename_i hevents
    refine h.put hc (by rw [← hid]; rfl) hid (fun _ => hleft) (List.Subset.refl _) (Or.inl hleft)
      ⟨by rw [hpoint]; nofun, fun _ => hloop, ?_, ?_, ?_, hescalates⟩
    · exact ⟨fun _ => Or.inl hpoint, fun _ => hleft'⟩
    · exact fun hnot => absurd hleft' hnot
    · exact fun hevents' => absurd hevents' hevents

theorem visit (h : Tracking cfg w) {c : Check} (hc : c ∈ w.checks) (hleft : c.leftAt = none)
    (hpoint : c.point = .iterating) {x : Watch}
    (hx : w.watches[c.cursor.pos]? = some (some x)) (stamp : τ) {audience : Audience String}
    (hanswered : cfg.hasEvents = true → x.isOverdue c.now ≠ x.stale → audience.Awaitables) :
    Tracking cfg (visit cfg w { c with cursor := c.cursor.yielded } x stamp audience) := by
  have hloop := (h.checks c hc).inLoop hleft
  unfold Watchdog.visit
  split
  · rename_i hstale
    have hdiffers : x.isOverdue c.now ≠ x.stale := by
      simp only [Bool.and_eq_true, Bool.not_eq_true'] at hstale
      simp [hstale.1, hstale.2]
    refine h.publish hc hleft (hloop.mark hx) rfl hleft hpoint (fun name hname => ?_)
      fun hevents => hanswered hevents hdiffers
    rcases List.mem_append.mp hname with hold | hnew
    · exact Or.inl hold
    · rw [List.mem_singleton.mp hnew]
      exact Or.inr ⟨rfl, List.mem_cons_self⟩
  · rename_i hnot
    split
    · rename_i hrecovered
      obtain ⟨hseen, hflag⟩ : x.isOverdue c.now = false ∧ x.stale = true := by
        simpa only [Bool.and_eq_true, Bool.not_eq_true'] using hrecovered
      exact h.publish hc hleft (hloop.recover hx hseen) rfl hleft hpoint (fun _ => Or.inl)
        fun hevents => hanswered hevents (by simp [hseen, hflag])
    · have hpass := hloop.pass hx fun hdue => hnot (by
        show (x.isOverdue c.now && !x.stale) = true
        rw [hdue.1, hdue.2]
        rfl)
      exact h.moveOn hc hleft hpass

/-- The end of the loop: everything has been reported, and FAILED is asked for. -/
theorem leaveLoop (h : Tracking cfg w) {c : Check} (hc : c ∈ w.checks) (hleft : c.leftAt = none)
    (hend : w.watches[c.cursor.pos]? = none) : Tracking cfg (leaveLoop cfg w c) := by
  have htrack := h.checks c hc
  have hreported : ∀ name ∈ c.due, name ∈ c.newlyStale :=
    fun name => (htrack.inLoop hleft).reported hend
  unfold Watchdog.leaveLoop
  dsimp only
  split
  · -- `_escalate` is called with the names of the stale targets.
    exact h.put hc rfl rfl nofun (List.Subset.refl _) (Or.inl hleft)
      ⟨nofun, nofun, ⟨nofun, nofun⟩, fun _ => hreported, htrack.announced, fun _ _ _ _ _ => rfl⟩
  · rename_i hnot
    refine h.put hc rfl rfl nofun (List.Subset.refl _) (Or.inl hleft)
      ⟨nofun, nofun, ⟨nofun, nofun⟩, fun _ => hreported, htrack.announced, ?_⟩
    intro current hcurrent hstale hset hreachable
    obtain rfl : w.current = current := Option.some.inj hcurrent
    exact absurd ⟨hstale, hset, not_mem_unsafeToEscalate hreachable⟩ hnot

/-- A turn of the loop. The cases follow what the iterator finds; it does not fail. -/
theorem turn (h : Tracking cfg w) {c : Check} (hc : c ∈ w.checks)
    (hpoint : c.point = .iterating) (stamp : τ) {audience : Audience String}
    (hanswered : ∀ x ∈ w.watches[c.cursor.pos]?.join, cfg.hasEvents = true →
      x.isOverdue c.now ≠ x.stale → audience.Awaitables) :
    Tracking cfg (turn cfg w c stamp audience) := by
  have htrack := h.checks c hc
  have hleft : c.leftAt = none := htrack.point.mpr (Or.inl hpoint)
  have hloop := htrack.inLoop hleft
  unfold Watchdog.turn
  rcases hloop.tracks.find_cases with ⟨hfind, hend⟩ | ⟨hfind, hgap⟩ | ⟨x, hfind, hx⟩
  · rw [hfind]
    exact h.leaveLoop hc hleft hend
  · rw [hfind]
    exact h.moveOn hc hleft (hloop.skip hgap)
  · rw [hfind]
    exact h.visit hc hleft hpoint hx stamp (hanswered x (by rw [hx]; rfl))

theorem resume (h : Tracking cfg w) {c : Check} (hc : c ∈ w.checks)
    (hpoint : c.point ∈ [.publishing, .escalating]) : Tracking cfg (w.resume c) := by
  have htrack := h.checks c hc
  unfold Watchdog.resume
  split
  · -- The event is out, and the loop goes on.
    rename_i hpublishing
    have hleft : c.leftAt = none := htrack.point.mpr (Or.inr hpublishing)
    have hloop := htrack.inLoop hleft
    exact h.put hc rfl rfl id (List.Subset.refl _) (Or.inl hleft)
      ⟨nofun, fun _ => ⟨hloop.tracks, hloop.pending⟩, ⟨fun _ => Or.inl rfl, fun _ => hleft⟩,
        htrack.reported, htrack.announced, htrack.escalates⟩
  · -- The move to FAILED is over, which is the last await of the check.
    rename_i hnot
    have hleft : c.leftAt ≠ none := by
      intro hnone
      rcases htrack.point.mp hnone with hiter | hpublishing
      · rw [hiter] at hpoint
        exact absurd hpoint (by decide)
      · exact hnot hpublishing
    exact h.put hc rfl rfl id (List.Subset.refl _) (Or.inr rfl)
      ⟨nofun, fun hnone => absurd hnone hleft, ⟨fun hnone => absurd hnone hleft, nofun⟩,
        htrack.reported, htrack.announced, htrack.escalates⟩

/-! ### The other calls -/

theorem register (h : Tracking cfg w) {name : String} {timeout now : ℚ} {compacts : Bool}
    (hsteady : 0 < timeout → ∀ c ∈ w.checks, c.leftAt = none →
      name ∈ w.names ∧ ¬ Pending c name) :
    Tracking cfg (w.register name timeout now compacts) := by
  unfold Watchdog.register
  split
  · exact h
  · rename_i hpos
    have hsteady' := hsteady (Rat.not_le.mp hpos)
    split
    · exact h.watches fun c hc hleft hloop => hloop.adjust (hsteady' c hc hleft).2 _
    · rename_i hnew
      exact h.watches fun c hc hleft _ => absurd (hsteady' c hc hleft).1 hnew

theorem unregister (h : Tracking cfg w) {name : String}
    (hsteady : name ∈ w.names → ∀ c ∈ w.checks, c.leftAt ≠ none) :
    Tracking cfg (w.unregister name) := by
  by_cases hname : name ∈ w.names
  · -- No check is in its loop.
    have hleft := hsteady hname
    have hchecks : (w.checks.map fun c =>
        if c.leftAt.isNone then { c with due := c.due.filter (· ≠ name) } else c) = w.checks := by
      refine List.map_congr_left (g := id) (fun c hc => ?_) |>.trans (List.map_id _)
      rw [if_neg (by simpa using hleft c hc)]
      rfl
    unfold Watchdog.unregister
    rw [hchecks]
    exact h.watches fun c hc hleft' => absurd hleft' (hleft c hc)
  · have hwatches : Slots.erase (·.name) name w.watches = w.watches :=
      Slots.erase_of_not_mem hname
    have hkey : ∀ c : Check, (if c.leftAt.isNone then
        { c with due := c.due.filter (· ≠ name) } else c).id = c.id := by
      intro c
      split <;> rfl
    have hleft : ∀ c : Check, (if c.leftAt.isNone then
        { c with due := c.due.filter (· ≠ name) } else c).leftAt = c.leftAt := by
      intro c
      split <;> rfl
    unfold Watchdog.unregister
    rw [hwatches]
    refine ⟨?_, ?_, ?_⟩
    · rw [Keyed.map_key_map hkey]
      exact h.ids
    · intro x hx y hy hx' hy'
      obtain ⟨c, hc, rfl⟩ := List.mem_map.mp hx
      obtain ⟨c', hc', rfl⟩ := List.mem_map.mp hy
      rw [hleft] at hx' hy'
      rw [h.alone c hc c' hc' hx' hy']
    · intro x hx
      obtain ⟨c, hc, rfl⟩ := List.mem_map.mp hx
      exact ((h.checks c hc).forget name).congr (List.Subset.refl _) fun _ => id

/-- A check begins while no other check is in its loop. -/
theorem check (h : Tracking cfg w) {id : Nat} (hid : id ∉ w.checks.map (·.id)) (now : ℚ)
    (halone : ∀ c ∈ w.checks, c.leftAt ≠ none) : Tracking cfg (w.check id now) where
  ids := Keyed.nodup_append h.ids hid
  alone x hx y hy hx' hy' := by
    rcases List.mem_append.mp hx with hx | hx
    · exact absurd hx' (halone x hx)
    · rcases List.mem_append.mp hy with hy | hy
      · exact absurd hy' (halone y hy)
      · rw [List.mem_singleton.mp hx, List.mem_singleton.mp hy]
  checks x hx := by
    rcases List.mem_append.mp hx with hx | hx
    · exact (h.checks x hx).congr (List.Subset.refl _) fun hleft => absurd hleft (halone x hx)
    · rw [List.mem_singleton.mp hx]
      refine ⟨nofun, fun _ => ⟨Cursor.tracks_new _, ?_⟩, ⟨fun _ => Or.inl rfl, fun _ => rfl⟩,
        fun hnot => absurd rfl hnot, fun _ => nofun, nofun⟩
      rintro name ⟨hdue, -⟩
      obtain ⟨y, hy, rfl⟩ := List.mem_map.mp hdue
      obtain ⟨hy, hoverdue⟩ := List.mem_filter.mp hy
      exact ⟨y, hy, rfl, by simpa using hoverdue⟩

theorem step (h : Tracking cfg w) {e : WatchdogStep τ} {w' : Watchdog τ}
    (hstep : step cfg w e = some w') (hsteady : Steady w e w') (hanswered : Answered cfg w e w') :
    Tracking cfg w' := by
  obtain ⟨hen, rfl⟩ := Run.guarded_eq_some.mp hstep
  cases e with
  | register name timeout now compacts => exact h.register hsteady
  | unregister name => exact h.unregister hsteady
  | heartbeat name now =>
    exact h.watches fun c hc hleft hloop => hloop.adjust (hsteady c hc hleft) _
  | check id now => exact h.check hen.2 now hsteady
  | turn id stamp audience =>
    obtain ⟨c, hc, rfl, hpoint⟩ := hen
    show Tracking cfg ((w.checks.find? _).elim w _)
    rw [Keyed.find?_of_mem h.ids hc]
    exact h.turn hc hpoint stamp (hanswered c hc rfl)
  | resume id =>
    obtain ⟨-, c, hc, rfl, hpoint⟩ := hen
    show Tracking cfg ((w.checks.find? _).elim w _)
    rw [Keyed.find?_of_mem h.ids hc]
    exact h.resume hc hpoint
  | moved current =>
    exact ⟨h.ids, h.alone, fun c hc => (h.checks c hc).congr (List.Subset.refl _) fun _ => id⟩

end Tracking

/-- In every steady run whose events are answered no check fails, what is due in a check is reported
in it, and a check that marks a target stale attempts the escalation. -/
theorem vigilant_of_steady (cfg : WatchdogSettings) (current : RuntimeState)
    (es : List (WatchdogStep τ)) (w : Watchdog τ)
    (hrun : Run.exec (step cfg) (new current) es = some w)
    (hsteady : Run.Along (step cfg) (fun w e w' => Steady w e w' ∧ Answered cfg w e w')
      (new current) es) : Vigilant cfg w :=
  (Run.exec_invariant (Tracking cfg) (fun _ _ _ h hstep hg => h.step hstep hg.1 hg.2) es _ w
    (Tracking.new current) hrun hsteady).vigilant

/-- A watchdog that is wired to a bus and to a runtime. -/
def wired : WatchdogSettings := ⟨true, "process", true⟩

/-- Two targets, the second of which goes stale. The first one checks in during the check. -/
def staleUploader : List (WatchdogStep Nat) :=
  [.register "sensor-reader" 30 0 false, .register "uploader" 5 0 false, .check 0 10,
    .turn 0 10, .turn 0 10, .heartbeat "sensor-reader" 11, .resume 0, .turn 0 11, .resume 0]

theorem vigilant_of_steady_staleUploader :
    ∃ w, Run.exec (step wired) (new .healthy) staleUploader = some w ∧ Vigilant wired w ∧
      w.checks.map (·.newlyStale) = [["uploader"]] ∧ w.current = .failed := by
  have hrun : (Run.exec (step wired) (new .healthy) staleUploader).map
      (fun w => (w.checks.map (·.newlyStale), w.current))
      = some ([["uploader"]], .failed) := by decide +kernel
  obtain ⟨w, hw, hreports⟩ := Option.map_eq_some_iff.mp hrun
  rw [Prod.mk.injEq] at hreports
  exact ⟨w, hw, vigilant_of_steady wired .healthy _ w hw (by decide +kernel), hreports⟩

/-- A target is registered while the stale event of another one is published. The check fails
after it has set the flag, and never asks for FAILED. -/
theorem registration_aborts_check :
    ¬ ∀ (cfg : WatchdogSettings) (current : RuntimeState) (es : List (WatchdogStep Nat))
      (w : Watchdog Nat), Run.exec (step cfg) (new current) es = some w → Vigilant cfg w := by
  intro h
  have hrun : (Run.exec (step wired) (new .healthy)
      [.register "uploader" 5 0 false, .check 0 10, .turn 0 10,
        .register "sensor-reader" 30 10 false, .resume 0, .turn 0 10]).map (·.checks)
      = some [⟨0, 10, ⟨1, 1, 1⟩, ["uploader"], .failed, ["uploader"], some .healthy, false⟩] := by
    decide +kernel
  obtain ⟨w, hw, hchecks⟩ := Option.map_eq_some_iff.mp hrun
  have hescalates := (h wired .healthy _ w hw).escalates
  rw [hchecks] at hescalates
  have hattempted := hescalates _ List.mem_cons_self .healthy rfl (by simp) rfl (by decide)
  cases hattempted

/-- The next check does not take the target up: its flag is set. -/
example : (Run.exec (step wired) (new .healthy)
    [.register "uploader" 5 0 false, .check 0 10, .turn 0 10,
      .register "sensor-reader" 30 10 false, .resume 0, .turn 0 10,
      .check 1 15, .turn 1 15, .turn 1 15, .turn 1 15]).map
        (fun w => (w.checks.map (·.newlyStale), w.current))
    = some ([["uploader"], []], .healthy) := by
  decide +kernel

end EdgeSentinel.Proofs.Process
