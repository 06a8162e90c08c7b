import EdgeSentinel.Monitoring.Polling

/-!
# `EdgeSentinel.Proofs.Monitoring.OneLoop`: at most one poll loop per monitor

`OneLoop` is the contract of `start` and `stop` for all four monitors. The code breaks it: two
calls of `start` that find `_task` empty both create a loop, and `stop` during the initial
check finds nothing to cancel. Either way a loop is left that no `stop` reaches.

`oneLoop_of_alone` proves the contract for the runs in which an initial check ends only while
no loop is alive and the most recent call was no `stop`. The invariant `Held` says who has an
alive loop in hand: `_task`, or a `stop` that awaits it.
-/

set_option autoImplicit false

namespace EdgeSentinel.Proofs.Monitoring

open EdgeSentinel.Monitoring
open EdgeSentinel.Monitoring.Polling (step)

variable {m : Poller}

/-- At most one loop is alive. When no call of `start` or `stop` is in progress and the most
recent one was a `stop`, none is. -/
structure OneLoop (w : Polling) : Prop where
  atMostOne : w.loops.length ≤ 1
  stopped : w.starting = [] → w.stopping = [] → w.stopped = true → w.loops = []

/-- An initial check ends only while no loop is alive and the most recent call was no `stop`. -/
def Alone (w : Polling) : PollingStep → Polling → Prop
  | .checked _, _ => w.loops = [] ∧ w.stopped = false
  | _, _ => True

instance (w : Polling) : ∀ e w', Decidable (Alone w e w')
  | .checked _, _ => inferInstanceAs (Decidable (w.loops = [] ∧ w.stopped = false))
  | .start _, _ | .checkRaised _, _ | .stop _, _ | .ended _, _ | .stopReturned _, _ =>
    isTrue trivial

/-- The invariant. An alive loop is the one of `_task`, or a `stop` awaits it. -/
structure Held (w : Polling) : Prop where
  atMostOne : w.loops.length ≤ 1
  held : ∀ l ∈ w.loops, w.task = some l.id ∨ ∃ s ∈ w.stopping, s.loop = l.id
  stopped : w.stopped = true → w.task = none
  ids : (w.stopping.map (·.id)).Nodup

theorem Held.new : Held {} where
  atMostOne := Nat.zero_le 1
  held := by simp
  stopped := nofun
  ids := List.nodup_nil

namespace Held

variable {w : Polling}

theorem oneLoop (h : Held w) : OneLoop w where
  atMostOne := h.atMostOne
  stopped _ hstopping hstopped := by
    rw [List.eq_nil_iff_forall_not_mem]
    intro l hl
    rcases h.held l hl with htask | ⟨s, hs, -⟩
    · rw [h.stopped hstopped] at htask
      cases htask
    · rw [hstopping] at hs
      cases hs

theorem start (h : Held w) (id : Nat) : Held (w.start id) := by
  unfold Polling.start
  split
  · exact ⟨h.atMostOne, h.held, nofun, h.ids⟩
  · exact ⟨h.atMostOne, h.held, nofun, h.ids⟩

/-- The loop of a `start` is created alone. -/
theorem createLoop (h : Held w) (id : Nat) (halone : w.loops = [] ∧ w.stopped = false) :
    Held (w.createLoop id) := by
  obtain ⟨hnone, hstopped⟩ := halone
  refine ⟨?_, ?_, ?_, h.ids⟩
  · show ({ id := id } :: w.loops).length ≤ 1
    rw [hnone]
    exact Nat.le_refl 1
  · intro l hl
    have hl' : l ∈ ({ id := id } : PollLoop) :: w.loops := hl
    rw [hnone, List.mem_singleton] at hl'
    rw [hl']
    exact Or.inl rfl
  · intro htrue
    have htrue' : w.stopped = true := htrue
    rw [hstopped] at htrue'
    cases htrue'

/-- `stop` takes the loop of `_task` in hand. -/
theorem stop (h : Held w) {id : Nat} (hid : id ∉ w.stopping.map (·.id)) : Held (w.stop id) := by
  unfold Polling.stop
  split
  · rename_i htask
    exact ⟨h.atMostOne, h.held, fun _ => htask, h.ids⟩
  · rename_i loop htask
    refine ⟨?_, ?_, fun _ => rfl, List.nodup_cons.mpr ⟨hid, h.ids⟩⟩
    · show (w.loops.map _).length ≤ 1
      rw [List.length_map]
      exact h.atMostOne
    · intro l hl
      obtain ⟨l₀, hl₀, rfl⟩ := List.mem_map.mp hl
      have hkey : (if l₀.id = loop then { l₀ with cancelled := true } else l₀).id = l₀.id := by
        split <;> rfl
      right
      rw [hkey]
      rcases h.held l₀ hl₀ with hin | ⟨s, hs, hloop⟩
      · rw [htask] at hin
        exact ⟨⟨id, loop⟩, List.mem_cons_self, Option.some.inj hin⟩
      · exact ⟨s, List.mem_cons_of_mem _ hs, hloop⟩

/-- A loop that ends leaves the others in hand. -/
theorem ended (h : Held w) (loop : Nat) :
    Held { w with loops := w.loops.filter (·.id ≠ loop) } :=
  ⟨Nat.le_trans (List.length_filter_le _ _) h.atMostOne,
    fun l hl => h.held l (List.mem_filter.mp hl).1, h.stopped, h.ids⟩

/-- A `stop` returns when the loop it awaits is no longer alive. -/
theorem stopReturned (h : Held w) {id : Nat}
    (hs : ∃ s ∈ w.stopping, s.id = id ∧ s.loop ∉ w.loops.map (·.id)) :
    Held { w with stopping := w.stopping.filter (·.id ≠ id) } := by
  obtain ⟨s, hs, rfl, hgone⟩ := hs
  refine ⟨h.atMostOne, ?_, h.stopped, (List.filter_sublist.map _).nodup h.ids⟩
  intro l hl
  rcases h.held l hl with hin | ⟨s', hs', hloop⟩
  · exact Or.inl hin
  · refine Or.inr ⟨s', List.mem_filter.mpr ⟨hs', ?_⟩, hloop⟩
    have hne : s'.id ≠ s.id := by
      intro heq
      obtain rfl := Keyed.eq_of_key_eq h.ids hs' hs heq
      exact hgone (hloop ▸ List.mem_map_of_mem hl)
    simpa using hne

theorem step (h : Held w) {e : PollingStep} {w' : Polling} (hstep : step m w e = some w')
    (halone : Alone w e w') : Held w' := by
  obtain ⟨hen, rfl⟩ := Run.guarded_eq_some.mp hstep
  cases e with
  | start id => exact h.start id
  | checked id => exact h.createLoop id halone
  | checkRaised id => exact ⟨h.atMostOne, h.held, h.stopped, h.ids⟩
  | stop id => exact h.stop hen
  | ended loop => exact h.ended loop
  | stopReturned id => exact h.stopReturned hen

end Held

/-- In every run whose loops are created alone, at most one loop is alive, and none after the
last `stop`. -/
theorem oneLoop_of_alone (m : Poller) (es : List PollingStep) (w : Polling)
    (hrun : Run.exec (step m) {} es = some w) (halone : Run.Along (step m) Alone {} es) :
    OneLoop w :=
  (Run.exec_invariant Held (fun _ _ _ h hstep hg => h.step hstep hg) es _ w Held.new hrun
    halone).oneLoop

/-- A monitor is started twice and stopped, one call after the other. -/
def startTwiceAndStop : List PollingStep :=
  [.start 0, .checked 0, .start 1, .stop 2, .ended 0, .stopReturned 2]

theorem oneLoop_of_alone_startTwiceAndStop :
    Run.exec (step NetworkMonitor.poller) {} startTwiceAndStop = some { stopped := true } ∧
      OneLoop { stopped := true } := by
  have hrun : Run.exec (step NetworkMonitor.poller) {} startTwiceAndStop
      = some { stopped := true } := by decide
  exact ⟨hrun, oneLoop_of_alone NetworkMonitor.poller startTwiceAndStop _ hrun (by decide)⟩

/-- Two calls of `start` that await their initial checks create two loops. `_task` has the
second one, and `stop` leaves the first one alive. -/
theorem concurrent_starts_orphan_loop :
    ¬ ∀ (m : Poller) (es : List PollingStep) (w : Polling),
      Run.exec (step m) {} es = some w → OneLoop w := by
  intro h
  have hrun : Run.exec (step NetworkMonitor.poller) {}
      [.start 0, .start 1, .checked 0, .checked 1, .stop 2, .ended 1, .stopReturned 2]
      = some { loops := [⟨0, false⟩], stopped := true } := by decide
  have hone := (h _ _ _ hrun).stopped rfl rfl rfl
  cases hone

end EdgeSentinel.Proofs.Monitoring
