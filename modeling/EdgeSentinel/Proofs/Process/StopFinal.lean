import EdgeSentinel.Proofs.Process.Turns

/-!
# `EdgeSentinel.Proofs.Process.StopFinal`: after `stop` the function is not invoked again

`Final` reads the history of a supervisor. After `stop` has been called on a running
supervisor, and until the next `start`, no loop invokes or restarts the function and none
escalates.

`stop` delivers one `CancelledError` to the loop. A function that turns it into a normal return
or into another exception looks to the loop like a function that has exited, and the loop
restarts it (`swallowed_cancellation_restarts`). `final_of_letsThrough` proves `Final` for the
runs in which the function lets the `CancelledError` of `stop` through.
-/

set_option autoImplicit false

namespace EdgeSentinel.Proofs.Process

open EdgeSentinel.Core
open EdgeSentinel.Process
open EdgeSentinel.Process.Supervisor

variable {τ : Type} {cfg : SupervisorSettings}

/-! ### Histories -/

/-- Since the last `stop` of a running supervisor there was no `start`. -/
def Stopped (history : List Action) : Prop :=
  ∃ before id after, history = before ++ .stopped id :: after ∧
    ∀ a ∈ after, ∀ id, a ≠ .started id

/-- No work is done between a `stop` and the next `start`. -/
def Final (history : List Action) : Prop :=
  ∀ before a after, history = before ++ a :: after → Stopped before → ¬ IsWork a

theorem not_stopped_nil : ¬ Stopped [] := by
  rintro ⟨before, id, after, h, -⟩
  simp at h

theorem final_nil : Final [] := by
  intro before a after h
  simp at h

/-- The last action of a history is its own, or the history was stopped before it. -/
theorem stopped_snoc {history : List Action} {a : Action} (h : Stopped (history ++ [a])) :
    (∃ id, a = .stopped id) ∨ (Stopped history ∧ ∀ id, a ≠ .started id) := by
  obtain ⟨before, id, after, heq, hafter⟩ := h
  rcases List.eq_nil_or_concat after with rfl | ⟨init, last, rfl⟩
  · obtain ⟨-, hlast⟩ := List.append_inj' heq rfl
    exact Or.inl ⟨id, List.head_eq_of_cons_eq hlast⟩
  · have heq' : history ++ [a] = (before ++ .stopped id :: init) ++ [last] := by simpa using heq
    obtain ⟨hinit, hlast⟩ := List.append_inj' heq' rfl
    obtain rfl : a = last := List.head_eq_of_cons_eq hlast
    exact Or.inr ⟨⟨before, id, init, hinit, fun b hb => hafter b (by simp [hb])⟩,
      hafter a (by simp)⟩

/-- A history stays final when no work is added to a stopped one. -/
theorem Final.snoc {history : List Action} (h : Final history) {a : Action}
    (ha : Stopped history → ¬ IsWork a) : Final (history ++ [a]) := by
  intro before b after heq hstopped
  rcases List.eq_nil_or_concat after with rfl | ⟨init, last, rfl⟩
  · obtain ⟨rfl, hlast⟩ := List.append_inj' heq rfl
    obtain rfl : a = b := List.head_eq_of_cons_eq hlast
    exact ha hstopped
  · have heq' : history ++ [a] = (before ++ b :: init) ++ [last] := by simpa using heq
    obtain ⟨hinit, -⟩ := List.append_inj' heq' rfl
    exact h before b init hinit hstopped

/-- Work at the end of a running history leaves it running and final. -/
theorem Final.append_work {history : List Action} (h : Final history)
    (hrunning : ¬ Stopped history) :
    ∀ {work : List Action}, (∀ a ∈ work, IsWork a) →
      Final (history ++ work) ∧ ¬ Stopped (history ++ work) := by
  intro work
  induction work generalizing history with
  | nil =>
    intro _
    rw [List.append_nil]
    exact ⟨h, hrunning⟩
  | cons a work ih =>
    intro hwork
    rw [List.append_cons]
    refine ih (h.snoc fun hstopped => absurd hstopped hrunning) ?_
      fun b hb => hwork b (List.mem_cons_of_mem a hb)
    intro hstopped
    rcases stopped_snoc hstopped with ⟨id, rfl⟩ | ⟨hstopped, -⟩
    · exact hwork (.stopped id) List.mem_cons_self
    · exact hrunning hstopped

/-! ### The invariant -/

/-- The function lets the `CancelledError` that it has received through. -/
def LetsThrough (w : Supervisor τ) : SupervisorStep τ → Supervisor τ → Prop
  | .resume id a, _ => ∀ l ∈ w.loops, l.id = id → l.cancellation = .delivered →
      l.point = .running → a.outcome = .cancelled
  | _, _ => True

instance (w : Supervisor τ) : ∀ e w', Decidable (LetsThrough w e w')
  | .resume id a, _ => inferInstanceAs (Decidable (∀ l ∈ w.loops, l.id = id →
      l.cancellation = .delivered → l.point = .running → a.outcome = .cancelled))
  | .start _, _ | .stop, _ | .moved _, _ => isTrue trivial

/-- A loop that has not ended is the one in `_task`, or its cancellation is on the way to it,
or its function has the `CancelledError`. -/
def Accounted (w : Supervisor τ) (l : Loop) : Prop :=
  l.isAlive → w.task = some l.id ∨ l.cancellation = .requested ∨
    (l.cancellation = .delivered ∧ l.point = .running)

/-- The invariant behind `Final`. -/
structure Halts (w : Supervisor τ) : Prop where
  ids : (w.loops.map (·.id)).Nodup
  loops : ∀ l ∈ w.loops, Accounted w l
  stopped : Stopped w.history → w.task = none
  final : Final w.history

theorem Halts.new (current : RuntimeState) : Halts (Supervisor.new (τ := τ) current) where
  ids := List.nodup_nil
  loops := by simp [Supervisor.new]
  stopped h := absurd h not_stopped_nil
  final := final_nil

namespace Halts

variable {w : Supervisor τ}

theorem start (h : Halts w) {id : Nat} (hid : id ∉ w.loops.map (·.id)) :
    Halts (w.start id) := by
  unfold Supervisor.start
  split
  · exact h
  · rename_i hnone
    have htask : w.task = none := by simpa using hnone
    refine ⟨?_, ?_, ?_, h.final.snoc fun _ => not_false⟩
    · exact Keyed.nodup_append h.ids hid
    · intro l hl halive
      rcases List.mem_append.mp hl with hl | hl
      · rcases h.loops l hl halive with hin | hrest
        · rw [htask] at hin
          cases hin
        · exact Or.inr hrest
      · rw [List.mem_singleton.mp hl]
        exact Or.inl rfl
    · intro hstopped
      rcases stopped_snoc hstopped with ⟨id', heq⟩ | ⟨-, hne⟩
      · cases heq
      · exact absurd rfl (hne id)

theorem stop (h : Halts w) : Halts w.stop := by
  unfold Supervisor.stop
  split
  · exact h
  · rename_i id htask
    refine ⟨?_, ?_, fun _ => rfl, h.final.snoc fun _ => not_false⟩
    · rw [Keyed.map_key_map fun l => by split <;> rfl]
      exact h.ids
    · intro l hl halive
      obtain ⟨l₀, hl₀, rfl⟩ := List.mem_map.mp hl
      -- The loop in `_task` is cancelled. The others were cancelled before.
      by_cases hthis : l₀.id = id ∧ l₀.isAlive
      · rw [if_pos hthis]
        exact Or.inr (Or.inl rfl)
      · simp only [if_neg hthis] at halive ⊢
        rcases h.loops l₀ hl₀ halive with hin | hrest
        · rw [htask] at hin
          exact absurd ⟨(Option.some.inj hin).symm, halive⟩ hthis
        · exact Or.inr hrest

/-- A turn without work keeps the invariant, when its loop stays accounted for. -/
theorem turn {w' : Supervisor τ} {l l' : Loop} {actions : List Action} (h : Halts w)
    (hturn : Turn w l l' actions w') (hl' : Accounted w' l')
    (hothers : ∀ x ∈ w.loops, x.id ≠ l.id → w.task = some x.id → w'.task = w.task)
    (hwork : actions = [] ∨ ¬ Stopped w.history) : Halts w' := by
  -- Work is done only while the history has not stopped, and it leaves that so.
  have hfinal : Final w'.history ∧ (Stopped w'.history → w.task = none) := by
    rw [hturn.history]
    rcases hwork with rfl | hrunning
    · simpa using ⟨h.final, h.stopped⟩
    · obtain ⟨hfinal, hstill⟩ := h.final.append_work hrunning hturn.work
      exact ⟨hfinal, fun hstopped => absurd hstopped hstill⟩
  refine ⟨?_, ?_, ?_, hfinal.1⟩
  · rw [hturn.loops, Keyed.map_key_replace hturn.id]
    exact h.ids
  · intro x hx
    rw [hturn.loops] at hx
    rcases Keyed.mem_replace hx with rfl | ⟨hx, hne⟩
    · exact hl'
    · intro halive
      rcases h.loops x hx halive with hin | hrest
      · rw [hothers x hx hne hin]
        exact Or.inl hin
      · exact Or.inr hrest
  · intro hstopped
    rw [hturn.task, hfinal.2 hstopped]
    split <;> rfl

/-- The loop `l` resumes. The cases follow its cancellation. -/
theorem resume (h : Halts w) {l : Loop} (hl : l ∈ w.loops) (halive : l.isAlive)
    {a : LoopAnswer τ} (hlets : l.cancellation = .delivered → l.point = .running →
      a.outcome = .cancelled) : Halts (resume cfg w l a) := by
  have hended : ∀ {w' : Supervisor τ} {l' : Loop}, l'.point = .ended .cancelled →
      Accounted w' l' := by
    intro w' l' hend halive'
    simp [Loop.isAlive, hend] at halive'
  have htask : ∀ {w' : Supervisor τ} {l' : Loop} {actions : List Action},
      Turn w l l' actions w' → l'.point ≠ .ended .gaveUp → w'.task = w.task := by
    intro w' l' actions hturn hne
    rw [hturn.task, if_neg hne]
  unfold Supervisor.resume
  split
  · -- The cancellation is delivered: to the function, or else it ends the loop.
    obtain ⟨l', hturn, -, ⟨-, hrun, hdelivered⟩ | ⟨hend, -⟩⟩ := deliver_turn w l
    · exact h.turn hturn (fun _ => Or.inr (Or.inr ⟨hdelivered, hrun⟩))
        (fun _ _ _ _ => htask hturn (by rw [hrun]; decide)) (Or.inl rfl)
    · exact h.turn hturn (hended hend) (fun _ _ _ _ => htask hturn (by rw [hend]; decide))
        (Or.inl rfl)
  · rename_i hnot
    rcases h.loops l hl halive with hin | hreq | ⟨hdelivered, hrun⟩
    · -- The loop in `_task` may do what it likes.
      have hrunning : ¬ Stopped w.history := by
        intro hstopped
        rw [h.stopped hstopped] at hin
        cases hin
      obtain ⟨l', actions, hturn, -, -, -⟩ := proceed_turn cfg w halive a
      refine h.turn hturn (fun halive' => Or.inl ?_) ?_ (Or.inr hrunning)
      · have hne : l'.point ≠ .ended .gaveUp := by
          intro hgave
          simp [Loop.isAlive, hgave] at halive'
        rw [htask hturn hne, hin, hturn.id]
      · intro x _ hne hx
        rw [hin] at hx
        exact absurd (Option.some.inj hx).symm hne
    · exact absurd hreq hnot
    · -- A function that has the `CancelledError` lets it through.
      exact h.turn (cancelled_turn cfg w hrun (hlets hdelivered hrun)) (hended rfl)
        (fun _ _ _ _ => htask (cancelled_turn cfg w hrun (hlets hdelivered hrun)) (by simp))
        (Or.inl rfl)

theorem step (h : Halts w) {e : SupervisorStep τ} {w' : Supervisor τ}
    (hstep : step cfg w e = some w') (hlets : LetsThrough w e w') : Halts w' := by
  obtain ⟨hen, rfl⟩ := Run.guarded_eq_some.mp hstep
  cases e with
  | start id => exact h.start hen
  | stop => exact h.stop
  | resume id a =>
    obtain ⟨l, hl, rfl, halive⟩ := hen
    rw [next_resume h.ids hl]
    exact h.resume hl halive (hlets l hl rfl)
  | moved current => exact ⟨h.ids, h.loops, h.stopped, h.final⟩

end Halts

/-- In every run in which the function lets the `CancelledError` of `stop` through, no work is
done between a `stop` and the next `start`. -/
theorem final_of_letsThrough (cfg : SupervisorSettings) (current : RuntimeState)
    (es : List (SupervisorStep τ)) (w : Supervisor τ)
    (hrun : Run.exec (step cfg) (new current) es = some w)
    (hlets : Run.Along (step cfg) LetsThrough (new current) es) : Final w.history :=
  (Run.exec_invariant Halts (fun _ _ _ h hstep hg => h.step hstep hg) es _ w
    (Halts.new current) hrun hlets).final

/-- A supervisor that restarts its function after one second. -/
def serialReader : SupervisorSettings where
  name := "serial-reader"
  backoff := ⟨.fixed, 1, 30, false, by decide, by decide⟩
  hasEvents := false
  hasSetState := false
  crashes_pos := by decide
  window_pos := by decide

/-- The loop resumes at time `now`, and its function, if it is awaited, ends so. -/
def answer (outcome : FuncEnd) (now : ℚ) : LoopAnswer Nat :=
  { outcome := outcome, now := now, draw := ⟨0, by decide⟩, stamp := 0 }

/-- `stop` finds the loop in the function, and the function lets the `CancelledError` through. -/
theorem final_of_letsThrough_serialReader :
    ∃ w, Run.exec (step serialReader) (new .healthy)
        [.start 0, .resume 0 (answer .returned 0), .stop, .resume 0 (answer .returned 1),
          .resume 0 (answer .cancelled 1)] = some w ∧
      Final w.history ∧ w.history = [.started 0, .invoked 0, .stopped 0] := by
  have hrun : (Run.exec (step serialReader) (new .healthy)
      [.start 0, .resume 0 (answer .returned 0), .stop, .resume 0 (answer .returned 1),
        .resume 0 (answer .cancelled 1)]).map (fun w => w.history)
      = some [.started 0, .invoked 0, .stopped 0] := by decide +kernel
  obtain ⟨w, hw, hhistory⟩ := Option.map_eq_some_iff.mp hrun
  exact ⟨w, hw, final_of_letsThrough serialReader .healthy _ w hw (by decide +kernel), hhistory⟩

/-- The function catches the `CancelledError`, cleans up and returns. The loop restarts it. -/
theorem swallowed_cancellation_restarts :
    ¬ ∀ (cfg : SupervisorSettings) (current : RuntimeState) (es : List (SupervisorStep Nat))
      (w : Supervisor Nat), Run.exec (step cfg) (new current) es = some w → Final w.history := by
  intro h
  have hrun : (Run.exec (step serialReader) (new .healthy)
      [.start 0, .resume 0 (answer .returned 0), .stop, .resume 0 (answer .returned 1),
        .resume 0 (answer .returned 1), .resume 0 (answer .returned 2)]).map
      (fun w => w.history)
      = some [.started 0, .invoked 0, .stopped 0, .restarted 0, .invoked 0] := by
    decide +kernel
  obtain ⟨w, hw, hhistory⟩ := Option.map_eq_some_iff.mp hrun
  have hfinal := h serialReader .healthy _ w hw
  rw [hhistory] at hfinal
  refine hfinal [.started 0, .invoked 0, .stopped 0, .restarted 0] (.invoked 0) [] rfl ?_ trivial
  exact ⟨[.started 0, .invoked 0], 0, [.restarted 0], rfl, by simp⟩

end EdgeSentinel.Proofs.Process
