import EdgeSentinel.Core.Runtime
import EdgeSentinel.Proofs.Persistence.Database

/-!
# `EdgeSentinel.Proofs.Core.Interruptions`: the interruptions of `start` and `stop`

`Surroundings.notified` is how the notification of a change ends, and `run_setState` executes
`_set_state` accordingly: the machine has moved, whether or not the notification is interrupted.
A script interrupts a call at one point at most, and `handlerFailure_eq` and `busFailure_eq` read
the ending off it.
-/

set_option autoImplicit false

namespace EdgeSentinel.Core

open Async

namespace Surroundings

variable (s : Surroundings)

/-- The first interruption of a handler on the change to `target`. -/
def handlerFailure (target : RuntimeState) : Option Interruption :=
  (List.range s.handlers).findSome? fun i => s.at? (.handler target i)

/-- The interruption at the bus on the change to `target`. -/
def busFailure (target : RuntimeState) : Option Interruption := s.at? (.publish target)

/-- How the notification of the change to `target` ends. -/
def notified (target : RuntimeState) : Outcome Exn Unit :=
  match (s.handlerFailure target).or (s.busFailure target) with
  | none => .returned ()
  | some how => how.outcome

/-- The state when the notification of the change to `target` is over. -/
def settledOn (target : RuntimeState) : RuntimeState :=
  if target = .healthy then s.drifted else target

end Surroundings

end EdgeSentinel.Core

namespace EdgeSentinel.Proofs.Core

open Async EdgeSentinel.Core EdgeSentinel.Persistence EdgeSentinel.Proofs.Persistence

variable {τ : Type} {s : Surroundings}

/-- An interrupted await does not return. -/
theorem outcome_ne_returned (how : Interruption) : how.outcome ≠ .returned () := by
  cases how <;> simp [Interruption.outcome]

/-- The world when the notification of the change to `target` is over. -/
def settle (s : Surroundings) (target : RuntimeState) (w : World τ Host) : World τ Host :=
  { w with current := s.settledOn target }

/-- The background acts once, in the state that is notified. -/
theorem run_background {w : World τ Host} {target : RuntimeState} (h : w.current = target) :
    s.background.run w = (.returned (), settle s target w) := by
  subst h
  simp only [Surroundings.background, Proc.run_modify, settle, Surroundings.settledOn]
  split <;> rfl

/-- A handler that is not interrupted returns. -/
theorem run_handler_of_none {i : Nat} {change : StateChangeEvent τ}
    (h : s.at? (.handler change.current i) = none) (w : World τ Host) :
    (s.handler i change).run w = (.returned (), w) := by
  simp only [Surroundings.handler, h, Proc.run_pure]

theorem run_handler_of_some {i : Nat} {change : StateChangeEvent τ} {how : Interruption}
    (h : s.at? (.handler change.current i) = some how) {w : World τ Host}
    (hw : w.current = change.current) :
    (s.handler i change).run w = (how.outcome, settle s change.current w) := by
  simp only [Surroundings.handler, h]
  rw [Proc.run_bind_of_returned (run_background hw)]
  rfl

/-- The handlers at the positions `is`, on one change. The loop ends at the interrupted
handler, if it is among them. -/
theorem run_handlers (change : StateChangeEvent τ) (is : List Nat) (w : World τ Host)
    (hw : w.current = change.current) :
    (Proc.forEach (is.map s.handler) fun handler => handler change).run w
      = match is.findSome? fun i => s.at? (.handler change.current i) with
        | none => (.returned (), w)
        | some how => (how.outcome, settle s change.current w) := by
  -- A handler that returns leaves the world, so the rest runs on the same `w`.
  induction is with
  | nil => rfl
  | cons i is ih =>
    rw [List.map_cons, Proc.forEach_cons, List.findSome?_cons]
    cases hat : s.at? (.handler change.current i) with
    | none => rw [Proc.run_bind_of_returned (run_handler_of_none hat w), ih]
    | some how =>
      exact Proc.run_bind_of_ne_returned (run_handler_of_some hat hw) (outcome_ne_returned how) _

/-- The publish ends as its point does. -/
theorem run_publish (event : Event τ) {target : RuntimeState} {w : World τ Host}
    (hw : w.current = target) :
    (s.publish event).run w = (match s.busFailure target with
      | none => .returned ()
      | some how => how.outcome, settle s target w) := by
  unfold Surroundings.publish
  rw [Proc.run_bind_of_returned (Proc.run_read w), Proc.run_bind_of_returned (run_background hw),
    hw]
  unfold Surroundings.meet Surroundings.outcomeAt Surroundings.busFailure
  cases s.at? (.publish target) <;> rfl

/-- A notification ends as its points do, in the state where the background has left the
machine. -/
theorem run_notify (component : String) (previous target : RuntimeState) (w : World τ Host)
    (hw : w.current = target) :
    (s.manager.notify component previous target).run w = (s.notified target, settle s target w) := by
  have hloop := run_handlers (s := s) ⟨previous, target, w.clock⟩ (List.range s.handlers) w hw
  rw [show ((List.range s.handlers).findSome? fun i => s.at? (.handler target i))
    = s.handlerFailure target from rfl] at hloop
  unfold LifecycleManager.notify Surroundings.notified
  rw [Proc.run_bind_of_returned (Proc.run_read w)]
  show (Proc.forEach ((List.range s.handlers).map s.handler) _ >>= _).run w = _
  -- The event is published only when the loop over the handlers returns.
  cases hh : s.handlerFailure target with
  | none =>
    rw [hh] at hloop
    rw [Proc.run_bind_of_returned hloop, Proc.run_bind_of_returned (Proc.run_read w)]
    exact run_publish (.stateChange component previous target w.clock) hw
  | some how =>
    rw [hh] at hloop
    exact Proc.run_bind_of_ne_returned hloop (outcome_ne_returned how) _

/-- `_set_state` to a legal target moves the machine and notifies. -/
theorem run_setState {w : World τ Host} {target : RuntimeState} (component : String)
    (h : target ∈ w.current.transitions) :
    (s.manager.setState target component).run w = (s.notified target, settle s target w) := by
  rw [LifecycleManager.run_setState_of_mem _ h]
  exact run_notify component w.current target { w with current := target } rfl

/-! ### The statements -/

/-- The await of a point that is not interrupted. -/
theorem await_of_none {p : Point} (h : s.at? p = none) : s.await p = .waits .ok := by
  simp only [Surroundings.await, h]

/-- The await of an interrupted point does not return. -/
theorem await_ne_returned {p : Point} {how : Interruption} (h : s.at? p = some how) :
    (s.await p).outcome ≠ .returned () := by
  simp only [Surroundings.await, h]
  cases how <;> simp [Await.outcome]

/-- The state when the save is over that was begun in `c`. -/
def movedOn (s : Surroundings) (c : RuntimeState) : RuntimeState :=
  if s.subsystems.isEmpty then c else s.inSave.foldl Move.act c

theorem run_saveRuntimeState_eq (w : World τ Host) :
    s.saveRuntimeState.run w
      = (onDatabase (Database.execute (some (s.name, w.current.value)) (s.await .save))).run
        { w with current := movedOn s w.current } := by
  unfold Surroundings.saveRuntimeState Surroundings.meanwhile movedOn
  rw [Proc.run_bind_of_returned (Proc.run_read w), Proc.run_bind_of_returned (Proc.run_modify _ w)]
  split <;> rfl

/-- The save of the runtime state ends as its await does. It may write to the file. -/
theorem run_saveRuntimeState {w : World τ Host} (hconn : w.host.database.conn = some .autocommit)
    (hfree : w.host.database.locked = false) :
    ∃ disk, s.saveRuntimeState.run w = ((s.await .save).outcome,
      { w with
        current := movedOn s w.current
        host := { w.host with database := { w.host.database with disk := disk } } }) := by
  have hexec : (Database.execute (some (s.name, w.current.value)) (s.await .save)).run
      w.host.database = _ := run_execute hconn hfree _ _
  rw [run_saveRuntimeState_eq]
  simp only [onDatabase, hexec]
  split
  · exact ⟨_, rfl⟩
  · exact ⟨w.host.database.disk, rfl⟩

/-! ### One interruption -/

section
variable {s : Script}

theorem at?_of_none (h : s.failure = none) (q : Point) : s.at? q = none := by
  rw [s.at?_eq, h]
  rfl

theorem at?_of_failure {p : Point} {how : Interruption} (h : s.failure = some (p, how)) (q : Point)
    (hq : ∀ target, q ≠ .publish target) : s.at? q = if p = q then some how else none := by
  rw [s.at?_eq, h]
  show (if p = q then how.onQuietBus p else none) = _
  split
  · rename_i hpq
    subst hpq
    cases p with
    | publish target => exact absurd rfl (hq target)
    | _ => rfl
  · rfl

/-- The interrupted handler among the handlers at the positions `is`. -/
theorem findSome?_handlers (target : RuntimeState) (is : List Nat) :
    (is.findSome? fun i => s.at? (.handler target i))
      = match s.failure with
        | some (.handler t i, how) => if t = target ∧ i ∈ is then some how else none
        | _ => none := by
  cases hf : s.failure with
  | none => simp [at?_of_none hf]
  | some failure =>
    obtain ⟨p, how⟩ := failure
    have hat (i : Nat) : s.at? (.handler target i)
        = if p = .handler target i then some how else none := at?_of_failure hf _ nofun
    simp only [hat]
    cases p with
    | handler t j =>
      -- The induction is on the positions; only the interrupted one answers.
      induction is with
      | nil => simp
      | cons i is ih =>
        rw [List.findSome?_cons, ih]
        by_cases hj : t = target ∧ j = i
        · simp [hj.1, hj.2]
        · have hne : ¬ (Point.handler t j = Point.handler target i) := by simpa using hj
          have hiff : (t = target ∧ j ∈ i :: is) ↔ (t = target ∧ j ∈ is) := by
            rw [List.mem_cons]
            constructor
            · rintro ⟨ht, hji | hji⟩
              · exact absurd ⟨ht, hji⟩ hj
              · exact ⟨ht, hji⟩
            · rintro ⟨ht, hji⟩
              exact ⟨ht, Or.inr hji⟩
          simp only [if_neg hne, hiff]
    | _ => simp

theorem handlerFailure_eq (target : RuntimeState) :
    s.handlerFailure target = match s.failure with
      | some (.handler t i, how) => if t = target ∧ i < s.handlers then some how else none
      | _ => none := by
  unfold Surroundings.handlerFailure
  rw [findSome?_handlers]
  simp only [List.mem_range]

theorem busFailure_eq (target : RuntimeState) :
    s.busFailure target = match s.failure with
      | some (.publish t, .cancelled job) => if t = target then some (.cancelled job) else none
      | _ => none := by
  unfold Surroundings.busFailure
  rw [s.at?_eq]
  cases s.failure with
  | none => rfl
  | some failure =>
    obtain ⟨p, how⟩ := failure
    show (if p = .publish target then how.onQuietBus p else none) = _
    cases p with
    | publish t =>
      by_cases ht : t = target <;> cases how <;> simp [ht, Interruption.onQuietBus]
    | _ => simp

end

end EdgeSentinel.Proofs.Core
