import Mathlib.Algebra.Ring.Nat
import EdgeSentinel.Core.EventBus

/-!
# `EdgeSentinel.Proofs.Core.Publication`: handlers that fail, and the publisher

A handler that raises in its task is contained by `gather`. One that raises when it is called, or
whose call returns no awaitable, is not: `publish` raises, and the handlers after it do not run.
So a publication is delivered exactly when every call of a handler returns an awaitable
(`publish_delivers_iff`).

`Underway` is what a run of a publication keeps that has called all handlers. An exception of
`publish` stays (`raised_of_run`). Each move lowers the number of the moves that remain
(`remaining_lt`).
-/

set_option autoImplicit false

namespace EdgeSentinel.Proofs.Core

open Run
open EdgeSentinel.Core
open EdgeSentinel.Core.Publication

variable {η ε τ : Type} {answer : Nat → HandlerCall η ε}

/-! ### Calling the handlers -/

section
variable [DecidableEq η]

/-- A call that raises ends the calls. -/
theorem callHandlers_cons_of_raised {handler : η} {handlers : List η} {position : Nat}
    {p : Publication η ε τ} {e : ε} (he : (answer position).result = .raised e) :
    (callHandlers answer (handler :: handlers) position p).2 = .error e := by
  rw [callHandlers]
  simp only [he]

/-- A call that does not raise is followed by the others. -/
theorem callHandlers_cons_of_not_raised (handler : η) (handlers : List η) {position : Nat}
    (p : Publication η ε τ) (hno : ∀ e, (answer position).result ≠ .raised e) :
    ∃ p' : Publication η ε τ, p'.called = p.called ++ [(handler, p.event)] ∧ p'.event = p.event ∧
      p'.outcome = p.outcome ∧
      (callHandlers answer (handler :: handlers) position p).1
        = (callHandlers answer handlers (position + 1) p').1 ∧
      (callHandlers answer (handler :: handlers) position p).2
        = (callHandlers answer handlers (position + 1) p').2.map
            ((position, (answer position).result) :: ·) := by
  refine ⟨{ p with bus := (answer position).made.foldl EventBus.apply p.bus
                   called := p.called ++ [(handler, p.event)] }, rfl, rfl, rfl, ?_⟩
  rw [callHandlers]
  generalize (answer position).result = result at hno ⊢
  cases result with
  | raised e => exact absurd rfl (hno e)
  | value =>
    dsimp only
    split <;> rename_i heq <;> rw [heq] <;> exact ⟨rfl, rfl⟩
  | awaitable turns ends =>
    dsimp only
    split <;> rename_i heq <;> rw [heq] <;> exact ⟨rfl, rfl⟩

/-- Calls that do not raise go through the whole list. -/
theorem callHandlers_of_not_raised (handlers : List η) :
    ∀ (position : Nat) (p : Publication η ε τ),
      (∀ i, position ≤ i → i < position + handlers.length → ∀ e, (answer i).result ≠ .raised e) →
      (callHandlers answer handlers position p).2
          = .ok ((List.range' position handlers.length).map fun i => (i, (answer i).result)) ∧
        (callHandlers answer handlers position p).1.called
          = p.called ++ handlers.map (fun handler => (handler, p.event)) ∧
        (callHandlers answer handlers position p).1.outcome = p.outcome := by
  induction handlers with
  | nil =>
    intro position p _
    exact ⟨rfl, (List.append_nil _).symm, rfl⟩
  | cons handler handlers ih =>
    intro position p hno
    rw [List.length_cons] at hno
    obtain ⟨p', hcalled, hevent, houtcome, hfst, hsnd⟩ :=
      callHandlers_cons_of_not_raised handler handlers p (hno position (le_refl _) (by omega))
    obtain ⟨hresults, hcalls, hsame⟩ :=
      ih (position + 1) p' fun i hi hi' => hno i (by omega) (by omega)
    refine ⟨?_, ?_, ?_⟩
    · rw [hsnd, hresults]
      rfl
    · rw [hfst, hcalls, hcalled, hevent, List.append_assoc]
      rfl
    · rw [hfst, hsame, houtcome]

/-- A call that raises is one that the calls get to. -/
theorem callHandlers_of_raised (handlers : List η) :
    ∀ (position : Nat) (p : Publication η ε τ) (i : Nat) (e : ε),
      position ≤ i → i < position + handlers.length → (answer i).result = .raised e →
      ∃ e', (callHandlers answer handlers position p).2 = .error e' := by
  induction handlers with
  | nil =>
    intro position p i e hle hlt _
    rw [List.length_nil] at hlt
    omega
  | cons handler handlers ih =>
    intro position p i e hle hlt he
    by_cases hraised : ∃ e', (answer position).result = .raised e'
    · obtain ⟨e', he'⟩ := hraised
      exact ⟨e', callHandlers_cons_of_raised he'⟩
    · obtain ⟨p', -, -, -, -, hsnd⟩ :=
        callHandlers_cons_of_not_raised handler handlers p (not_exists.mp hraised)
      have hne : position ≠ i := by
        rintro rfl
        exact hraised ⟨e, he⟩
      rw [List.length_cons] at hlt
      obtain ⟨e', he'⟩ := ih (position + 1) p' i e (by omega) (by omega) he
      exact ⟨e', by rw [hsnd, he']; rfl⟩

end

/-! ### The tasks -/

/-- Awaitables become tasks, one each. -/
theorem ensureFutures_of_awaitable (results : List (Nat × CallResult η ε))
    (h : ∀ r ∈ results, r.2.isAwaitable = true) :
    (ensureFutures results).2 = .ok () ∧
      (ensureFutures results).1.map (·.position) = results.map (·.1) := by
  induction results with
  | nil => exact ⟨rfl, rfl⟩
  | cons r results ih =>
    obtain ⟨position, result⟩ := r
    obtain ⟨hok, hpositions⟩ := ih fun r hr => h r (List.mem_cons_of_mem _ hr)
    have hawaitable := h _ List.mem_cons_self
    cases result with
    | value => cases hawaitable
    | raised e => cases hawaitable
    | awaitable turns ends =>
      exact ⟨hok, congrArg (position :: ·) hpositions⟩

/-- A value that is not awaitable is an exception of `gather`. -/
theorem ensureFutures_of_not_awaitable (results : List (Nat × CallResult η ε))
    (h : ∃ r ∈ results, r.2.isAwaitable = false) :
    ∃ e, (ensureFutures results).2 = .error e := by
  induction results with
  | nil => simp at h
  | cons r results ih =>
    obtain ⟨position, result⟩ := r
    cases result with
    | value => exact ⟨.awaitableRequired, rfl⟩
    | raised e => exact ⟨.awaitableRequired, rfl⟩
    | awaitable turns ends =>
      refine ih ?_
      simpa [CallResult.isAwaitable] using h

/-- No task has taken a turn. -/
theorem ensureFutures_ended (results : List (Nat × CallResult η ε)) :
    ∀ t ∈ (ensureFutures results).1, t.ended = false := by
  induction results with
  | nil => simp [ensureFutures]
  | cons r results ih =>
    obtain ⟨position, result⟩ := r
    cases result with
    | value => simp [ensureFutures]
    | raised e => simp [ensureFutures]
    | awaitable turns ends =>
      intro t ht
      rcases List.mem_cons.mp ht with rfl | ht
      · rfl
      · exact ih t ht

/-! ### Up to the await -/

section
variable [DecidableEq η] (bus : EventBus η) (event : Event τ)

/-- `publish` when its calls return awaitables: every handler has been called, and there is a task
for each. -/
structure Begun (bus : EventBus η) (event : Event τ) (p : Publication η ε τ) : Prop where
  called : p.called = bus.handlers.map fun handler => (handler, event)
  positions : p.tasks.map (·.position) = List.range bus.handlers.length
  outcome : p.outcome = none ∨ (p.outcome = some (.ok ()) ∧ p.tasks = [])
  fresh : ∀ t ∈ p.tasks, t.ended = false

/-- An exception of a call is one of `publish`. -/
theorem publish_of_raised {e : ε}
    (h : (callHandlers answer bus.handlers 0
      ({ bus := bus, event := event } : Publication η ε τ)).2 = .error e) :
    (publish bus event answer).outcome = some (.error (.handler e)) := by
  unfold publish
  dsimp only
  rw [if_neg]
  · revert h
    cases callHandlers answer bus.handlers 0 ({ bus := bus, event := event } :
      Publication η ε τ) with
    | mk p results =>
      rintro rfl
      rfl
  · intro hempty
    rw [hempty] at h
    cases h

/-- Otherwise the results are those of the calls, for `gather`. -/
theorem publish_of_results {results : List (Nat × CallResult η ε)} (hne : bus.handlers ≠ [])
    (h : (callHandlers answer bus.handlers 0
      ({ bus := bus, event := event } : Publication η ε τ)).2 = .ok results) :
    (publish bus event answer).called = (callHandlers answer bus.handlers 0
        ({ bus := bus, event := event } : Publication η ε τ)).1.called ∧
      (publish bus event answer).tasks = (ensureFutures results).1 ∧
      (publish bus event answer).outcome = match (ensureFutures results).2 with
        | .ok () => (callHandlers answer bus.handlers 0
            ({ bus := bus, event := event } : Publication η ε τ)).1.outcome
        | .error e => some (.error e) := by
  unfold publish
  dsimp only
  rw [if_neg hne]
  revert h
  cases callHandlers answer bus.handlers 0 ({ bus := bus, event := event } :
    Publication η ε τ) with
  | mk p results' =>
    rintro rfl
    dsimp only
    cases ensureFutures results with
    | mk tasks ends => cases ends <;> exact ⟨rfl, rfl, rfl⟩

theorem publish_begun (h : Awaitables bus answer) : Begun bus event (publish bus event answer) := by
  by_cases hempty : bus.handlers = []
  · unfold publish
    dsimp only
    rw [if_pos hempty]
    exact ⟨by rw [hempty]; rfl, by rw [hempty]; rfl, Or.inr ⟨rfl, rfl⟩, by simp⟩
  · have hno : ∀ i, 0 ≤ i → i < 0 + bus.handlers.length → ∀ e, (answer i).result ≠ .raised e := by
      intro i _ hi e he
      have hawaitable := h i (by omega)
      rw [he] at hawaitable
      cases hawaitable
    obtain ⟨hresults, hcalled, hnone⟩ := callHandlers_of_not_raised bus.handlers 0
      ({ bus := bus, event := event } : Publication η ε τ) hno
    obtain ⟨hcalls, htasks, houtcome⟩ := publish_of_results bus event hempty hresults
    have hawaitable : ∀ r ∈ (List.range' 0 bus.handlers.length).map fun i =>
        (i, (answer i).result), r.2.isAwaitable = true := by
      intro r hr
      obtain ⟨i, hi, rfl⟩ := List.mem_map.mp hr
      exact h i (by simpa using hi)
    obtain ⟨hok, hpositions⟩ := ensureFutures_of_awaitable _ hawaitable
    constructor
    · rw [hcalls, hcalled]
      rfl
    · rw [htasks, hpositions, List.map_map, List.range_eq_range']
      exact List.map_id _
    · rw [houtcome, hok]
      exact Or.inl hnone
    · rw [htasks]
      exact ensureFutures_ended _

/-- `publish` raises when one of its calls returns no awaitable. -/
theorem publish_raises (h : ¬ Awaitables bus answer) :
    ∃ e, (publish bus event answer).outcome = some (.error e) := by
  obtain ⟨i, hi⟩ := Classical.not_forall.mp h
  obtain ⟨hi, hnot⟩ := Classical.not_imp.mp hi
  have hne : bus.handlers ≠ [] := by
    intro hempty
    rw [hempty] at hi
    exact absurd hi (Nat.not_lt_zero i)
  -- A call that raises ends `publish` before `gather`. Else `gather` comes to a value.
  by_cases hraised : ∃ j < bus.handlers.length, ∃ e, (answer j).result = .raised e
  · obtain ⟨j, hj, e, he⟩ := hraised
    obtain ⟨e', he'⟩ := callHandlers_of_raised bus.handlers 0
      ({ bus := bus, event := event } : Publication η ε τ) j e (by omega) (by omega) he
    exact ⟨_, publish_of_raised bus event he'⟩
  · have hno : ∀ i, 0 ≤ i → i < 0 + bus.handlers.length → ∀ e, (answer i).result ≠ .raised e :=
      fun j _ hj e he => hraised ⟨j, by omega, e, he⟩
    obtain ⟨hresults, -, -⟩ := callHandlers_of_not_raised bus.handlers 0
      ({ bus := bus, event := event } : Publication η ε τ) hno
    obtain ⟨-, -, houtcome⟩ := publish_of_results bus event hne hresults
    obtain ⟨e, he⟩ := ensureFutures_of_not_awaitable
      ((List.range' 0 bus.handlers.length).map fun i => (i, (answer i).result))
      ⟨(i, (answer i).result), List.mem_map.mpr ⟨i, by simpa using hi, rfl⟩, by simpa using hnot⟩
    exact ⟨e, by rw [houtcome, he]⟩

end

/-- What a publisher sees: `publish` raises no exception exactly when its audience answers with
awaitables. -/
theorem raised_eq_none_iff (a : Audience ε) (event : Event τ) :
    a.raised event = none ↔ a.Awaitables := by
  constructor
  · intro hnone
    by_contra hnot
    obtain ⟨e, he⟩ := publish_raises a.bus event hnot
    rw [Audience.raised, he] at hnone
    cases hnone
  · intro hawaitables
    rcases (publish_begun a.bus event hawaitables).outcome with hnone | ⟨hreturned, -⟩
    · rw [Audience.raised, hnone]
    · rw [Audience.raised, hreturned]

/-- A bus with a handler that takes no arguments. -/
def uncallable : Audience String where
  bus := ⟨[0]⟩
  answer _ := { result := .raised "takes 0 arguments" }

/-! ### From the await on -/

/-- The moves that remain for a task. -/
def movesLeft (t : Task η ε) : Nat := if t.ended then 0 else t.turns.length + 1

/-- The moves that remain. -/
def remaining (p : Publication η ε τ) : Nat :=
  (p.tasks.map movesLeft).sum + if p.outcome.isNone then 1 else 0

/-- A turn of a task: the next one, or its end. -/
inductive Turned (t : Task η ε) : Task η ε → Prop where
  | ends (h : t.turns = []) : Turned t { t with ended := true }
  | goesOn (turn : List (BusCall η)) (turns : List (List (BusCall η)))
      (h : t.turns = turn :: turns) : Turned t { t with turns := turns }

theorem Turned.position {t t' : Task η ε} (h : Turned t t') : t'.position = t.position := by
  cases h <;> rfl

theorem Turned.turns_of_ended {t t' : Task η ε} (h : Turned t t') (hrunning : t.ended = false)
    (hended : t'.ended = true) : t'.turns = [] := by
  cases h with
  | ends hturns => exact hturns
  | goesOn turn turns hturns => simp [hrunning] at hended

theorem Turned.movesLeft_lt {t t' : Task η ε} (h : Turned t t') (hrunning : t.ended = false) :
    movesLeft t' < movesLeft t := by
  cases h with
  | ends hturns => simp [movesLeft, hrunning]
  | goesOn turn turns hturns => simp [movesLeft, hrunning, hturns]

theorem sum_map_set_lt {α : Type} (f : α → Nat) {xs : List α} {k : Nat} {x x' : α}
    (hx : xs[k]? = some x) (hlt : f x' < f x) : ((xs.set k x').map f).sum < (xs.map f).sum := by
  induction xs generalizing k with
  | nil => simp at hx
  | cons y xs ih =>
    cases k with
    | zero =>
      obtain rfl : y = x := by simpa using hx
      simpa using hlt
    | succ k =>
      have hrest := ih (k := k) (by simpa using hx)
      simpa using hrest

theorem map_set_eq {α β : Type} (f : α → β) {xs : List α} {k : Nat} {x x' : α}
    (hx : xs[k]? = some x) (heq : f x' = f x) : (xs.set k x').map f = xs.map f := by
  obtain ⟨hk, rfl⟩ := List.getElem?_eq_some_iff.mp hx
  have hk' : k < (xs.map f).length := by simpa using hk
  have hmap : f xs[k] = (xs.map f)[k] := (List.getElem_map f).symm
  rw [List.map_set, heq, hmap, List.set_getElem_self]

/-- A publication that has begun, along its run: the calls and the tasks stay, and `publish` has
returned only when all tasks have ended. -/
structure Underway (bus : EventBus η) (event : Event τ) (p : Publication η ε τ) : Prop where
  called : p.called = bus.handlers.map fun handler => (handler, event)
  positions : p.tasks.map (·.position) = List.range bus.handlers.length
  outcome : p.outcome = none ∨ (p.outcome = some (.ok ()) ∧ p.tasks.all (·.ended) = true)
  ran : ∀ t ∈ p.tasks, t.ended = true → t.turns = []

theorem Begun.underway {bus : EventBus η} {event : Event τ} {p : Publication η ε τ}
    (h : Begun bus event p) :
    Underway bus event p where
  called := h.called
  positions := h.positions
  outcome := h.outcome.imp_right fun ⟨hreturned, htasks⟩ => ⟨hreturned, by simp [htasks]⟩
  ran t ht hended := by simp [h.fresh t ht] at hended

section
variable [DecidableEq η] {p p' : Publication η ε τ}

/-- What a move does. -/
theorem step_cases {m : Publication.Move} (h : step p m = some p') :
    (∃ k t t', m = .turn k ∧ p.tasks[k]? = some t ∧ t.ended = false ∧ Turned t t' ∧
      p'.tasks = p.tasks.set k t' ∧ p'.called = p.called ∧ p'.outcome = p.outcome) ∨
    (m = .resume ∧ p.outcome = none ∧ p.tasks.all (·.ended) = true ∧
      p' = { p with outcome := some (.ok ()), logged := p.records }) := by
  cases m with
  | turn k =>
    simp only [step] at h
    split at h
    · cases h
    · rename_i t ht
      split at h
      · cases h
      · rename_i hrunning
        have hrunning : t.ended = false := by simpa using hrunning
        split at h
        · rename_i hturns
          cases h
          exact Or.inl ⟨k, t, _, rfl, ht, hrunning, .ends hturns, rfl, rfl, rfl⟩
        · rename_i turn turns hturns
          cases h
          exact Or.inl ⟨k, t, _, rfl, ht, hrunning, .goesOn turn turns hturns, rfl, rfl, rfl⟩
  | resume =>
    simp only [step] at h
    split at h
    · rename_i hcond
      cases h
      exact Or.inr ⟨rfl, hcond.1, hcond.2, rfl⟩
    · cases h

/-- Each move lowers the number of the moves that remain. -/
theorem remaining_lt (p : Publication η ε τ) (m : Publication.Move) (p' : Publication η ε τ)
    (h : step p m = some p') : remaining p' < remaining p := by
  rcases step_cases h with
    ⟨k, t, t', -, ht, hrunning, hturned, htasks, -, houtcome⟩ | ⟨-, hnone, -, rfl⟩
  · have hlt := sum_map_set_lt movesLeft ht (hturned.movesLeft_lt hrunning)
    unfold remaining
    rw [htasks, houtcome]
    omega
  · simp [remaining, hnone]

/-- An exception of `publish` stays. -/
theorem raised_of_run {e : PublishError ε} (hraised : p.outcome = some (.error e))
    {ms : List Publication.Move} (h : exec Publication.step p ms = some p') :
    p'.outcome = some (.error e) := by
  refine exec_invariant_of_step (fun q => q.outcome = some (.error e)) ?_ ms p p' hraised h
  intro q m q' hq hstep
  rcases step_cases hstep with ⟨k, t, t', -, -, -, -, -, -, houtcome⟩ | ⟨-, hnone, -, -⟩
  · rw [houtcome, hq]
  · rw [hnone] at hq
    cases hq

theorem Underway.step {bus : EventBus η} {event : Event τ} (hunder : Underway bus event p)
    {m : Publication.Move} (h : step p m = some p') : Underway bus event p' := by
  rcases step_cases h with
    ⟨k, t, t', -, ht, hrunning, hturned, htasks, hcalled, houtcome⟩ | ⟨-, -, hall, rfl⟩
  · constructor
    · rw [hcalled, hunder.called]
    · rw [htasks, map_set_eq _ ht hturned.position, hunder.positions]
    · refine Or.inl (houtcome.trans (hunder.outcome.resolve_right ?_))
      -- A task that takes a turn has not ended.
      rintro ⟨-, hall⟩
      have hended := List.all_eq_true.mp hall t (List.mem_of_getElem? ht)
      simp [hrunning] at hended
    · intro x hx hended
      rw [htasks] at hx
      rcases List.mem_or_eq_of_mem_set hx with hx | rfl
      · exact hunder.ran x hx hended
      · exact hturned.turns_of_ended hrunning hended
  · exact ⟨hunder.called, hunder.positions, Or.inr ⟨rfl, hall⟩, hunder.ran⟩

end

/-! ### The publication -/

section
variable [DecidableEq η]

/-- The publication has been delivered: `publish` has returned, each handler of the copy has been
called once with the event, and the awaitables that were returned have run to their ends. -/
structure Delivered (bus : EventBus η) (event : Event τ) (answer : Nat → HandlerCall η ε)
    (p : Publication η ε τ) : Prop where
  returned : p.outcome = some (.ok ())
  called : p.called = bus.handlers.map fun handler => (handler, event)
  ended : ∀ i < bus.handlers.length, (answer i).result.isAwaitable = true →
    ∃ t ∈ p.tasks, t.position = i ∧ t.turns = [] ∧ t.ended = true

/-- In a settled publication all tasks have ended, and `publish` does not await them. -/
theorem settled_cases {p : Publication η ε τ} (h : Settled Publication.step p) :
    p.tasks.all (·.ended) = true ∧ p.outcome ≠ none := by
  -- A task that has not ended could take a turn.
  have hall : p.tasks.all (·.ended) = true := by
    rw [List.all_eq_true]
    intro t ht
    obtain ⟨k, hk⟩ := List.getElem?_of_mem ht
    by_contra hrunning
    have hnone := h (.turn k)
    simp only [Publication.step, hk, hrunning] at hnone
    cases hturns : t.turns <;> simp [hturns] at hnone
  refine ⟨hall, fun hnone => ?_⟩
  -- And when all tasks have ended, `publish` could resume.
  have hresume := h .resume
  simp [Publication.step, hnone, hall] at hresume

theorem delivered_of_settled {bus : EventBus η} {event : Event τ} {p : Publication η ε τ}
    (hunder : Underway bus event p) (hsettled : Settled Publication.step p) :
    Delivered bus event answer p := by
  obtain ⟨hall, houtcome⟩ := settled_cases hsettled
  refine ⟨(hunder.outcome.resolve_left houtcome).1, hunder.called, fun i hi _ => ?_⟩
  have hmem : i ∈ p.tasks.map (·.position) := by
    rw [hunder.positions]
    exact List.mem_range.mpr hi
  obtain ⟨t, ht, rfl⟩ := List.mem_map.mp hmem
  have hended := List.all_eq_true.mp hall t ht
  exact ⟨t, ht, rfl, hunder.ran t ht hended, hended⟩

/-- However the tasks take their turns, a publication comes to its end. It has then been
delivered, whatever the order, exactly when each call of a handler returns an awaitable. -/
theorem publish_delivers_iff (bus : EventBus η) (event : Event τ)
    (answer : Nat → HandlerCall η ε) :
    (∀ ms p, exec Publication.step (publish bus event answer) ms = some p →
      ms.length + remaining p ≤ remaining (publish bus event answer)) ∧
    ((∀ ms p, exec Publication.step (publish bus event answer) ms = some p →
        Settled Publication.step p → Delivered bus event answer p) ↔
      ∀ i < bus.handlers.length, (answer i).result.isAwaitable = true) := by
  refine ⟨fun ms p h => exec_length_le remaining_lt ms _ p h, ?_, ?_⟩
  · intro hdelivers
    by_contra hnot
    obtain ⟨e, he⟩ := publish_raises bus event hnot
    -- Some run comes to its end, and the exception is still there.
    obtain ⟨ms, p, hrun, hsettled⟩ := exists_settled remaining_lt (publish bus event answer)
    have hreturned := (hdelivers ms p hrun hsettled).returned
    rw [raised_of_run he hrun] at hreturned
    cases hreturned
  · intro hawaitables ms p hrun hsettled
    have hunder := exec_invariant_of_step (Underway bus event) (fun _ _ _ h hstep => h.step hstep)
      ms _ p (publish_begun bus event hawaitables).underway hrun
    exact delivered_of_settled hunder hsettled

end

/-- The first of two handlers does not accept one argument. `publish` raises its `TypeError`, and
the second handler is not called. -/
theorem uncallable_crashes :
    let p : Publication String String Nat := publish ⟨["audit()", "upload"]⟩
      { type := "noted", component := "runtime", timestamp := 0 }
      fun i => if i = 0 then ⟨[], .raised "takes 0 arguments"⟩ else ⟨[], .awaitable [] .completed⟩
    p.outcome = some (.error (.handler "takes 0 arguments")) ∧
      p.called.map (·.1) = ["audit()"] ∧ Settled Publication.step p ∧
      ¬ Delivered ⟨["audit()", "upload"]⟩
        { type := "noted", component := "runtime", timestamp := 0 }
        (fun i => if i = 0 then ⟨[], .raised "takes 0 arguments"⟩
          else ⟨[], .awaitable [] .completed⟩) p := by
  refine ⟨rfl, rfl, ?_, fun h => ?_⟩
  · rintro (k | _) <;> rfl
  · cases h.returned

end EdgeSentinel.Proofs.Core
