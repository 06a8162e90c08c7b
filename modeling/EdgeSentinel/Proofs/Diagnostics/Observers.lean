import EdgeSentinel.Diagnostics.Observers
import EdgeSentinel.Proofs.Core.Publication
import Mathlib.Data.List.Count
import Mathlib.Logic.Function.Iterate

/-!
# `EdgeSentinel.Proofs.Diagnostics.Observers`: an observer hears what happens while it is attached

`heard` is what an observer should hear: the events that are published on its bus while it is
attached, and the calls of its methods. It needs one flag, and no list of handlers.

`Watched` relates the flag to the lists: an attached observer stands in the list of its bus once,
and in no other, and a detached one nowhere. This needs that an observer is attached to one bus
only, which is `AtHome`. `observers_hear` is the result for every run. The handlers of the
application are the ones that it would have without any observer.
-/

set_option autoImplicit false

namespace EdgeSentinel.Proofs.Diagnostics

open EdgeSentinel.Core EdgeSentinel.Diagnostics

variable {ι κ β ε γ σ : Type} [DecidableEq ι] [DecidableEq κ]

section
variable [DecidableEq β]

/-! ### What there is to hear -/

/-- An observer is attached to its own bus and detached from it, and from no other. -/
def AtHome (home : ι → β) : WatchEvent ι κ β ε γ → Prop
  | .attach i b => b = home i
  | .detach i b => b = home i
  | _ => True

/-- The observer is attached after the event. -/
def attachedAfter (i : ι) (attached : Bool) : WatchEvent ι κ β ε γ → Bool
  | .attach j _ => if j = i then true else attached
  | .detach j _ => if j = i then false else attached
  | _ => attached

/-- What the observer hears of an event: an event on its bus, or a call of a method. -/
def hears (home : ι → β) (i : ι) (attached : Bool) : WatchEvent ι κ β ε γ → List (ε ⊕ γ)
  | .publish b event => if attached && b = home i then [.inl event] else []
  | .call j method => if j = i then [.inr method] else []
  | _ => []

/-- What the observer hears of a run. -/
def heard (home : ι → β) (i : ι) : Bool → List (WatchEvent ι κ β ε γ) → List (ε ⊕ γ)
  | _, [] => []
  | attached, e :: es => hears home i attached e ++ heard home i (attachedAfter i attached e) es

omit [DecidableEq κ] in
/-- What is heard was published. -/
theorem exists_publish_of_mem_heard {home : ι → β} {i : ι} {event : ε}
    {es : List (WatchEvent ι κ β ε γ)} :
    ∀ {attached : Bool}, .inl event ∈ heard home i attached es → ∃ b, .publish b event ∈ es := by
  induction es with
  | nil => exact fun h => absurd h List.not_mem_nil
  | cons e es ih =>
    intro attached h
    rcases List.mem_append.mp h with h | h
    · cases e with
      | publish b event' =>
        simp only [hears] at h
        split at h
        · obtain rfl : event = event' := by simpa using h
          exact ⟨b, List.mem_cons_self⟩
        · simp at h
      | call j method =>
        simp only [hears] at h
        split at h <;> simp at h
      | _ => simp [hears] at h
    · obtain ⟨b, hb⟩ := ih h
      exact ⟨b, List.mem_cons_of_mem e hb⟩

/-- The callables of the application on a bus, as its own calls make them. -/
def callablesAfter (b : β) (bus : EventBus κ) : WatchEvent ι κ β ε γ → EventBus κ
  | .subscribe b' f => if b' = b then bus.subscribe f else bus
  | .unsubscribe b' f => if b' = b then bus.unsubscribe f else bus
  | _ => bus

end

/-! ### The lists of handlers -/

/-- The callables in a list of handlers. -/
def callablesOf (handlers : List (BusHandler ι κ)) : List κ :=
  handlers.filterMap fun
    | .onEvent _ => none
    | .callable f => some f

theorem callables_erase_onEvent (handlers : List (BusHandler ι κ)) (i : ι) :
    callablesOf (handlers.erase (.onEvent i)) = callablesOf handlers := by
  induction handlers with
  | nil => rfl
  | cons handler handlers ih =>
    by_cases h : handler = .onEvent i
    · subst h
      simp [callablesOf]
    · rw [List.erase_cons_tail (by simpa using h)]
      unfold callablesOf at ih ⊢
      simp only [List.filterMap_cons, ih]

theorem callables_erase_callable (handlers : List (BusHandler ι κ)) (f : κ) :
    callablesOf (handlers.erase (.callable f)) = (callablesOf handlers).erase f := by
  induction handlers with
  | nil => rfl
  | cons handler handlers ih =>
    cases handler with
    | onEvent i =>
      rw [List.erase_cons_tail (by simp)]
      exact ih
    | callable g =>
      by_cases h : g = f
      · subst h
        simp [callablesOf]
      · rw [List.erase_cons_tail (by simpa using h)]
        have hcons : ∀ handlers : List (BusHandler ι κ),
            callablesOf (.callable g :: handlers) = g :: callablesOf handlers := fun _ => rfl
        rw [hcons, hcons, List.erase_cons_tail (by simpa using h), ih]

/-- A publication calls each observer as often as it stands in the list. -/
theorem foldl_handle (B : Behaviour ι ε γ σ) (event : ε) (handlers : List (BusHandler ι κ)) :
    ∀ w : Watching ι κ β σ,
      (handlers.foldl (Watching.handle B event) w).bus = w.bus ∧
      (handlers.foldl (Watching.handle B event) w).handler = w.handler ∧
      ∀ i, (handlers.foldl (Watching.handle B event) w).observer i
        = Nat.iterate (fun s => B.onEvent i s event) (handlers.count (.onEvent i))
            (w.observer i) := by
  induction handlers with
  | nil => exact fun w => ⟨rfl, rfl, fun _ => rfl⟩
  | cons handler handlers ih =>
    intro w
    obtain ⟨hbus, hhandler, hobserver⟩ := ih (Watching.handle B event w handler)
    rw [List.foldl_cons]
    refine ⟨hbus.trans ?_, hhandler.trans ?_, fun i => (hobserver i).trans ?_⟩
    · cases handler <;> rfl
    · cases handler <;> rfl
    · cases handler with
      | callable f => simp [Watching.handle]
      | onEvent j =>
        by_cases h : j = i
        · subst h
          simp [Watching.handle, Function.iterate_succ]
        · simp [Watching.handle, h, Ne.symm h]

variable [DecidableEq β]

/-- A `publish` that its handlers answer with awaitables calls the observers that a run calls. -/
theorem next_publish_of_awaitables {τ : Type} (B : Behaviour ι (Event τ) γ σ)
    (w : Watching ι κ β σ) (b : β) (event : Event τ)
    {answer : Nat → HandlerCall (BusHandler ι κ) ε} (h : Awaitables (w.bus b) answer) :
    w.next B (.publish b event)
      = (Publication.publish (w.bus b) event answer).called.foldl
          (fun w call => w.handle B call.2 call.1) w := by
  have hbegun := Proofs.Core.publish_begun (w.bus b) event h
  rw [hbegun.called, List.foldl_map]
  rfl

/-- What the flags of the observers and the calls of the application say about the buses. -/
structure Watched (home : ι → β) (attached : ι → Bool) (application : β → EventBus κ)
    (w : Watching ι κ β σ) : Prop where
  handler : ∀ i, w.handler i = if attached i then some (.onEvent i) else none
  count : ∀ b i, (w.bus b).handlers.count (.onEvent i) = if attached i && b = home i then 1 else 0
  callables : ∀ b, callablesOf (w.bus b).handlers = (application b).handlers

namespace Watched

variable {B : Behaviour ι ε γ σ} {home : ι → β} {attached : ι → Bool}
  {application : β → EventBus κ} {w : Watching ι κ β σ}

/-- The observer `i` and its bus change, and on the bus only the place of `i`. -/
theorem rewire (h : Watched home attached application w) {i : ι} (on : Bool)
    {bus : EventBus (BusHandler ι κ)}
    (hself : bus.handlers.count (.onEvent i) = if on then 1 else 0)
    (hothers : ∀ j, j ≠ i → bus.handlers.count (.onEvent j)
      = (w.bus (home i)).handlers.count (.onEvent j))
    (hcallables : callablesOf bus.handlers = callablesOf (w.bus (home i)).handlers) :
    Watched home (fun j => if i = j then on else attached j) application
      { w with
        handler := Function.update w.handler i (if on then some (.onEvent i) else none)
        bus := Function.update w.bus (home i) bus } := by
  refine ⟨fun j => ?_, fun b j => ?_, fun b => ?_⟩
  · by_cases hj : j = i
    · subst hj
      simp
    · simpa [hj, Ne.symm hj] using h.handler j
  · have hcount := h.count b j
    by_cases hb : b = home i
    · subst hb
      by_cases hj : j = i
      · subst hj
        simpa using hself
      · simpa [hj, Ne.symm hj, hothers j hj] using hcount
    · by_cases hj : j = i
      · -- On the other buses the observer stands nowhere.
        subst hj
        simpa [hb] using hcount
      · simpa [hb, hj, Ne.symm hj] using hcount
  · by_cases hb : b = home i
    · subst hb
      simpa [hcallables] using h.callables (home i)
    · simpa [hb] using h.callables b

/-- The observer stands in its bus once when it is attached. -/
theorem count_home (h : Watched home attached application w) (i : ι) :
    (w.bus (home i)).handlers.count (.onEvent i) = if attached i then 1 else 0 := by
  simpa using h.count (home i) i

/-- `attach` subscribes a detached observer, and leaves an attached one. -/
theorem attach (h : Watched home attached application w) (i : ι) :
    Watched home (fun j => attachedAfter j (attached j)
        (.attach i (home i) : WatchEvent ι κ β ε γ)) application
      (w.next B (.attach i (home i))) := by
  have hhome := h.count_home i
  cases hi : attached i with
  | true =>
    have hattach : Diagnostics.attach (.onEvent i) (w.handler i) (w.bus (home i))
        = (some (.onEvent i), w.bus (home i)) := by
      rw [h.handler, hi]
      rfl
    rw [hi] at hhome
    simp only [Watching.next, hattach]
    exact h.rewire true hhome (fun _ _ => rfl) rfl
  | false =>
    have hattach : Diagnostics.attach (.onEvent i) (w.handler i) (w.bus (home i))
        = (some (.onEvent i), (w.bus (home i)).subscribe (.onEvent i)) := by
      rw [h.handler, hi]
      rfl
    rw [hi] at hhome
    simp only [Watching.next, hattach]
    refine h.rewire true ?_ (fun j hj => ?_) ?_
    · simpa [EventBus.subscribe] using hhome
    · simp [EventBus.subscribe, Ne.symm hj]
    · simp [EventBus.subscribe, callablesOf]

/-- `detach` removes an attached observer, and leaves a detached one. -/
theorem detach (h : Watched home attached application w) (i : ι) :
    Watched home (fun j => attachedAfter j (attached j)
        (.detach i (home i) : WatchEvent ι κ β ε γ)) application
      (w.next B (.detach i (home i))) := by
  have hhome := h.count_home i
  cases hi : attached i with
  | false =>
    have hdetach : Diagnostics.detach (w.handler i) (w.bus (home i))
        = (none, w.bus (home i)) := by
      rw [h.handler, hi]
      rfl
    rw [hi] at hhome
    simp only [Watching.next, hdetach]
    exact h.rewire false hhome (fun _ _ => rfl) rfl
  | true =>
    have hdetach : Diagnostics.detach (w.handler i) (w.bus (home i))
        = (none, (w.bus (home i)).unsubscribe (.onEvent i)) := by
      rw [h.handler, hi]
      rfl
    rw [hi] at hhome
    simp only [Watching.next, hdetach]
    -- The one occurrence goes.
    refine h.rewire false ?_ (fun j hj => ?_) ?_
    · simp [EventBus.unsubscribe, List.count_erase_self, hhome]
    · simp [EventBus.unsubscribe, hj]
    · simp [EventBus.unsubscribe, callables_erase_onEvent]

/-- One event. -/
theorem next (h : Watched home attached application w) {e : WatchEvent ι κ β ε γ}
    (hhome : AtHome home e) :
    Watched home (fun i => attachedAfter i (attached i) e)
        (fun b => callablesAfter b (application b) e) (w.next B e) ∧
      ∀ i, (w.next B e).observer i
        = (hears home i (attached i) e).foldl (B.take i) (w.observer i) := by
  have hwatched := h
  obtain ⟨hhandler, hcount, hcallables⟩ := h
  cases e with
  | attach i b =>
    obtain rfl : b = home i := hhome
    exact ⟨hwatched.attach i, fun _ => rfl⟩
  | detach i b =>
    obtain rfl : b = home i := hhome
    exact ⟨hwatched.detach i, fun _ => rfl⟩
  | subscribe b f =>
    refine ⟨⟨hhandler, fun b' i => ?_, fun b' => ?_⟩, fun _ => rfl⟩
    · by_cases hb : b' = b
      · subst hb
        simpa [Watching.next, EventBus.subscribe, attachedAfter] using hcount b' i
      · simpa [Watching.next, hb, attachedAfter] using hcount b' i
    · by_cases hb : b' = b
      · subst hb
        simpa [Watching.next, EventBus.subscribe, callablesAfter, callablesOf] using hcallables b'
      · simpa [Watching.next, hb, Ne.symm hb, callablesAfter] using hcallables b'
  | unsubscribe b f =>
    refine ⟨⟨hhandler, fun b' i => ?_, fun b' => ?_⟩, fun _ => rfl⟩
    · by_cases hb : b' = b
      · subst hb
        simpa [Watching.next, EventBus.unsubscribe, attachedAfter] using hcount b' i
      · simpa [Watching.next, hb, attachedAfter] using hcount b' i
    · by_cases hb : b' = b
      · subst hb
        simp [Watching.next, EventBus.unsubscribe, callablesAfter, callables_erase_callable,
          hcallables]
      · simpa [Watching.next, hb, Ne.symm hb, callablesAfter] using hcallables b'
  | publish b event =>
    -- An attached observer has one handler on the bus, so it takes the event once.
    obtain ⟨hbus, hsame, hobserver⟩ := foldl_handle B event (w.bus b).handlers w
    refine ⟨⟨fun i => ?_, fun b' i => ?_, fun b' => ?_⟩, fun i => ?_⟩
    · exact (congrFun hsame i).trans (hhandler i)
    · exact (congrArg (fun bus => (bus b').handlers.count (.onEvent i)) hbus).trans (hcount b' i)
    · exact (congrArg (fun bus => callablesOf (bus b').handlers) hbus).trans (hcallables b')
    · refine (hobserver i).trans ?_
      rw [hcount]
      simp only [hears]
      split <;> rfl
  | call i method =>
    refine ⟨⟨hhandler, hcount, hcallables⟩, fun j => ?_⟩
    by_cases hj : i = j
    · subst hj
      simp [Watching.next, hears, Behaviour.take]
    · simp [Watching.next, hears, hj, Ne.symm hj]

/-- In the beginning nobody is attached. -/
theorem initially (home : ι → β) (init : ι → σ) :
    Watched home (fun _ => false) (fun _ => {})
      ({ observer := init } : Watching ι κ β σ) :=
  ⟨fun _ => rfl, fun _ _ => rfl, fun _ => rfl⟩

/-- A run. -/
theorem run (es : List (WatchEvent ι κ β ε γ)) :
    ∀ (attached : ι → Bool) (application : β → EventBus κ) (w : Watching ι κ β σ),
      Watched home attached application w → (∀ e ∈ es, AtHome home e) →
      (∀ i, (es.foldl (Watching.next B) w).observer i
        = (heard home i (attached i) es).foldl (B.take i) (w.observer i)) ∧
      ∀ b, callablesOf ((es.foldl (Watching.next B) w).bus b).handlers
        = (es.foldl (callablesAfter b) (application b)).handlers := by
  -- The flags and the callables go along with the buses.
  induction es with
  | nil => exact fun _ _ _ h _ => ⟨fun _ => rfl, h.callables⟩
  | cons e es ih =>
    intro attached application w h hhome
    obtain ⟨hnext, hobserver⟩ := h.next (B := B) (hhome e List.mem_cons_self)
    obtain ⟨hrest, hcallables⟩ := ih _ _ _ hnext fun e' he' => hhome e' (List.mem_cons_of_mem e he')
    refine ⟨fun i => ?_, hcallables⟩
    rw [List.foldl_cons, hrest, hobserver, heard, List.foldl_append]

end Watched

/-- An observer hears exactly what happens while it is attached. Take any run of attaching and
detaching, of subscribing and unsubscribing by the application, and of publications, in which each
observer is attached to its own bus only. Every observer is called once for each event that is
published on its bus while it is attached, in order, and never otherwise. The handlers of the
application on each bus are the ones that its own calls have made. -/
theorem observers_hear (home : ι → β) (B : Behaviour ι ε γ σ) (init : ι → σ)
    (es : List (WatchEvent ι κ β ε γ)) (hhome : ∀ e ∈ es, AtHome home e) :
    (∀ i, (Watching.after B init es).observer i
      = (heard home i false es).foldl (B.take i) (init i)) ∧
    ∀ b, callablesOf ((Watching.after B init es).bus b).handlers
      = (es.foldl (callablesAfter b) {}).handlers :=
  Watched.run es _ _ _ (Watched.initially home init) hhome

/-- An observer that keeps what it hears. -/
def keeping : Behaviour Unit Nat Unit (List Nat) where
  onEvent _ kept event := kept ++ [event]
  call _ kept _ := kept

/-- It is attached twice and detached once, between three events. -/
def attachedTwice : List (WatchEvent Unit Nat Unit Nat Unit) :=
  [.publish () 1, .attach () (), .subscribe () 7, .attach () (), .publish () 2, .detach () (),
    .publish () 3]

/-- The second event is heard, once. -/
theorem observers_hear_attachedTwice :
    (Watching.after keeping (fun _ => []) attachedTwice).observer () = [2] ∧
      callablesOf ((Watching.after keeping (fun _ => []) attachedTwice).bus ()).handlers = [7] := by
  obtain ⟨hobserver, hcallables⟩ := observers_hear (fun _ => ()) keeping (fun _ => [])
    attachedTwice (by simp [attachedTwice, AtHome])
  exact ⟨(hobserver ()).trans rfl, (hcallables ()).trans rfl⟩

end EdgeSentinel.Proofs.Diagnostics
