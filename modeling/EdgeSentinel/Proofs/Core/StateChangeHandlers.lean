import EdgeSentinel.Core.Lifecycle

/-!
# `EdgeSentinel.Proofs.Core.StateChangeHandlers`: observers of a transition

`_set_state` awaits the registered handlers after the machine has moved and before it
publishes the `state_change` event. It does not guard the handler call. So a handler that
raises ends the transition: the later handlers are not awaited, nothing is published, and
`_set_state` raises.

A handler is given by its behaviour: for each change, the exception that it raises, or
none. `observed` builds the lifecycle manager of a list of such handlers. Its host logs
each handler call and each published event.

`setState_undisturbed_iff` proves that a legal transition is undisturbed if and only if no
handler raises on that change, and that boot and shutdown end as without handlers if and only if
no handler raises on a change that they make (`changesOf`). The hook of boot or shutdown may move
the state itself (`HookStep.setState`, a subsystem that logs what its `set_state` raises), so the
comparison of the two runs is a simulation. Handlers that never raise leave the same world up to
the log of their calls (`SameButAwaited`, `sim_setState`, `sim_runHook`). A handler that raises
keeps an event from being published, and the run stays behind from then on (`Behind`, `Tracks`).
-/

set_option autoImplicit false

namespace EdgeSentinel.Proofs.Core

open Async
open EdgeSentinel.Core
open EdgeSentinel.Core.LifecycleManager (run_setState_of_mem run_setState_self
  run_setState_of_not_mem)

variable {τ ρ : Type}

/-- The host of an observed lifecycle: the handler calls and the published events, in
order, and the state `inner` of the hooks. -/
structure Observed (τ ρ : Type) where
  awaited : List (Nat × StateChangeEvent τ)
  published : List (Event τ)
  inner : ρ

/-- What a handler does when it is called: the exception it raises, or `none`. -/
abbrev Behaviour (τ : Type) : Type := StateChangeEvent τ → Option Exn

/-- The handler at position `i`, with the given behaviour. -/
def observer (i : Nat) (behaviour : Behaviour τ) (change : StateChangeEvent τ) :
    CoreProc τ (Observed τ ρ) Unit := do
  modifyHost fun h => { h with awaited := h.awaited ++ [(i, change)] }
  match behaviour change with
  | none => return
  | some e => Proc.raise e

/-- The lifecycle manager with these handlers, in registration order. -/
def observed (behaviours : List (Behaviour τ)) : LifecycleManager τ (Observed τ ρ) where
  stateChangeHandlers := behaviours.zipIdx.map fun b => observer b.2 b.1
  publish event := modifyHost fun h => { h with published := h.published ++ [event] }

/-- One await of a boot or shutdown hook. -/
inductive HookStep (ρ : Type) where
  /-- A subsystem's `set_state`. The subsystem logs what it raises. -/
  | setState (target : RuntimeState) (component : String)
  /-- Any other await: it reads the runtime's state and ends in one of the three ways. -/
  | act (f : RuntimeState → ρ → Outcome Exn Unit × ρ)

/-- Run one step of a hook. -/
def HookStep.proc (m : LifecycleManager τ (Observed τ ρ)) :
    HookStep ρ → CoreProc τ (Observed τ ρ) Unit
  | .setState target component => Proc.tryExcept (m.setState target component) fun _ => pure ()
  | .act f => ⟨fun w =>
    ((f w.current w.host.inner).1,
      { w with host := { w.host with inner := (f w.current w.host.inner).2 } })⟩

/-- Run a hook. -/
def runHook (m : LifecycleManager τ (Observed τ ρ)) (hook : List (HookStep ρ)) :
    CoreProc τ (Observed τ ρ) Unit :=
  Proc.forEach hook fun step => step.proc m

/-- The transition from `w` to `target` is undisturbed by the handlers: `_set_state`
returns, each handler is awaited once, in registration order, and one event is published. -/
def Undisturbed (behaviours : List (Behaviour τ)) (w : World τ (Observed τ ρ))
    (target : RuntimeState) (component : String) : Prop :=
  ((observed behaviours).setState target component).run w =
    (.returned (),
      { w with
        current := target
        host := { w.host with
          awaited := w.host.awaited
            ++ (List.range behaviours.length).map fun i => (i, ⟨w.current, target, w.clock⟩)
          published := w.host.published
            ++ [.stateChange component w.current target w.clock] } })

/-- Two ends of a sequence agree: the result, the runtime's state, the published events and
the state of the hooks. -/
def SameEnd (r r' : Outcome Exn Unit × World τ (Observed τ ρ)) : Prop :=
  r.1 = r'.1 ∧ r.2.current = r'.2.current ∧ r.2.host.published = r'.2.host.published ∧
    r.2.host.inner = r'.2.host.inner

/-! ### The handler loop -/

/-- The world after the handler at position `k` was awaited on the change. -/
def logCall (k : Nat) (change : StateChangeEvent τ) (w : World τ (Observed τ ρ)) :
    World τ (Observed τ ρ) :=
  { w with host := { w.host with awaited := w.host.awaited ++ [(k, change)] } }

/-- A handler logs its call and then returns or raises. -/
theorem run_observer (k : Nat) (b : Behaviour τ) (change : StateChangeEvent τ)
    (w : World τ (Observed τ ρ)) :
    (observer k b change).run w =
      match b change with
      | none => (.returned (), logCall k change w)
      | some e => (.raised e, logCall k change w) := by
  rw [observer, Proc.run_bind_of_returned (run_modifyHost _ w)]
  cases b change <;> rfl

/-- The handlers of `bs`, numbered from `k`, on one change, when none of them raises. -/
theorem run_observers_of_none (change : StateChangeEvent τ) :
    ∀ (bs : List (Behaviour τ)) (k : Nat) (w : World τ (Observed τ ρ)),
      (∀ b ∈ bs, b change = none) →
      (Proc.forEach ((bs.zipIdx k).map fun b => observer b.2 b.1)
          fun handler => handler change).run w
        = (.returned (), { w with host := { w.host with
            awaited := w.host.awaited
              ++ (List.range' k bs.length).map fun i => (i, change) } }) := by
  -- The position `k` and the log grow together.
  intro bs
  induction bs with
  | nil => intro k w _; simp
  | cons b bs ih =>
    intro k w h
    have hb : (observer k b change).run w = (.returned (), logCall k change w) := by
      rw [run_observer, h b (by simp)]
    have hrest := ih (k + 1) (logCall k change w) fun b' hb' => h b' (by simp [hb'])
    rw [List.zipIdx_cons, List.map_cons, Proc.forEach_cons, Proc.run_bind_of_returned hb, hrest]
    simp [logCall, List.range'_succ]

/-- When a handler raises on the change, the loop raises. Only the log has changed. -/
theorem run_observers_of_some (change : StateChangeEvent τ) :
    ∀ (bs : List (Behaviour τ)) (k : Nat) (w : World τ (Observed τ ρ)),
      (∃ b ∈ bs, b change ≠ none) →
      ∃ e log, (Proc.forEach ((bs.zipIdx k).map fun b => observer b.2 b.1)
          fun handler => handler change).run w
        = (.raised e, { w with host := { w.host with awaited := log } }) := by
  intro bs
  induction bs with
  | nil => intro k w h; simp at h
  | cons b bs ih =>
    intro k w h
    rw [List.zipIdx_cons, List.map_cons, Proc.forEach_cons]
    have hb := run_observer k b change w
    cases hbc : b change with
    | some e =>
      rw [hbc] at hb
      exact ⟨e, _, Proc.run_bind_of_raised hb _⟩
    | none =>
      rw [hbc] at hb
      -- The handler that raises is among the later ones.
      have hrest : ∃ b' ∈ bs, b' change ≠ none := by
        obtain ⟨b', hmem, hb'⟩ := h
        rcases List.mem_cons.mp hmem with rfl | hmem
        · exact absurd hbc hb'
        · exact ⟨b', hmem, hb'⟩
      rw [Proc.run_bind_of_returned hb]
      exact ih (k + 1) _ hrest

/-- `notify` when no handler raises on the change. -/
theorem run_notify_of_none (bs : List (Behaviour τ)) (w : World τ (Observed τ ρ))
    (component : String) (previous target : RuntimeState)
    (h : ∀ b ∈ bs, b ⟨previous, target, w.clock⟩ = none) :
    ((observed bs).notify component previous target).run w =
      (.returned (), { w with host := { w.host with
        awaited := w.host.awaited
          ++ (List.range bs.length).map fun i => (i, ⟨previous, target, w.clock⟩)
        published := w.host.published
          ++ [.stateChange component previous target w.clock] } }) := by
  have hloop := run_observers_of_none ⟨previous, target, w.clock⟩ bs 0 w h
  rw [LifecycleManager.notify, Proc.run_bind_of_returned (Proc.run_read w)]
  show (Proc.forEach (bs.zipIdx.map fun b => observer b.2 b.1) _ >>= _).run w = _
  rw [Proc.run_bind_of_returned hloop, Proc.run_bind_of_returned (Proc.run_read _),
    List.range_eq_range']
  rfl

/-- `notify` when a handler raises on the change. Nothing is published. -/
theorem run_notify_of_some (bs : List (Behaviour τ)) (w : World τ (Observed τ ρ))
    (component : String) (previous target : RuntimeState)
    (h : ∃ b ∈ bs, b ⟨previous, target, w.clock⟩ ≠ none) :
    ∃ e log, ((observed bs).notify component previous target).run w
      = (.raised e, { w with host := { w.host with awaited := log } }) := by
  obtain ⟨e, log, hloop⟩ := run_observers_of_some ⟨previous, target, w.clock⟩ bs 0 w h
  refine ⟨e, log, ?_⟩
  rw [LifecycleManager.notify, Proc.run_bind_of_returned (Proc.run_read w)]
  exact Proc.run_bind_of_raised hloop _

/-- A legal transition is undisturbed exactly when no handler raises on the change. -/
theorem undisturbed_iff (bs : List (Behaviour τ)) (w : World τ (Observed τ ρ))
    (target : RuntimeState) (component : String) (h : target ∈ w.current.transitions) :
    Undisturbed bs w target component ↔ ∀ b ∈ bs, b ⟨w.current, target, w.clock⟩ = none := by
  unfold Undisturbed
  rw [run_setState_of_mem _ h]
  constructor
  · intro hrun b hb
    by_contra hne
    obtain ⟨e, w', hraised⟩ := run_notify_of_some bs { w with current := target } component
      w.current target ⟨b, hb, hne⟩
    -- An undisturbed transition returns.
    rw [hraised] at hrun
    cases hrun
  · intro hnone
    exact run_notify_of_none bs { w with current := target } component w.current target hnone

/-! ### Boot and shutdown with and without handlers -/

/-- No handler raises. -/
def NeverRaises (bs : List (Behaviour τ)) : Prop := ∀ b ∈ bs, ∀ change, b change = none

/-- Two worlds that agree on everything except the log of handler calls. -/
def SameButAwaited (w w' : World τ (Observed τ ρ)) : Prop :=
  w.current = w'.current ∧ w.clock = w'.clock ∧ w.host.published = w'.host.published ∧
    w.host.inner = w'.host.inner

section
variable {bs : List (Behaviour τ)}

/-- `_set_state` with handlers that never raise ends as without handlers. The three cases
are a legal move, the current state, and a target that the graph refuses. -/
theorem sim_setState (h : NeverRaises bs) (target : RuntimeState) (component : String) :
    Proc.Sim SameButAwaited ((observed (ρ := ρ) bs).setState target component)
      ((observed []).setState target component) := by
  intro w w' hw
  obtain ⟨hcur, hclock, hpub, hinner⟩ := hw
  -- Both machines are in the same state, so they take the same one of the three branches.
  by_cases hmem : target ∈ w.current.transitions
  · have hmem' : target ∈ w'.current.transitions := hcur ▸ hmem
    rw [run_setState_of_mem _ hmem, run_setState_of_mem _ hmem',
      run_notify_of_none bs _ _ _ _ fun b hb => h b hb _,
      run_notify_of_none [] _ _ _ _ (by simp)]
    exact ⟨rfl, rfl, hclock, by simp [hpub, hcur, hclock], hinner⟩
  · by_cases hself : target = w.current
    · have hself' : target = w'.current := hself.trans hcur
      subst hself
      rw [run_setState_self, hself', run_setState_self]
      exact ⟨rfl, hcur, hclock, hpub, hinner⟩
    · rw [run_setState_of_not_mem _ hself hmem,
        run_setState_of_not_mem _ (hcur ▸ hself) (hcur ▸ hmem), hcur]
      exact ⟨rfl, hcur, hclock, hpub, hinner⟩

/-- A hook ends alike with handlers that never raise and without handlers. -/
theorem sim_runHook (h : NeverRaises bs) (hook : List (HookStep ρ)) :
    Proc.Sim SameButAwaited (runHook (observed bs) hook) (runHook (observed []) hook) := by
  refine Proc.sim_forEach hook fun step _ => ?_
  cases step with
  | setState target component =>
    exact Proc.sim_tryExcept (sim_setState h target component) fun _ => Proc.sim_pure ()
  | act f =>
    -- Any other await reads the state and the hooks' own data, on which the worlds agree.
    intro w w' hw
    obtain ⟨hcur, hclock, hpub, hinner⟩ := hw
    simp only [HookStep.proc, hcur, hinner]
    exact ⟨trivial, rfl, hclock, hpub, rfl⟩

/-- Boot ends alike with handlers that never raise and without handlers. -/
theorem sim_boot (h : NeverRaises bs) (hook : List (HookStep ρ)) (component : String) :
    Proc.Sim SameButAwaited ((observed bs).boot (runHook (observed bs) hook) component)
      ((observed []).boot (runHook (observed []) hook) component) := by
  refine Proc.sim_bind (sim_setState h _ _) fun _ => ?_
  refine Proc.sim_bind (sim_setState h _ _) fun _ => ?_
  refine Proc.sim_bind (Proc.sim_tryExcept (sim_runHook h hook) fun e => ?_) fun _ =>
    sim_setState h _ _
  exact Proc.sim_bind (sim_setState h _ _) fun _ => Proc.sim_exit _

/-- Shutdown ends alike with handlers that never raise and without handlers. -/
theorem sim_shutdown (h : NeverRaises bs) (hook : List (HookStep ρ)) (component : String) :
    Proc.Sim SameButAwaited ((observed bs).shutdown (runHook (observed bs) hook) component)
      ((observed []).shutdown (runHook (observed []) hook) component) := by
  refine Proc.sim_bind (sim_setState h _ _) fun _ => ?_
  exact Proc.sim_tryFinally (sim_runHook h hook) (sim_setState h _ _)

end

/-- Procedures that end alike up to the handler log have the same end from one world. -/
theorem SameEnd.of_sim {p q : CoreProc τ (Observed τ ρ) Unit}
    (h : Proc.Sim SameButAwaited p q) (w : World τ (Observed τ ρ)) :
    SameEnd (p.run w) (q.run w) := by
  obtain ⟨hout, hcur, -, hpub, hinner⟩ := h w w ⟨rfl, rfl, rfl, rfl⟩
  exact ⟨hout, hcur, hpub, hinner⟩

/-! ### A run that stays behind -/

/-- A lifecycle with one handler, which returns. It logs the changes. -/
def silent : LifecycleManager τ (Observed τ ρ) := observed [fun _ => none]

theorem neverRaises_silent : NeverRaises [fun _ : StateChangeEvent τ => none] := by
  intro b hb change
  rw [List.mem_singleton.mp hb]

/-- The changes that a procedure makes, as a handler that returns sees them. -/
def changesOf (p : LifecycleManager τ (Observed τ ρ) → CoreProc τ (Observed τ ρ) Unit)
    (w : World τ (Observed τ ρ)) : List (StateChangeEvent τ) :=
  (((p silent).run w).2.host.awaited.drop w.host.awaited.length).map (·.2)

/-- No handler raises on any of the changes. -/
def QuietOn (bs : List (Behaviour τ)) (changes : List (StateChangeEvent τ)) : Prop :=
  ∀ change ∈ changes, ∀ b ∈ bs, b change = none

/-- The world `a` of some handlers is as far as the world `s` of a silent one that has logged
`changes` after `past`. Once a handler has raised, fewer events have been published. -/
structure Behind (bs : List (Behaviour τ)) (past : List (Nat × StateChangeEvent τ))
    (changes : List (StateChangeEvent τ)) (a s : World τ (Observed τ ρ)) : Prop where
  current : a.current = s.current
  clock : a.clock = s.clock
  inner : a.host.inner = s.host.inner
  awaited : s.host.awaited = past ++ changes.map fun change => (0, change)
  quiet : QuietOn bs changes → a.host.published = s.host.published
  loud : ¬ QuietOn bs changes → a.host.published.length < s.host.published.length

/-- The worlds have the same machine and hooks, whatever has been published. -/
def InStep (bs : List (Behaviour τ)) (past : List (Nat × StateChangeEvent τ))
    (a s : World τ (Observed τ ρ)) : Prop :=
  ∃ changes, Behind bs past changes a s

/-- The handlers' run has ended with an exception that the silent one does not know. -/
def Fallen (bs : List (Behaviour τ)) (past : List (Nat × StateChangeEvent τ))
    (a s : World τ (Observed τ ρ)) : Prop :=
  ∃ changes, s.host.awaited = past ++ changes.map (fun change => (0, change)) ∧
    ¬ QuietOn bs changes ∧ a.host.published.length < s.host.published.length

/-- `p` goes in step with `q`, or it is ended by a handler. -/
def Tracks (bs : List (Behaviour τ)) (past : List (Nat × StateChangeEvent τ))
    (p q : CoreProc τ (Observed τ ρ) Unit) : Prop :=
  ∀ a s, InStep bs past a s →
    ((p.run a).1 = (q.run s).1 ∧ InStep bs past (p.run a).2 (q.run s).2) ∨
      ((∃ e, (p.run a).1 = .raised e) ∧ Fallen bs past (p.run a).2 (q.run s).2)

/-- The logs only grow, along changes that the silent handler sees. -/
def Grows (s s' : World τ (Observed τ ρ)) : Prop :=
  (∃ changes : List (StateChangeEvent τ),
    s'.host.awaited = s.host.awaited ++ changes.map fun change => (0, change)) ∧
    s.host.published.length ≤ s'.host.published.length

theorem Grows.refl (s : World τ (Observed τ ρ)) : Grows s s := ⟨⟨[], by simp⟩, le_refl _⟩

theorem Grows.trans (s s' s'' : World τ (Observed τ ρ)) (h : Grows s s') (h' : Grows s' s'') :
    Grows s s'' := by
  obtain ⟨⟨changes, hchanges⟩, hle⟩ := h
  obtain ⟨⟨changes', hchanges'⟩, hle'⟩ := h'
  exact ⟨⟨changes ++ changes', by rw [hchanges', hchanges]; simp⟩, hle.trans hle'⟩

section
variable {bs : List (Behaviour τ)} {past : List (Nat × StateChangeEvent τ)}

theorem quietOn_append {changes changes' : List (StateChangeEvent τ)} :
    QuietOn bs (changes ++ changes') ↔ QuietOn bs changes ∧ QuietOn bs changes' := by
  simp [QuietOn, or_imp, forall_and]

/-- A run that has been ended stays behind. -/
theorem Fallen.grow {a s s' : World τ (Observed τ ρ)} (h : Fallen bs past a s) (hs : Grows s s') :
    Fallen bs past a s' := by
  obtain ⟨changes, hawaited, hloud, hlt⟩ := h
  obtain ⟨⟨changes', hchanges⟩, hle⟩ := hs
  refine ⟨changes ++ changes', ?_, fun hquiet => hloud (quietOn_append.mp hquiet).1,
    hlt.trans_le hle⟩
  rw [hchanges, hawaited]
  simp

/-- One change that both worlds make. The handlers of `a` may raise on it. -/
theorem Behind.change {changes : List (StateChangeEvent τ)} {a s : World τ (Observed τ ρ)}
    (h : Behind bs past changes a s) (target : RuntimeState) (event : Event τ)
    (log : List (Nat × StateChangeEvent τ)) (published : List (Event τ))
    (hquiet : (∀ b ∈ bs, b ⟨s.current, target, s.clock⟩ = none) →
      published = a.host.published ++ [event])
    (hloud : (∃ b ∈ bs, b ⟨s.current, target, s.clock⟩ ≠ none) → published = a.host.published) :
    Behind bs past (changes ++ [⟨s.current, target, s.clock⟩])
      { a with
        current := target
        host := { a.host with awaited := log, published := published } }
      { s with
        current := target
        host := { s.host with
          awaited := s.host.awaited ++ [(0, ⟨s.current, target, s.clock⟩)]
          published := s.host.published ++ [event] } } where
  current := rfl
  clock := h.clock
  inner := h.inner
  awaited := by simp [h.awaited]
  quiet hall := by
    obtain ⟨hbefore, hnow⟩ := quietOn_append.mp hall
    show published = s.host.published ++ [event]
    rw [hquiet (hnow _ (by simp)), h.quiet hbefore]
  loud hnot := by
    show published.length < (s.host.published ++ [event]).length
    rw [List.length_append, List.length_singleton]
    by_cases hnow : ∀ b ∈ bs, b ⟨s.current, target, s.clock⟩ = none
    · have hbefore : ¬ QuietOn bs changes := fun hbefore =>
        hnot (quietOn_append.mpr ⟨hbefore, by simpa [QuietOn] using hnow⟩)
      rw [hquiet hnow, List.length_append, List.length_singleton]
      exact Nat.add_lt_add_right (h.loud hbefore) 1
    · have hraises : ∃ b ∈ bs, b ⟨s.current, target, s.clock⟩ ≠ none := by
        simpa using hnow
      rw [hloud hraises]
      by_cases hbefore : QuietOn bs changes
      · rw [h.quiet hbefore]
        exact Nat.lt_succ_self _
      · exact (h.loud hbefore).trans (Nat.lt_succ_self _)

/-- The silent handler on a legal change. -/
theorem run_silent_setState {s : World τ (Observed τ ρ)} {target : RuntimeState}
    (hmem : target ∈ s.current.transitions) (component : String) :
    (silent.setState target component).run s = (.returned (), { s with
      current := target
      host := { s.host with
        awaited := s.host.awaited ++ [(0, ⟨s.current, target, s.clock⟩)]
        published := s.host.published ++ [.stateChange component s.current target s.clock] } }) := by
  unfold silent
  rw [run_setState_of_mem _ hmem, run_notify_of_none _ _ _ _ _ (by simp)]
  rfl

/-- `_set_state` returns in step, or a handler raises after the machine has moved. -/
theorem setState_inStep (target : RuntimeState) (component : String)
    {a s : World τ (Observed τ ρ)} (h : InStep bs past a s) :
    InStep bs past (((observed bs).setState target component).run a).2
        ((silent.setState target component).run s).2 ∧
      ((((observed bs).setState target component).run a).1
          = ((silent.setState target component).run s).1 ∨
        (∃ e, (((observed bs).setState target component).run a).1 = .raised e) ∧
          ((silent.setState target component).run s).1 = .returned () ∧
          Fallen bs past (((observed bs).setState target component).run a).2
            ((silent.setState target component).run s).2) := by
  obtain ⟨changes, h⟩ := h
  -- Both machines are in the same state, so they take the same one of the three branches.
  by_cases hmem : target ∈ s.current.transitions
  · have hmem' : target ∈ a.current.transitions := h.current ▸ hmem
    rw [run_silent_setState hmem, run_setState_of_mem _ hmem', h.current]
    by_cases hquiet : ∀ b ∈ bs, b ⟨s.current, target, s.clock⟩ = none
    · rw [run_notify_of_none bs _ _ _ _ (by simpa [h.clock] using hquiet)]
      refine ⟨⟨_, h.change target (.stateChange component s.current target s.clock) _ _
        (fun _ => ?_) fun ⟨b, hb, hraises⟩ => absurd (hquiet b hb) hraises⟩, Or.inl rfl⟩
      rw [h.clock]
    · have hraises : ∃ b ∈ bs, b ⟨s.current, target, s.clock⟩ ≠ none := by simpa using hquiet
      obtain ⟨e, log, hrun⟩ := run_notify_of_some bs { a with current := target } component
        s.current target (by simpa [h.clock] using hraises)
      rw [hrun]
      have hbehind := h.change target (.stateChange component s.current target s.clock) log
        a.host.published (fun hall => absurd hall hquiet) fun _ => rfl
      have hloud : ¬ QuietOn bs (changes ++ [⟨s.current, target, s.clock⟩]) := fun hall =>
        hquiet ((quietOn_append.mp hall).2 _ (by simp))
      exact ⟨⟨_, hbehind⟩, Or.inr ⟨⟨e, rfl⟩, rfl, ⟨_, hbehind.awaited, hloud, hbehind.loud hloud⟩⟩⟩
  · unfold silent
    by_cases hself : target = s.current
    · have hself' : target = a.current := hself.trans h.current.symm
      subst hself
      rw [run_setState_self, hself', run_setState_self]
      exact ⟨⟨changes, h⟩, Or.inl rfl⟩
    · rw [run_setState_of_not_mem _ hself hmem,
        run_setState_of_not_mem _ (h.current ▸ hself) (h.current ▸ hmem), h.current]
      exact ⟨⟨changes, h⟩, Or.inl rfl⟩

theorem tracks_setState (target : RuntimeState) (component : String) :
    Tracks (ρ := ρ) bs past ((observed bs).setState target component)
      (silent.setState target component) := by
  intro a s h
  obtain ⟨hstep, hsame | ⟨hraised, -, hfallen⟩⟩ := setState_inStep target component h
  · exact Or.inl ⟨hsame, hstep⟩
  · exact Or.inr ⟨hraised, hfallen⟩

/-- A subsystem logs what a handler raises, so a hook stays in step. -/
theorem sim_hook (hook : List (HookStep ρ)) :
    Proc.Sim (InStep bs past) (runHook (observed bs) hook) (runHook silent hook) := by
  refine Proc.sim_forEach hook fun step _ => ?_
  intro a s h
  cases step with
  | setState target component =>
    obtain ⟨hstep, hends⟩ := setState_inStep target component h
    simp only [HookStep.proc]
    have hsuppressed (m : LifecycleManager τ (Observed τ ρ)) (w : World τ (Observed τ ρ)) :
        ((m.setState target component).tryExcept fun _ => pure ()).run w
          = (match ((m.setState target component).run w).1 with
            | .cancelled => .cancelled
            | _ => .returned (), ((m.setState target component).run w).2) := by
      rcases hrun : (m.setState target component).run w with ⟨o, w'⟩
      cases o with
      | returned value => rw [Proc.run_tryExcept_of_returned hrun]
      | raised e => rw [Proc.run_tryExcept_of_raised hrun]; rfl
      | cancelled => rw [Proc.run_tryExcept_of_cancelled hrun]
    rw [hsuppressed, hsuppressed]
    refine ⟨?_, hstep⟩
    rcases hends with hsame | ⟨⟨e, hraised⟩, hreturned, -⟩
    · rw [hsame]
    · rw [hraised, hreturned]
  | act f =>
    -- Any other await reads the state and the hooks' own data, on which the worlds agree.
    obtain ⟨changes, h⟩ := h
    simp only [HookStep.proc, h.current, h.inner]
    exact ⟨trivial, changes, ⟨rfl, h.clock, rfl, h.awaited, h.quiet, h.loud⟩⟩

/-! ### Sequences of transitions -/

theorem moves_setState (target : RuntimeState) (component : String) :
    Proc.Moves Grows ((silent (τ := τ) (ρ := ρ)).setState target component) := by
  intro s
  by_cases hmem : target ∈ s.current.transitions
  · rw [run_silent_setState hmem]
    exact ⟨⟨[⟨s.current, target, s.clock⟩], rfl⟩, by simp⟩
  · unfold silent
    by_cases hself : target = s.current
    · subst hself
      rw [run_setState_self]
      exact Grows.refl s
    · rw [run_setState_of_not_mem _ hself hmem]
      exact Grows.refl s

theorem moves_hook (hook : List (HookStep ρ)) :
    Proc.Moves Grows (runHook (silent (τ := τ)) hook) := by
  refine Proc.moves_forEach Grows.refl Grows.trans hook fun step _ => ?_
  cases step with
  | setState target component =>
    exact Proc.moves_tryExcept Grows.trans (moves_setState target component)
      fun _ => Proc.moves_pure Grows.refl ()
  | act f => exact fun s => ⟨⟨[], by simp [HookStep.proc]⟩, le_refl _⟩

theorem Tracks.of_sim {p q : CoreProc τ (Observed τ ρ) Unit}
    (h : Proc.Sim (InStep bs past) p q) : Tracks bs past p q :=
  fun a s hstep => Or.inl (h a s hstep)

/-- Sequencing keeps `Tracks`. What the silent run goes on to do only adds to its logs. -/
theorem Tracks.bind {p q f g : CoreProc τ (Observed τ ρ) Unit} (hp : Tracks bs past p q)
    (hf : Tracks bs past f g) (hg : Proc.Moves Grows g) :
    Tracks bs past (p >>= fun _ => f) (q >>= fun _ => g) := by
  intro a s h
  rcases hpa : p.run a with ⟨o, a'⟩
  rcases hqs : q.run s with ⟨o', s'⟩
  have hfirst := hp a s h
  rw [hpa, hqs] at hfirst
  obtain ⟨hout, hstep⟩ | ⟨⟨e, hraised⟩, hfallen⟩ := hfirst
  · dsimp only at hout hstep
    subst hout
    cases o with
    | returned _ =>
      rw [Proc.run_bind_of_returned hpa, Proc.run_bind_of_returned hqs]
      exact hf a' s' hstep
    | raised e =>
      rw [Proc.run_bind_of_raised hpa, Proc.run_bind_of_raised hqs]
      exact Or.inl ⟨rfl, hstep⟩
    | cancelled =>
      rw [Proc.run_bind_of_cancelled hpa, Proc.run_bind_of_cancelled hqs]
      exact Or.inl ⟨rfl, hstep⟩
  · dsimp only at hraised hfallen
    subst hraised
    rw [Proc.run_bind_of_raised hpa]
    refine Or.inr ⟨⟨e, rfl⟩, ?_⟩
    cases o' with
    | returned _ =>
      rw [Proc.run_bind_of_returned hqs]
      exact hfallen.grow (hg s')
    | raised e' => rwa [Proc.run_bind_of_raised hqs]
    | cancelled => rwa [Proc.run_bind_of_cancelled hqs]

/-- A handler of exceptions keeps `Tracks` when its body is in step. -/
theorem Tracks.tryExcept {p q : CoreProc τ (Observed τ ρ) Unit}
    {f g : Exn → CoreProc τ (Observed τ ρ) Unit} (hp : Proc.Sim (InStep bs past) p q)
    (hf : ∀ e, Tracks bs past (f e) (g e)) :
    Tracks bs past (Proc.tryExcept p f) (Proc.tryExcept q g) := by
  intro a s h
  rcases hpa : p.run a with ⟨o, a'⟩
  rcases hqs : q.run s with ⟨o', s'⟩
  obtain ⟨hout, hstep⟩ := hp a s h
  rw [hpa, hqs] at hout hstep
  dsimp only at hout hstep
  subst hout
  cases o with
  | returned _ =>
    rw [Proc.run_tryExcept_of_returned hpa, Proc.run_tryExcept_of_returned hqs]
    exact Or.inl ⟨rfl, hstep⟩
  | raised e =>
    rw [Proc.run_tryExcept_of_raised hpa, Proc.run_tryExcept_of_raised hqs]
    exact hf e a' s' hstep
  | cancelled =>
    rw [Proc.run_tryExcept_of_cancelled hpa, Proc.run_tryExcept_of_cancelled hqs]
    exact Or.inl ⟨rfl, hstep⟩

/-- A `finally` keeps `Tracks` when its body is in step. -/
theorem Tracks.tryFinally {p q f g : CoreProc τ (Observed τ ρ) Unit}
    (hp : Proc.Sim (InStep bs past) p q) (hf : Tracks bs past f g) :
    Tracks bs past (Proc.tryFinally p f) (Proc.tryFinally q g) := by
  intro a s h
  obtain ⟨hout, hstep⟩ := hp a s h
  have hfinal := hf _ _ hstep
  simp only [Proc.tryFinally]
  rcases hfa : f.run (p.run a).2 with ⟨o, a'⟩
  rcases hgs : g.run (q.run s).2 with ⟨o', s'⟩
  rw [hfa, hgs] at hfinal
  dsimp only at hfinal
  obtain ⟨rfl, hstep'⟩ | ⟨⟨e, rfl⟩, hfallen⟩ := hfinal
  · cases o with
    | returned _ => exact Or.inl ⟨hout, hstep'⟩
    | raised e => exact Or.inl ⟨rfl, hstep'⟩
    | cancelled => exact Or.inl ⟨rfl, hstep'⟩
  · refine Or.inr ⟨⟨e, rfl⟩, ?_⟩
    cases o' <;> exact hfallen

theorem tracks_boot (hook : List (HookStep ρ)) (component : String) :
    Tracks bs past ((observed bs).boot (runHook (observed bs) hook) component)
      (silent.boot (runHook silent hook) component) := by
  have hfailed (e : Exn) : Proc.Moves Grows ((silent (τ := τ)).setState .failed component >>=
      fun _ => (Proc.raise e : CoreProc τ (Observed τ ρ) Unit)) :=
    Proc.moves_bind Grows.trans (moves_setState _ _) fun _ => Proc.moves_exit Grows.refl _
  have hinit : Proc.Moves Grows (Proc.tryExcept (runHook (silent (τ := τ)) hook) fun e =>
      silent.setState .failed component >>= fun _ => Proc.raise e) :=
    Proc.moves_tryExcept Grows.trans (moves_hook hook) hfailed
  have hlast := Proc.moves_bind Grows.trans hinit fun _ => moves_setState .healthy component
  refine (tracks_setState _ _).bind ((tracks_setState _ _).bind ?_ hlast)
    (Proc.moves_bind Grows.trans (moves_setState _ _) fun _ => hlast)
  refine (Tracks.tryExcept (sim_hook hook) fun e => ?_).bind (tracks_setState _ _)
    (moves_setState _ _)
  exact (tracks_setState _ _).bind (Tracks.of_sim (Proc.sim_exit _)) (Proc.moves_exit Grows.refl _)

theorem tracks_shutdown (hook : List (HookStep ρ)) (component : String) :
    Tracks bs past ((observed bs).shutdown (runHook (observed bs) hook) component)
      (silent.shutdown (runHook silent hook) component) :=
  (tracks_setState _ _).bind (Tracks.tryFinally (sim_hook hook) (tracks_setState _ _))
    (Proc.moves_tryFinally Grows.trans (moves_hook hook) (moves_setState _ _))

end

/-- A sequence ends as the silent one, and so as the one without handlers, exactly when no
handler raises on a change that it makes. -/
theorem sameEnd_iff {bs : List (Behaviour τ)}
    {p : LifecycleManager τ (Observed τ ρ) → CoreProc τ (Observed τ ρ) Unit}
    {w : World τ (Observed τ ρ)} (hbare : SameEnd ((p silent).run w) ((p (observed [])).run w))
    (htracks : Tracks bs w.host.awaited (p (observed bs)) (p silent)) :
    SameEnd ((p (observed bs)).run w) ((p (observed [])).run w) ↔ QuietOn bs (changesOf p w) := by
  obtain ⟨hout, hcurrent, hpublished, hinner⟩ := hbare
  have hstart : InStep bs w.host.awaited w w :=
    ⟨[], rfl, rfl, rfl, by simp, fun _ => rfl, fun h => absurd (by simp [QuietOn]) h⟩
  have hlogged {changes : List (StateChangeEvent τ)}
      (h : ((p silent).run w).2.host.awaited
        = w.host.awaited ++ changes.map fun change => (0, change)) : changesOf p w = changes := by
    rw [changesOf, h, List.drop_left, List.map_map]
    exact List.map_id changes
  -- A handler that raised keeps an event from being published.
  have hshort (h : ((p (observed bs)).run w).2.host.published.length
      < ((p silent).run w).2.host.published.length) :
      ¬ SameEnd ((p (observed bs)).run w) ((p (observed [])).run w) := by
    rintro ⟨-, -, hsame, -⟩
    rw [hsame, hpublished] at h
    exact lt_irrefl _ h
  obtain ⟨hends, changes, h⟩ | ⟨-, changes, hawaited, hloud, hlt⟩ := htracks w w hstart
  · rw [hlogged h.awaited]
    constructor
    · intro hsame
      by_contra hloud
      exact hshort (h.loud hloud) hsame
    · intro hquiet
      exact ⟨hends.trans hout, h.current.trans hcurrent, (h.quiet hquiet).trans hpublished,
        h.inner.trans hinner⟩
  · rw [hlogged hawaited]
    exact iff_of_false (hshort hlt) hloud

/-- A runtime in the given state, with nothing logged. -/
def unobserved (current : RuntimeState) : World Nat (Observed Nat Unit) :=
  ⟨current, 0, ⟨[], [], ()⟩⟩

end EdgeSentinel.Proofs.Core
