import Mathlib.Tactic.TypeStar

/-!
# `EdgeSentinel.Library.Run`: runs of a partial step function

A system is a function `step : σ → ε → Option σ`. `step s e = none` means that the event
`e` cannot happen in the state `s`. A run is a list of events. `exec` executes the list
and returns `none` when one of the events cannot happen.

`Along step P s es` says that every step of the run `es` from `s` satisfies `P`. `P` reads
the state before the step, the event, and the state after it. Every prefix of a run is a
run, so a theorem about the last state of every run is a theorem about every state on the
way.

The induction over a run is done once, in four rules:

* `exec_invariant`: an invariant that the guarded steps keep holds at the end of a run
  whose steps all meet the guard.
* `exec_history`: the same for an invariant that reads the events so far.
* `along_iff_along`: two step conditions that agree on the states of the invariant hold
  along the same runs.
* `exec_simulation`: a second system that matches every step follows every run. In
  `exec_simulation_run` it matches a step by a run.

A measure that every step lowers bounds the runs (`exec_length_le`), and brings each of them to a
state in which nothing can happen any more (`exists_settled`).

`Path edge s bs t` says that the labels `bs` lead from `s` to `t`, one `edge` each.
-/

set_option autoImplicit false

namespace Run

variable {σ ε : Type*}

/-- Execute a list of events. The result is `none` when some event cannot happen. -/
def exec (step : σ → ε → Option σ) (s : σ) (es : List ε) : Option σ :=
  es.foldlM step s

/-- The step function of a system given by when an event can happen and what it does. -/
def guarded (enabled : σ → ε → Prop) [∀ s e, Decidable (enabled s e)] (next : σ → ε → σ)
    (s : σ) (e : ε) : Option σ :=
  if enabled s e then some (next s e) else none

/-- Runs compose. -/
theorem exec_append {step : σ → ε → Option σ} {s t u : σ} {es es' : List ε}
    (h : exec step s es = some t) (h' : exec step t es' = some u) :
    exec step s (es ++ es') = some u := by
  rw [exec, List.foldlM_append]
  exact (congrArg (· >>= _) h).trans h'

/-- One event is a run. -/
theorem exec_singleton {step : σ → ε → Option σ} {s t : σ} {e : ε} (h : step s e = some t) :
    exec step s [e] = some t := (bind_pure _).trans h

/-- One more event at the end of a run. -/
theorem exec_snoc {step : σ → ε → Option σ} {s t t' : σ} {es : List ε} {e : ε}
    (h : exec step s es = some t) (hstep : step t e = some t') :
    exec step s (es ++ [e]) = some t' := exec_append h (exec_singleton hstep)

/-- Every step of the run `es` from `s` satisfies `P`. -/
def Along (step : σ → ε → Option σ) (P : σ → ε → σ → Prop) : σ → List ε → Prop
  | _, [] => True
  | s, e :: es => ∀ s', step s e = some s' → P s e s' ∧ Along step P s' es

section
variable (step : σ → ε → Option σ)

@[simp] theorem exec_cons (s : σ) (e : ε) (es : List ε) :
    exec step s (e :: es) = (step s e).bind fun s' => exec step s' es := rfl

/-- `Along` at a first step that does happen. -/
theorem along_cons_of_step {P : σ → ε → σ → Prop} {s s' : σ} {e : ε} {es : List ε}
    (h : step s e = some s') : Along step P s (e :: es) ↔ P s e s' ∧ Along step P s' es := by
  constructor
  · intro hall
    exact hall s' h
  · intro hP t ht
    obtain rfl : s' = t := Option.some.inj (h.symm.trans ht)
    exact hP

/-- `Along` is decidable where the step condition is. -/
def decidableAlong (P : σ → ε → σ → Prop) [∀ s e s', Decidable (P s e s')] :
    ∀ (es : List ε) (s : σ), Decidable (Along step P s es)
  | [], _ => isTrue trivial
  | e :: es, s =>
    match h : step s e with
    | none => isTrue fun s' hs' => by simp [h] at hs'
    | some s' =>
      have := decidableAlong P es s'
      decidable_of_iff (P s e s' ∧ Along step P s' es) (along_cons_of_step step h).symm

instance (P : σ → ε → σ → Prop) [∀ s e s', Decidable (P s e s')] (s : σ) (es : List ε) :
    Decidable (Along step P s es) :=
  decidableAlong step P es s

end

/-- A guarded step happens when it is enabled, and it goes to `next`. -/
theorem guarded_eq_some {enabled : σ → ε → Prop} [∀ s e, Decidable (enabled s e)]
    {next : σ → ε → σ} {s s' : σ} {e : ε} :
    guarded enabled next s e = some s' ↔ enabled s e ∧ next s e = s' := by
  unfold guarded
  split
  · rename_i h
    simp [h]
  · rename_i h
    simp [h]

variable {step : σ → ε → Option σ}

/-- The last step of a run satisfies what holds along the run. -/
theorem along_last {P : σ → ε → σ → Prop} {e : ε} {t t' : σ} (hstep : step t e = some t') :
    ∀ (es : List ε) (s : σ), exec step s es = some t → Along step P s (es ++ [e]) →
      P t e t' := by
  intro es
  induction es with
  | nil =>
    intro s h hall
    cases h
    exact (hall t' hstep).1
  | cons e' es ih =>
    intro s h hall
    obtain ⟨s', hs', hrest⟩ := Option.bind_eq_some_iff.mp h
    exact ih s' hrest (hall s' hs').2

/-- The first step of a nonempty run. -/
theorem exec_cons_eq_some {s t : σ} {e : ε} {es : List ε}
    (h : exec step s (e :: es) = some t) :
    ∃ s', step s e = some s' ∧ exec step s' es = some t := by
  rw [exec_cons] at h
  exact Option.bind_eq_some_iff.mp h

/-- The invariant rule. `inv` holds at the start, and each step that meets the guard keeps
it. Then it holds at the end of a run whose steps all meet the guard. -/
theorem exec_invariant {guard : σ → ε → σ → Prop} (inv : σ → Prop)
    (hstep : ∀ s e s', inv s → step s e = some s' → guard s e s' → inv s') :
    ∀ (es : List ε) (s t : σ), inv s → exec step s es = some t → Along step guard s es →
      inv t := by
  intro es
  induction es with
  | nil =>
    intro s t hs h _
    cases h
    exact hs
  | cons e es ih =>
    intro s t hs h hg
    obtain ⟨s', hs', hrest⟩ := exec_cons_eq_some h
    obtain ⟨hguard, hg'⟩ := hg s' hs'
    exact ih s' t (hstep s e s' hs hs' hguard) hrest hg'

/-- A condition that every step satisfies holds along every run. -/
theorem along_of_forall {P : σ → ε → σ → Prop} (h : ∀ s e s', P s e s') :
    ∀ (es : List ε) (s : σ), Along step P s es := by
  intro es
  induction es with
  | nil => exact fun _ => trivial
  | cons e es ih => exact fun s s' _ => ⟨h s e s', ih s'⟩

/-- The invariant rule without a guard. -/
theorem exec_invariant_of_step (inv : σ → Prop)
    (hstep : ∀ s e s', inv s → step s e = some s' → inv s')
    (es : List ε) (s t : σ) (hs : inv s) (h : exec step s es = some t) : inv t :=
  exec_invariant inv (fun s e s' hs hs' (_ : True) => hstep s e s' hs hs') es s t hs h
    (along_of_forall (fun _ _ _ => trivial) es s)

/-- The invariant rule for invariants that also read the events so far. -/
theorem exec_history {guard : σ → ε → σ → Prop} (inv : List ε → σ → Prop)
    (hstep : ∀ past s e s', inv past s → step s e = some s' → guard s e s' →
      inv (past ++ [e]) s') :
    ∀ (es past : List ε) (s t : σ), inv past s → exec step s es = some t →
      Along step guard s es → inv (past ++ es) t := by
  intro es
  induction es with
  | nil =>
    intro past s t hs h _
    cases h
    rw [List.append_nil]
    exact hs
  | cons e es ih =>
    intro past s t hs h hg
    obtain ⟨s', hs', hrest⟩ := exec_cons_eq_some h
    obtain ⟨hguard, hg'⟩ := hg s' hs'
    have hnext := ih (past ++ [e]) s' t (hstep past s e s' hs hs' hguard) hrest hg'
    rw [List.append_cons]
    exact hnext

/-- The same without a guard, from the beginning of a run. -/
theorem exec_history_of_step (inv : List ε → σ → Prop)
    (hstep : ∀ past s e s', inv past s → step s e = some s' → inv (past ++ [e]) s')
    {es : List ε} {s t : σ} (hs : inv [] s) (h : exec step s es = some t) : inv es t :=
  exec_history inv (fun past s e s' hs hs' (_ : True) => hstep past s e s' hs hs') es [] s t hs h
    (along_of_forall (fun _ _ _ => trivial) es s)

/-- A step condition that follows from the invariant and the guard holds along each run
that meets the guard. -/
theorem along_of_invariant {guard P : σ → ε → σ → Prop} (inv : σ → Prop)
    (hstep : ∀ s e s', inv s → step s e = some s' → guard s e s' → P s e s' ∧ inv s') :
    ∀ (es : List ε) (s : σ), inv s → Along step guard s es → Along step P s es := by
  intro es
  induction es with
  | nil => intro s _ _; trivial
  | cons e es ih =>
    intro s hs hg s' hs'
    obtain ⟨hguard, hg'⟩ := hg s' hs'
    obtain ⟨hP, hinv⟩ := hstep s e s' hs hs' hguard
    exact ⟨hP, ih s' hinv hg'⟩

/-- Two step conditions that agree on the states of an invariant, where the second one
keeps the invariant, hold along the same runs. -/
theorem along_iff_along {P Q : σ → ε → σ → Prop} (inv : σ → Prop)
    (hiff : ∀ s e s', inv s → step s e = some s' → (P s e s' ↔ Q s e s'))
    (hstep : ∀ s e s', inv s → step s e = some s' → Q s e s' → inv s')
    (es : List ε) (s : σ) (hs : inv s) : Along step P s es ↔ Along step Q s es := by
  constructor
  · refine along_of_invariant inv (fun s e s' hs hs' hP => ?_) es s hs
    have hQ := (hiff s e s' hs hs').mp hP
    exact ⟨hQ, hstep s e s' hs hs' hQ⟩
  · refine along_of_invariant inv (fun s e s' hs hs' hQ => ?_) es s hs
    exact ⟨(hiff s e s' hs hs').mpr hQ, hstep s e s' hs hs' hQ⟩

/-- The simulation rule. `R` relates the states of two systems with the same events, and
each step of the first one is matched by a step of the second one that keeps `R`. Then the
second system follows every run of the first one. -/
theorem exec_simulation {σ' : Type*} {step' : σ' → ε → Option σ'} (R : σ → σ' → Prop)
    (hstep : ∀ s t e s', R s t → step s e = some s' → ∃ t', step' t e = some t' ∧ R s' t') :
    ∀ (es : List ε) (s : σ) (t : σ') (s' : σ), R s t → exec step s es = some s' →
      ∃ t', exec step' t es = some t' ∧ R s' t' := by
  intro es
  induction es with
  | nil =>
    intro s t s' hR h
    cases h
    exact ⟨t, rfl, hR⟩
  | cons e es ih =>
    intro s t s' hR h
    obtain ⟨s₁, hs₁, hrest⟩ := exec_cons_eq_some h
    obtain ⟨t₁, ht₁, hR₁⟩ := hstep s t e s₁ hR hs₁
    obtain ⟨t', ht', hR'⟩ := ih s₁ t₁ s' hR₁ hrest
    exact ⟨t', by rw [exec_cons, ht₁]; exact ht', hR'⟩

/-- The simulation rule where a step is matched by a run, which may be empty. -/
theorem exec_simulation_run {σ' ε' : Type*} {step' : σ' → ε' → Option σ'} (R : σ → σ' → Prop)
    (hstep : ∀ s t e s', R s t → step s e = some s' →
      ∃ es' t', exec step' t es' = some t' ∧ R s' t') :
    ∀ (es : List ε) (s : σ) (t : σ') (s' : σ), R s t → exec step s es = some s' →
      ∃ es' t', exec step' t es' = some t' ∧ R s' t' := by
  intro es
  induction es with
  | nil =>
    intro s t s' hR h
    cases h
    exact ⟨[], t, rfl, hR⟩
  | cons e es ih =>
    intro s t s' hR h
    obtain ⟨s₁, hs₁, hrest⟩ := exec_cons_eq_some h
    obtain ⟨es₁, t₁, ht₁, hR₁⟩ := hstep s t e s₁ hR hs₁
    obtain ⟨es₂, t', ht', hR'⟩ := ih s₁ t₁ s' hR₁ hrest
    exact ⟨es₁ ++ es₂, t', exec_append ht₁ ht', hR'⟩

/-! ### Runs that come to an end -/

/-- No event can happen any more. -/
def Settled (step : σ → ε → Option σ) (s : σ) : Prop := ∀ e, step s e = none

section
variable {μ : σ → Nat} (hstep : ∀ s e s', step s e = some s' → μ s' < μ s)
include hstep

/-- A measure that every step lowers bounds the length of the runs. -/
theorem exec_length_le (es : List ε) :
    ∀ s t, exec step s es = some t → es.length + μ t ≤ μ s := by
  induction es with
  | nil =>
    intro s t h
    cases h
    simp
  | cons e es ih =>
    intro s t h
    obtain ⟨s₁, hs₁, hrest⟩ := exec_cons_eq_some h
    have hlt := hstep s e s₁ hs₁
    have hle := ih s₁ t hrest
    rw [List.length_cons]
    omega

/-- From every state a run leads to one in which nothing can happen any more. The induction is
on the measure. -/
theorem exists_settled (s : σ) : ∃ es t, exec step s es = some t ∧ Settled step t := by
  induction h : μ s using Nat.strongRecOn generalizing s with
  | _ n ih =>
    subst h
    by_cases hsettled : Settled step s
    · exact ⟨[], s, rfl, hsettled⟩
    · obtain ⟨e, he⟩ := Classical.not_forall.mp hsettled
      obtain ⟨s', hs'⟩ := Option.ne_none_iff_exists'.mp he
      obtain ⟨es, t, hrun, ht⟩ := ih (μ s') (hstep s e s' hs') s' rfl
      exact ⟨e :: es, t, by rw [exec_cons, hs']; exact hrun, ht⟩

end

/-! ### Paths of labels -/

section
variable {α β : Type*}

/-- The labels `bs` lead from `s` to `t`. -/
def Path (edge : α → β → α → Prop) : α → List β → α → Prop
  | s, [], t => s = t
  | s, b :: bs, t => ∃ m, edge s b m ∧ Path edge m bs t

variable {edge : α → β → α → Prop}

@[simp] theorem path_nil {s t : α} : Path edge s [] t ↔ s = t := Iff.rfl

@[simp] theorem path_cons {s t : α} {b : β} {bs : List β} :
    Path edge s (b :: bs) t ↔ ∃ m, edge s b m ∧ Path edge m bs t := Iff.rfl

/-- Paths compose at their shared end. -/
theorem path_append {t : α} {bs' : List β} :
    ∀ {bs : List β} {s : α},
      Path edge s (bs ++ bs') t ↔ ∃ m, Path edge s bs m ∧ Path edge m bs' t := by
  intro bs
  induction bs with
  | nil =>
    intro s
    simp
  | cons b bs ih =>
    intro s
    simp only [List.cons_append, path_cons, ih]
    constructor
    · rintro ⟨m, hb, n, hn, hrest⟩
      exact ⟨n, ⟨m, hb, hn⟩, hrest⟩
    · rintro ⟨n, ⟨m, hb, hn⟩, hrest⟩
      exact ⟨m, hb, n, hn, hrest⟩

/-- A path is extended by one edge at its end. -/
theorem Path.snoc {s m t : α} {b : β} {bs : List β} (h : Path edge s bs m) (hb : edge m b t) :
    Path edge s (bs ++ [b]) t :=
  path_append.mpr ⟨m, h, t, hb, rfl⟩

/-- The invariant rule for paths: the invariant also reads the labels so far. -/
theorem path_history (inv : List β → α → Prop)
    (hstep : ∀ past s b t, inv past s → edge s b t → inv (past ++ [b]) t) {t : α} :
    ∀ {bs past : List β} {s : α}, inv past s → Path edge s bs t → inv (past ++ bs) t := by
  intro bs
  induction bs with
  | nil =>
    rintro past s hs rfl
    rw [List.append_nil]
    exact hs
  | cons b bs ih =>
    rintro past s hs ⟨m, hb, hrest⟩
    have hnext := ih (hstep past s b m hs hb) hrest
    rw [List.append_cons]
    exact hnext

/-- A map of the labels that keeps the edges keeps the paths. -/
theorem Path.map {f : β → β} (hf : ∀ s b t, edge s b t → edge s (f b) t) {t : α} :
    ∀ {bs : List β} {s : α}, Path edge s bs t → Path edge s (bs.map f) t := by
  intro bs
  induction bs with
  | nil => exact fun h => h
  | cons b bs ih =>
    rintro s ⟨m, hb, hrest⟩
    exact ⟨m, hf s b m hb, ih hrest⟩

end

end Run
