import EdgeSentinel.Library.Keyed
import EdgeSentinel.Monitoring.Solo

/-!
# `EdgeSentinel.Proofs.Monitoring.Settling`: a state that settles with its monitor

A `Judge` says which state the attributes of a monitor call for, and which of the polls in
progress will bring the runtime there. The state is `Settled` when it is as called for, or such
a poll is in progress. `Terms` are conditions on the resumption of a poll and on the end of
`start`.

`Judge.settled_of_terms` is the run lemma. When each part of a poll keeps the state settled on
these terms, it is settled after every run on them. Without a poll in progress the state is then
the one that is called for (`Settled.agrees`).
-/

set_option autoImplicit false

namespace EdgeSentinel.Proofs.Monitoring

open EdgeSentinel.Core EdgeSentinel.Monitoring

variable {α β τ : Type}

/-- What a monitor calls for. -/
structure Judge (α β : Type) where
  /-- The states that the monitor moves. -/
  managed : List RuntimeState
  /-- The state is the one that the attributes call for. -/
  agrees : RuntimeState → α → Prop
  /-- A poll at this await brings the state there. -/
  mends : RuntimeState → α → β → Prop
  attributesOk : α → Prop
  pointOk : β → Prop

/-- Conditions on the end of `start`, and on the resumption of a poll among the others. -/
structure Terms (α β : Type) where
  ready : α → List β → Prop
  timely : RuntimeState → α → List β → β → Answer → Prop

/-- A managed state is as called for, or one of the polls brings it there. -/
def Judge.Settled (j : Judge α β) (state : RuntimeState) (attributes : α) (points : List β) :
    Prop :=
  state ∈ j.managed →
    j.agrees state attributes ∨ ∃ point ∈ points, j.mends state attributes point

/-- The awaits of the polls. -/
def points (polls : List (Ongoing β)) : List β := polls.map (·.point)

/-- The awaits of the polls other than `id`. -/
def pointsBut (id : Nat) (polls : List (Ongoing β)) : List β :=
  points (polls.filter (·.id ≠ id))

/-- The step meets the terms. -/
def Terms.Met (terms : Terms α β) (w : Solo α β τ) : SoloStep τ → Solo α β τ → Prop
  | .boot, _ => terms.ready w.attributes (points w.polls)
  | .resume id _ a, _ => ∀ poll ∈ w.polls, poll.id = id →
      terms.timely w.current w.attributes (pointsBut id w.polls) poll.point a
  | _, _ => True

instance (terms : Terms α β) [∀ attributes others, Decidable (terms.ready attributes others)]
    [∀ state attributes others point a,
      Decidable (terms.timely state attributes others point a)]
    (w : Solo α β τ) : ∀ e w', Decidable (terms.Met w e w')
  | .boot, _ => inferInstanceAs (Decidable (terms.ready w.attributes (points w.polls)))
  | .resume id _ a, _ => inferInstanceAs (Decidable (∀ poll ∈ w.polls, poll.id = id →
      terms.timely w.current w.attributes (pointsBut id w.polls) poll.point a))
  | .start, _ | .initialPoll _ _ _, _ | .poll _ _ _, _ | .bootFails, _ | .stop, _
  | .stopped, _ => isTrue trivial

/-- On the terms, the parts of the polls keep the state settled, and so does `start`. -/
structure Judge.Sound (j : Judge α β) (r : Routine α β τ) (terms : Terms α β) : Prop where
  managed : ∀ state ∈ j.managed, state ∈ RuntimeState.managedByNetwork
  initial : j.attributesOk r.initial
  boot : ∀ attributes others, j.attributesOk attributes → terms.ready attributes others →
    j.Settled .healthy attributes others
  turn : ∀ now a state attributes point others, j.attributesOk attributes →
    (∀ p ∈ point, j.pointOk p ∧ terms.timely state attributes others p a) →
    j.Settled state attributes (point.toList ++ others) →
    ∀ t, r.turn now a state attributes point = t →
      j.attributesOk t.attributes ∧ (∀ p ∈ t.poll, j.pointOk p) ∧
        j.Settled t.current t.attributes (t.poll.toList ++ others)

/-- A move ends in its target, or leaves the state. -/
theorem ask_eq_or (current target : RuntimeState) :
    StateMachine.ask current target = target ∨ StateMachine.ask current target = current := by
  cases current <;> cases target <;> decide

namespace Judge

variable {j : Judge α β}

theorem Settled.mono {state : RuntimeState} {attributes : α} {points points' : List β}
    (h : j.Settled state attributes points) (hsub : ∀ p ∈ points, p ∈ points') :
    j.Settled state attributes points' := by
  intro hmanaged
  rcases h hmanaged with hagrees | ⟨p, hp, hmends⟩
  · exact Or.inl hagrees
  · exact Or.inr ⟨p, hsub p hp, hmends⟩

theorem Settled.agrees {state : RuntimeState} {attributes : α}
    (h : j.Settled state attributes []) (hmanaged : state ∈ j.managed) :
    j.agrees state attributes := by
  rcases h hmanaged with hagrees | ⟨_, hp, _⟩
  · exact hagrees
  · cases hp

/-- The invariant. -/
structure Invariant (j : Judge α β) (w : Solo α β τ) : Prop where
  ids : (w.polls.map (·.id)).Nodup
  attributes : j.attributesOk w.attributes
  pointsOk : ∀ poll ∈ w.polls, j.pointOk poll.point
  settled : j.Settled w.current w.attributes (points w.polls)

variable {r : Routine α β τ} {terms : Terms α β}

theorem Invariant.new (hsound : j.Sound r terms) : Invariant j (Solo.new r) where
  ids := List.nodup_nil
  attributes := hsound.initial
  pointsOk := by simp [Solo.new]
  settled hmanaged := by
    have hbooting : RuntimeState.booting ∈ RuntimeState.managedByNetwork :=
      hsound.managed _ hmanaged
    exact absurd hbooting (by decide)

namespace Invariant

variable {w : Solo α β τ}

/-- The lifecycle enters a state that no monitor manages. -/
theorem enter (h : Invariant j w) (hsound : j.Sound r terms) {target : RuntimeState}
    (htarget : target ∉ RuntimeState.managedByNetwork) (phase : Phase) :
    Invariant j (w.enter target phase) := by
  refine ⟨h.ids, h.attributes, h.pointsOk, ?_⟩
  show j.Settled (StateMachine.ask w.current target) w.attributes (points w.polls)
  rcases ask_eq_or w.current target with heq | heq
  · rw [heq]
    exact fun hmanaged => absurd (hsound.managed _ hmanaged) htarget
  · rw [heq]
    exact h.settled

theorem boot (h : Invariant j w) (hsound : j.Sound r terms)
    (hready : terms.ready w.attributes (points w.polls)) : Invariant j w.boot := by
  refine ⟨h.ids, h.attributes, h.pointsOk, ?_⟩
  show j.Settled (StateMachine.ask w.current .healthy) w.attributes (points w.polls)
  -- `start` moves to HEALTHY whatever the monitors have read.
  rcases ask_eq_or w.current .healthy with heq | heq
  · rw [heq]
    exact hsound.boot _ _ h.attributes hready
  · rw [heq]
    exact h.settled

/-- A poll makes its next part. Its await, if it is going on, is `point`. -/
theorem advance (h : Invariant j w) (hsound : j.Sound r terms) {id : Nat} {point : Option β}
    {a : Answer} (hpoint : ∀ p ∈ point,
      j.pointOk p ∧ terms.timely w.current w.attributes (pointsBut id w.polls) p a)
    (hpoints : ∀ p ∈ points w.polls, p ∈ point.toList ++ pointsBut id w.polls) (now : τ) :
    Invariant j (Solo.advance r w id now a point) := by
  obtain ⟨hattributes, hok, hsettled⟩ := hsound.turn now a w.current w.attributes point
    (pointsBut id w.polls) h.attributes hpoint (h.settled.mono hpoints) _ rfl
  have hids : ((w.polls.filter (·.id ≠ id)).map (·.id)).Nodup :=
    (List.filter_sublist.map _).nodup h.ids
  unfold Solo.advance
  generalize r.turn now a w.current w.attributes point = t at hattributes hok hsettled ⊢
  refine ⟨?_, hattributes, ?_, hsettled.mono ?_⟩
  · show ((w.polls.filter (·.id ≠ id) ++
      (t.poll.map fun point => (⟨id, point⟩ : Ongoing β)).toList).map (·.id)).Nodup
    cases t.poll with
    | none => simpa using hids
    | some p =>
      -- The poll goes on under its own identifier, which has been filtered out.
      refine Keyed.nodup_append hids fun hmem => ?_
      obtain ⟨poll, hpoll, heq⟩ := List.mem_map.mp hmem
      exact absurd heq (by simpa using (List.mem_filter.mp hpoll).2)
  · intro poll hpoll
    rcases List.mem_append.mp hpoll with hold | hnew
    · exact h.pointsOk poll (List.mem_filter.mp hold).1
    · obtain ⟨p, hp, rfl⟩ := Option.map_eq_some_iff.mp (Option.mem_toList.mp hnew)
      exact hok p hp
  · intro p hp
    rcases List.mem_append.mp hp with hnew | hold
    · refine List.mem_map.mpr ⟨⟨id, p⟩, List.mem_append_right _ ?_, rfl⟩
      rw [Option.mem_toList.mp hnew]
      exact List.mem_cons_self
    · obtain ⟨poll, hpoll, rfl⟩ := List.mem_map.mp hold
      exact List.mem_map.mpr ⟨poll, List.mem_append_left _ hpoll, rfl⟩

/-- A new poll is none of those that are going on. -/
theorem mem_pointsBut {id : Nat} (hid : id ∉ w.ids) :
    ∀ p ∈ points w.polls, p ∈ (none : Option β).toList ++ pointsBut id w.polls := by
  intro p hp
  obtain ⟨poll, hpoll, rfl⟩ := List.mem_map.mp hp
  have hne : poll.id ≠ id := fun heq => hid (heq ▸ List.mem_map_of_mem hpoll)
  exact List.mem_map.mpr ⟨poll, List.mem_filter.mpr ⟨hpoll, by simpa using hne⟩, rfl⟩

theorem step (h : Invariant j w) (hsound : j.Sound r terms) {e : SoloStep τ} {w' : Solo α β τ}
    (hstep : Solo.step r w e = some w') (hmet : terms.Met w e w') : Invariant j w' := by
  obtain ⟨hen, rfl⟩ := Run.guarded_eq_some.mp hstep
  cases e with
  | start => exact h.enter hsound (by decide) _
  | initialPoll id now a =>
    have hstarting : Invariant j { w with phase := .starting (some id) } :=
      ⟨h.ids, h.attributes, h.pointsOk, h.settled⟩
    exact hstarting.advance hsound (by simp) (mem_pointsBut hen.2) now
  | poll id now a => exact h.advance hsound (by simp) (mem_pointsBut hen.2) now
  | resume id now a =>
    obtain ⟨poll, hpoll, rfl⟩ := hen
    show Invariant j ((w.polls.find? _).elim w _)
    rw [Keyed.find?_of_mem h.ids hpoll]
    refine h.advance hsound ?_ ?_ now
    · rintro p ⟨⟩
      exact ⟨h.pointsOk poll hpoll, hmet poll hpoll rfl⟩
    · intro p hp
      obtain ⟨other, hother, rfl⟩ := List.mem_map.mp hp
      -- `points` is the await that is over, and the others.
      by_cases heq : other.id = poll.id
      · rw [Keyed.eq_of_key_eq h.ids hother hpoll heq]
        exact List.mem_cons_self
      · refine List.mem_append_right _ (List.mem_map.mpr ⟨other, ?_, rfl⟩)
        exact List.mem_filter.mpr ⟨hother, by simpa using heq⟩
  | boot => exact h.boot hsound hmet
  | bootFails => exact h.enter hsound (by decide) _
  | stop => exact h.enter hsound (by decide) _
  | stopped => exact h.enter hsound (by decide) _

end Invariant

/-- The state is settled after every run on the terms. -/
theorem settled_of_terms (hsound : j.Sound r terms) {es : List (SoloStep τ)} {w : Solo α β τ}
    (hrun : Run.exec (Solo.step r) (Solo.new r) es = some w)
    (hmet : Run.Along (Solo.step r) terms.Met (Solo.new r) es) :
    j.Settled w.current w.attributes (points w.polls) :=
  (Run.exec_invariant (Invariant j) (fun _ _ _ h hstep hg => h.step hsound hstep hg) es _ w
    (Invariant.new hsound) hrun hmet).settled

end Judge

end EdgeSentinel.Proofs.Monitoring
