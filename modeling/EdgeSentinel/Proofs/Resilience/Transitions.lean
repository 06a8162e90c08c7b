import EdgeSentinel.Proofs.Resilience.TrialCalls

/-!
# `EdgeSentinel.Proofs.Resilience.Transitions`: the edges of the breaker

The module docstring of the source draws four edges. `DocumentedEdge` states them for one
step: who takes the step, and when. `LateHarmless` is the rest of the contract: a call that
was admitted while CLOSED and completes after the breaker has tripped neither moves the
breaker nor the reading from which the recovery timeout runs.

A completion updates the breaker without a look at the state in which its call was
admitted. `documented_iff_inTime` proves that a run of a fresh breaker takes documented
steps only if and only if each completion is in time: it falls into CLOSED, or it is the
trial's own in HALF_OPEN, or it is a failure in OPEN at the very reading of the trip.

`EdgeInv` is the invariant behind it. It links the counter to the state, the reading of the
last trip to `_opened_at_monotonic`, and the calls in flight to HALF_OPEN.
-/

set_option autoImplicit false

namespace EdgeSentinel.Proofs.Resilience

open EdgeSentinel.Resilience
open EdgeSentinel.Resilience.System (step arrive_cases settle_halfOpenInFlight)

variable {cfg : Settings}

/-- `c` is the trial in flight. -/
def IsTrial (s : System) (c : Call) : Prop :=
  c ∈ s.calls ∧ c.trial = true ∧ ∀ t ∈ s.calls, t.trial = true → t = c

/-- The step does not move the breaker, or it moves it along a documented edge:

- CLOSED to OPEN, at the failure that brings the count to the threshold;
- OPEN to HALF_OPEN, when a caller arrives `recovery_timeout` after the trip or later;
- HALF_OPEN to CLOSED, when the trial succeeds;
- HALF_OPEN to OPEN, when the trial fails. -/
def DocumentedEdge (cfg : Settings) (s : System) (e : Event) (s' : System) : Prop :=
  s'.breaker.state = s.breaker.state ∨
  (s.breaker.state = .closed ∧ s'.breaker.state = .opened ∧
    (∃ c, e = .finish c .failure) ∧ s'.breaker.failureCount = cfg.failureThreshold) ∨
  (s.breaker.state = .opened ∧ s'.breaker.state = .halfOpen ∧
    (∃ id, e = .arrive id) ∧
    ∃ trip, s.trippedAt = some trip ∧ trip + cfg.recoveryTimeout ≤ s.monotonic) ∨
  (s.breaker.state = .halfOpen ∧ s'.breaker.state = .closed ∧
    ∃ c, e = .finish c .success ∧ IsTrial s c) ∨
  (s.breaker.state = .halfOpen ∧ s'.breaker.state = .opened ∧
    ∃ c, e = .finish c .failure ∧ IsTrial s c)

/-- A call admitted while CLOSED that completes in OPEN or HALF_OPEN changes neither the
state nor the reading from which the recovery timeout runs. -/
def LateHarmless (s : System) (e : Event) (s' : System) : Prop :=
  ∀ c r, e = .finish c r → c.trial = false → s.breaker.state ≠ .closed →
    s'.breaker.state = s.breaker.state ∧
      s'.breaker.openedAtMonotonic = s.breaker.openedAtMonotonic

/-- What the documentation allows of one step. -/
def Documented (cfg : Settings) (s : System) (e : Event) (s' : System) : Prop :=
  DocumentedEdge cfg s e s' ∧ LateHarmless s e s'

/-- The completion is in time: in CLOSED, or by a trial in HALF_OPEN, or a failure in OPEN
at the reading of the trip. -/
def InTime (s : System) : Event → System → Prop
  | .finish c r, _ =>
    s.breaker.state = .closed ∨ (s.breaker.state = .halfOpen ∧ c.trial = true) ∨
      (s.breaker.state = .opened ∧ r = .failure ∧
        s.monotonic = s.breaker.openedAtMonotonic)
  | _, _ => True

instance (s : System) : ∀ e s', Decidable (InTime s e s')
  | .finish c r, _ => inferInstanceAs (Decidable
      (s.breaker.state = .closed ∨ (s.breaker.state = .halfOpen ∧ c.trial = true) ∨
        (s.breaker.state = .opened ∧ r = .failure ∧
          s.monotonic = s.breaker.openedAtMonotonic)))
  | .tick _ _, _ => isTrue trivial
  | .arrive _, _ => isTrue trivial
  | .persisted _, _ => isTrue trivial
  | .cancel _, _ => isTrue trivial

/-- The invariant of the edges. The count is below the threshold exactly in CLOSED, an OPEN
breaker counts its timeout from its last trip, and a trial in flight holds the breaker
HALF_OPEN and is alone. -/
structure EdgeInv (cfg : Settings) (s : System) : Prop where
  belowThreshold : s.breaker.state = .closed → s.breaker.failureCount < cfg.failureThreshold
  atThreshold : s.breaker.state ≠ .closed → cfg.failureThreshold ≤ s.breaker.failureCount
  trip : s.breaker.state = .opened → s.trippedAt = some s.breaker.openedAtMonotonic
  flagged : ∀ t ∈ s.calls, t.trial = true →
    s.breaker.state = .halfOpen ∧ s.breaker.halfOpenInFlight = true
  alone : ∀ t ∈ s.calls, ∀ t' ∈ s.calls, t.trial = true → t'.trial = true → t = t'

theorem EdgeInv.start (cfg : Settings) (monotonic wallclock : ℚ) :
    EdgeInv cfg (System.start monotonic wallclock) where
  belowThreshold := fun _ => cfg.threshold_pos
  atThreshold := fun h => absurd rfl h
  trip := fun h => by cases h
  flagged := by simp [System.start]
  alone := by simp [System.start]

/-- An event that is not a completion satisfies `LateHarmless`. -/
theorem lateHarmless_of_not_finish {s s' : System} {e : Event}
    (h : ∀ c r, e ≠ .finish c r) : LateHarmless s e s' :=
  fun c r he => absurd he (h c r)

namespace EdgeInv

variable {s : System}

/-- A trial in flight is the trial. -/
theorem isTrial (h : EdgeInv cfg s) {c : Call} (hc : c ∈ s.calls) (ht : c.trial = true) :
    IsTrial s c :=
  ⟨hc, ht, fun t htmem htt => h.alone t htmem c hc htt ht⟩

/-- No trial is in flight in CLOSED or OPEN. -/
theorem not_trial (h : EdgeInv cfg s) (hs : s.breaker.state ≠ .halfOpen) {c : Call}
    (hc : c ∈ s.calls) : c.trial = false :=
  trial_eq_false_of_state h.flagged hs c hc

/-- A failure in OPEN trips the breaker again, because the count is at the threshold. -/
theorem onFailure_of_opened (h : EdgeInv cfg s) (hs : s.breaker.state = .opened) :
    s.settle cfg .failure
      = ⟨.opened, s.breaker.failureCount + 1, s.monotonic, some s.wallclock, false⟩ := by
  have hcount := h.atThreshold (by rw [hs]; decide)
  exact CircuitBreaker.onFailure_of_trip (Or.inr (by omega))

/-! ### Admission -/

/-- The admission of a new call takes a documented step. -/
theorem documented_arrive (h : EdgeInv cfg s) (id : Nat) :
    Documented cfg s (.arrive id) (s.next cfg (.arrive id)) := by
  refine ⟨?_, lateHarmless_of_not_finish (by simp)⟩
  rcases arrive_cases cfg s id with hnext | ⟨-, hnext⟩ | ⟨hs, hlate, hnext⟩ | ⟨-, -, hnext⟩ <;>
    rw [hnext]
  · exact Or.inl rfl
  · exact Or.inl rfl
  · exact Or.inr (Or.inr (Or.inl ⟨hs, rfl, ⟨id, rfl⟩, _, h.trip hs, hlate⟩))
  · exact Or.inl rfl

/-- A new trial is the only trial when no trial is in flight. -/
theorem alone_cons {calls : List Call} (hnone : ∀ t ∈ calls, t.trial = false) (c : Call) :
    ∀ t ∈ c :: calls, ∀ t' ∈ c :: calls, t.trial = true → t'.trial = true → t = t' := by
  intro t ht t' ht' htrial htrial'
  rcases List.mem_cons.mp ht with rfl | ht
  · rcases List.mem_cons.mp ht' with rfl | ht'
    · rfl
    · rw [hnone t' ht'] at htrial'
      cases htrial'
  · rw [hnone t ht] at htrial
    cases htrial

/-- The admission of a new call keeps the invariant. -/
theorem arrive (h : EdgeInv cfg s) (id : Nat) :
    EdgeInv cfg (s.next cfg (.arrive id)) := by
  rcases arrive_cases cfg s id with hnext | ⟨hs, hnext⟩ | ⟨hs, -, hnext⟩ | ⟨hs, hf, hnext⟩ <;>
    rw [hnext]
  · exact h
  · -- CLOSED: neither the new call nor an earlier one is a trial.
    have hnone : ∀ t ∈ s.calls, t.trial = false := fun t ht =>
      h.not_trial (by rw [hs]; decide) ht
    refine ⟨h.belowThreshold, h.atThreshold, h.trip, ?_, alone_cons hnone _⟩
    intro t ht htrial
    rcases List.mem_cons.mp ht with rfl | ht
    · cases htrial
    · exact h.flagged t ht htrial
  · -- OPEN: the new call is the first trial.
    have hnone : ∀ t ∈ s.calls, t.trial = false := fun t ht =>
      h.not_trial (by rw [hs]; decide) ht
    exact ⟨fun hc => (by cases hc), fun _ => h.atThreshold (by rw [hs]; decide),
      fun hc => (by cases hc), fun _ _ _ => ⟨rfl, rfl⟩, alone_cons hnone _⟩
  · -- HALF_OPEN with a low flag: an earlier trial would have raised it.
    have hnone := trial_eq_false_of_flag h.flagged hf
    exact ⟨fun hc => h.belowThreshold hc, fun hc => h.atThreshold hc, fun hc => h.trip hc,
      fun _ _ _ => ⟨hs, rfl⟩, alone_cons hnone _⟩

/-! ### Completion -/

/-- In CLOSED every completion is documented. -/
theorem documented_finish_closed (h : EdgeInv cfg s) (hs : s.breaker.state = .closed) (c : Call)
    (r : CallResult) : Documented cfg s (.finish c r) (s.next cfg (.finish c r)) := by
  have hnext : (s.next cfg (.finish c r)).breaker = s.settle cfg r := rfl
  refine ⟨?_, fun _ _ _ _ hne => absurd hs hne⟩
  cases r with
  | success => exact Or.inl (by rw [hnext, hs]; rfl)
  | failure =>
    have hlt := h.belowThreshold hs
    by_cases htrip : cfg.failureThreshold ≤ s.breaker.failureCount + 1
    · have hset : s.settle cfg .failure = _ :=
        CircuitBreaker.onFailure_of_trip (Or.inr htrip)
      refine Or.inr (Or.inl ⟨hs, by rw [hnext, hset], ⟨c, rfl⟩, ?_⟩)
      rw [hnext, hset]
      show s.breaker.failureCount + 1 = cfg.failureThreshold
      omega
    · have hset : s.settle cfg .failure = _ :=
        CircuitBreaker.onFailure_of_count (by simp [hs, htrip])
      exact Or.inl (by rw [hnext, hset])

/-- In OPEN only a failure at the reading of the trip is documented. -/
theorem documented_finish_opened (h : EdgeInv cfg s) (hs : s.breaker.state = .opened) {c : Call}
    (hc : c ∈ s.calls) (r : CallResult) :
    Documented cfg s (.finish c r) (s.next cfg (.finish c r)) ↔
      r = .failure ∧ s.monotonic = s.breaker.openedAtMonotonic := by
  have hct : c.trial = false := h.not_trial (by rw [hs]; decide) hc
  cases r with
  | success =>
    -- A success closes the breaker out of OPEN. No edge allows it.
    have hclosed : (s.next cfg (.finish c .success)).breaker.state = .closed := rfl
    simp [Documented, DocumentedEdge, hs, hclosed]
  | failure =>
    have hnext : (s.next cfg (.finish c .failure)).breaker = s.settle cfg .failure := rfl
    have hset := h.onFailure_of_opened hs
    have hopen : (s.next cfg (.finish c .failure)).breaker.state = .opened := by
      rw [hnext, hset]
    have hat : (s.next cfg (.finish c .failure)).breaker.openedAtMonotonic = s.monotonic := by
      rw [hnext, hset]
    constructor
    · rintro ⟨-, hlate⟩
      have hsame := (hlate c .failure rfl hct (by rw [hs]; decide)).2
      rw [hat] at hsame
      exact ⟨rfl, hsame⟩
    · rintro ⟨-, hsame⟩
      exact ⟨Or.inl (by rw [hopen, hs]), fun _ _ _ _ _ =>
        ⟨by rw [hopen, hs], by rw [hat, hsame]⟩⟩

/-- In HALF_OPEN only the completion of the trial is documented. -/
theorem documented_finish_halfOpen (h : EdgeInv cfg s) (hs : s.breaker.state = .halfOpen)
    {c : Call} (hc : c ∈ s.calls) (r : CallResult) :
    Documented cfg s (.finish c r) (s.next cfg (.finish c r)) ↔ c.trial = true := by
  have hnext : (s.next cfg (.finish c r)).breaker = s.settle cfg r := rfl
  have hset : s.settle cfg .failure = _ := CircuitBreaker.onFailure_of_trip (Or.inl hs)
  have hne : (s.next cfg (.finish c r)).breaker.state ≠ .halfOpen := by
    rw [hnext]
    cases r with
    | success =>
      show CircuitState.closed ≠ .halfOpen
      decide
    | failure =>
      rw [hset]
      show CircuitState.opened ≠ .halfOpen
      decide
  constructor
  · rintro ⟨-, hlate⟩
    -- A late completion moves the breaker out of HALF_OPEN.
    by_contra htrial
    have hsame := (hlate c r rfl (by simpa using htrial) (by rw [hs]; decide)).1
    exact hne (hsame.trans hs)
  · intro htrial
    have hthe := h.isTrial hc htrial
    refine ⟨?_, ?_⟩
    · cases r with
      | success => exact Or.inr (Or.inr (Or.inr (Or.inl ⟨hs, rfl, c, rfl, hthe⟩)))
      | failure =>
        exact Or.inr (Or.inr (Or.inr (Or.inr ⟨hs, by rw [hnext, hset], c, rfl, hthe⟩)))
    · intro c' r' he hc'
      cases he
      rw [htrial] at hc'
      cases hc'

/-- A completion takes a documented step exactly when it is in time. The cases follow the
state into which the completion falls. -/
theorem documented_finish_iff (h : EdgeInv cfg s) {c : Call} (hc : c ∈ s.calls)
    (r : CallResult) :
    Documented cfg s (.finish c r) (s.next cfg (.finish c r)) ↔
      InTime s (.finish c r) (s.next cfg (.finish c r)) := by
  cases hs : s.breaker.state with
  | closed => exact iff_of_true (h.documented_finish_closed hs c r) (Or.inl hs)
  | opened =>
    rw [h.documented_finish_opened hs hc r]
    simp [InTime, hs]
  | halfOpen =>
    rw [h.documented_finish_halfOpen hs hc r]
    simp [InTime, hs]

/-- A completion that is in time keeps the invariant. -/
theorem finish (h : EdgeInv cfg s) {c : Call} (hc : c ∈ s.calls) (r : CallResult)
    (hin : InTime s (.finish c r) (s.next cfg (.finish c r))) :
    EdgeInv cfg (s.next cfg (.finish c r)) := by
  have hbreaker : (s.next cfg (.finish c r)).breaker = s.settle cfg r := rfl
  have hcalls : (s.next cfg (.finish c r)).calls = s.calls.filter (· ≠ c) := rfl
  have htripped : (s.next cfg (.finish c r)).trippedAt =
    if s.breaker.state ≠ .opened ∧ (s.settle cfg r).state = .opened then some s.monotonic
    else s.trippedAt := rfl
  -- Either no trial was in flight, or the completing call is the one trial.
  have hnone : ∀ t ∈ s.calls.filter (· ≠ c), t.trial = false := by
    intro t ht
    obtain ⟨ht, hne⟩ := List.mem_filter.mp ht
    rcases hin with hs | ⟨-, htrial⟩ | ⟨hs, -, -⟩
    · exact h.not_trial (by rw [hs]; decide) ht
    · by_contra htt
      have heq := h.alone t ht c hc (by simpa using htt) htrial
      simp [heq] at hne
    · exact h.not_trial (by rw [hs]; decide) ht
  have hflagged : ∀ t ∈ (s.next cfg (.finish c r)).calls, t.trial = true →
      (s.next cfg (.finish c r)).breaker.state = .halfOpen ∧
        (s.next cfg (.finish c r)).breaker.halfOpenInFlight = true := by
    intro t ht htrial
    rw [hnone t ht] at htrial
    cases htrial
  have halone : ∀ t ∈ (s.next cfg (.finish c r)).calls,
      ∀ t' ∈ (s.next cfg (.finish c r)).calls, t.trial = true → t'.trial = true → t = t' := by
    intro t ht t' _ htrial
    rw [hnone t ht] at htrial
    cases htrial
  cases r with
  | success =>
    exact ⟨fun _ => cfg.threshold_pos, fun hne => absurd rfl hne, fun hc => (by cases hc),
      hflagged, halone⟩
  | failure =>
    by_cases htrip : s.breaker.state = .halfOpen ∨
        cfg.failureThreshold ≤ s.breaker.failureCount + 1
    · have hset : s.settle cfg .failure = _ := CircuitBreaker.onFailure_of_trip htrip
      refine ⟨fun hc => ?_, fun _ => ?_, fun _ => ?_, hflagged, halone⟩
      · rw [hbreaker, hset] at hc
        cases hc
      · rw [hbreaker, hset]
        show cfg.failureThreshold ≤ s.breaker.failureCount + 1
        rcases htrip with hs | hle
        · have := h.atThreshold (by rw [hs]; decide)
          omega
        · exact hle
      · rw [htripped, hbreaker, hset]
        -- A trip from OPEN is in time only at the reading of the first trip.
        by_cases hs : s.breaker.state = .opened
        · have hsame : s.monotonic = s.breaker.openedAtMonotonic := by
            simpa [InTime, hs] using hin
          simp [hs, h.trip hs, hsame]
        · simp [hs]
    · have hset : s.settle cfg .failure = _ := CircuitBreaker.onFailure_of_count htrip
      obtain ⟨-, hlt⟩ := not_or.mp htrip
      have hs : s.breaker.state = .closed := by
        by_contra hne
        have := h.atThreshold hne
        omega
      refine ⟨fun _ => ?_, fun hne => ?_, fun hc => ?_, hflagged, halone⟩
      · rw [hbreaker, hset]
        show s.breaker.failureCount + 1 < cfg.failureThreshold
        omega
      · rw [hbreaker, hset] at hne
        exact absurd hs hne
      · rw [hbreaker, hset] at hc
        have hc' : s.breaker.state = .opened := hc
        rw [hs] at hc'
        cases hc'

/-! ### Steps and runs -/

/-- A step takes a documented edge exactly when its completion, if it is one, is in time. -/
theorem documented_iff (h : EdgeInv cfg s) {e : Event} {s' : System}
    (hstep : step cfg s e = some s') : Documented cfg s e s' ↔ InTime s e s' := by
  obtain ⟨hen, rfl⟩ := Run.guarded_eq_some.mp hstep
  cases e with
  | tick monotonic wallclock =>
    exact iff_of_true ⟨Or.inl rfl, lateHarmless_of_not_finish (by simp)⟩ trivial
  | arrive id => exact iff_of_true (h.documented_arrive id) trivial
  | finish c r => exact h.documented_finish_iff hen.2 r
  | persisted saved =>
    exact iff_of_true ⟨Or.inl rfl, lateHarmless_of_not_finish (by simp)⟩ trivial
  | cancel c => exact iff_of_true ⟨Or.inl rfl, lateHarmless_of_not_finish (by simp)⟩ trivial

/-- A step whose completion, if it is one, is in time keeps the invariant. -/
theorem step (h : EdgeInv cfg s) {e : Event} {s' : System}
    (hstep : step cfg s e = some s') (hin : InTime s e s') : EdgeInv cfg s' := by
  obtain ⟨hen, rfl⟩ := Run.guarded_eq_some.mp hstep
  cases e with
  | tick monotonic wallclock =>
    exact ⟨h.belowThreshold, h.atThreshold, h.trip, h.flagged, h.alone⟩
  | arrive id => exact h.arrive id
  | finish c r => exact h.finish hen.2 r hin
  | persisted saved => exact ⟨h.belowThreshold, h.atThreshold, h.trip, h.flagged, h.alone⟩
  | cancel c =>
    have hsub : ∀ t ∈ s.calls.filter (· ≠ c), t ∈ s.calls :=
      fun t ht => (List.mem_filter.mp ht).1
    exact ⟨h.belowThreshold, h.atThreshold, h.trip, fun t ht => h.flagged t (hsub t ht),
      fun t ht t' ht' => h.alone t (hsub t ht) t' (hsub t' ht')⟩

end EdgeInv

/-- A run of a fresh breaker takes documented steps only if and only if each of its
completions is in time. -/
theorem documented_iff_inTime (cfg : Settings) (monotonic wallclock : ℚ) (es : List Event) :
    Run.Along (step cfg) (Documented cfg) (System.start monotonic wallclock) es ↔
      Run.Along (step cfg) InTime (System.start monotonic wallclock) es := by
  refine Run.along_iff_along (EdgeInv cfg) ?_ ?_ es _ (EdgeInv.start cfg monotonic wallclock)
  · intro s e s' h hstep
    exact h.documented_iff hstep
  · intro s e s' h hstep hin
    exact h.step hstep hin

/-- Call 2 was admitted while CLOSED. It succeeds after two failures have tripped the
breaker, and it closes the OPEN breaker. -/
theorem late_success_closes :
    ¬ ∀ (cfg : Settings) (monotonic wallclock : ℚ) (es : List Event),
      Run.Along (step cfg) (Documented cfg) (System.start monotonic wallclock) es := by
  intro h
  have hrun : (Run.exec (step twoStrikes) (System.start 0 0)
      [.arrive 0, .arrive 1, .arrive 2, .finish ⟨0, false⟩ .failure,
        .finish ⟨1, false⟩ .failure]).map (fun s => (s.breaker.state, s.calls, s.saving))
      = some (.opened, [⟨2, false⟩], none) := by decide +kernel
  obtain ⟨s, hs, hdata⟩ := Option.map_eq_some_iff.mp hrun
  simp only [Prod.mk.injEq] at hdata
  obtain ⟨hopened, hcalls, hsaving⟩ := hdata
  have hstep : step twoStrikes s (.finish ⟨2, false⟩ .success)
      = some (s.next twoStrikes (.finish ⟨2, false⟩ .success)) :=
    Run.guarded_eq_some.mpr ⟨⟨hsaving, by simp [hcalls]⟩, rfl⟩
  obtain ⟨hedge, -⟩ := Run.along_last hstep _ _ hs (h twoStrikes 0 0 _)
  have hclosed : (s.next twoStrikes (.finish ⟨2, false⟩ .success)).breaker.state = .closed :=
    rfl
  simp [DocumentedEdge, hopened, hclosed] at hedge

end EdgeSentinel.Proofs.Resilience
