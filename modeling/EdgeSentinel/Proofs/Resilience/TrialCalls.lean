import EdgeSentinel.Resilience.CircuitBreaker
import Mathlib.Tactic.NormNum
import Mathlib.Tactic.Linarith

/-!
# `EdgeSentinel.Proofs.Resilience.TrialCalls`: the in-flight flag and the trial calls

`_half_open_in_flight` is one boolean for all callers. `_before_call` raises it for a
trial, and every completion lowers it, whichever call completes.

* A call admitted while CLOSED that completes during a trial lowers the flag of that
  trial. The breaker can then admit a second trial (`two_trials_in_flight`).
  `trials_length_le_one` proves that at most one trial is in flight in every run where no
  such late completion happens (`NoLateFinish`).
* `call()` catches `Exception`, so a cancelled trial lowers nothing. The flag then stays
  raised without a caller, and a HALF_OPEN breaker rejects every call
  (`cancelled_trial_wedges`). `idle_admits` proves that a breaker without callers admits
  again in every run where no trial is cancelled under a raised flag (`SparesTrial`).
-/

set_option autoImplicit false

namespace EdgeSentinel.Proofs.Resilience

open EdgeSentinel.Resilience
open EdgeSentinel.Resilience.System (step arrive_cases settle_halfOpenInFlight)

variable {cfg : Settings}

/-! ### At most one trial -/

/-- A call that is not a trial does not complete while a trial is in flight. -/
def NoLateFinish (s : System) : Event → System → Prop
  | .finish c _, _ => c.trial = true ∨ ∀ t ∈ s.calls, t.trial = false
  | _, _ => True

instance (s : System) : ∀ e s', Decidable (NoLateFinish s e s')
  | .finish c _, _ =>
    inferInstanceAs (Decidable (c.trial = true ∨ ∀ t ∈ s.calls, t.trial = false))
  | .tick _ _, _ => isTrue trivial
  | .arrive _, _ => isTrue trivial
  | .persisted _, _ => isTrue trivial
  | .cancel _, _ => isTrue trivial

/-- The invariant of the trials. While no call saves, at most one trial is in `calls`, and
it keeps the breaker HALF_OPEN with the flag raised. While a call saves, `calls` holds no
trial. -/
structure TrialInv (s : System) : Prop where
  oneTrial : (s.calls.filter (·.trial)).length ≤ 1
  flagged : ∀ t ∈ s.calls, t.trial = true →
    s.breaker.state = .halfOpen ∧ s.breaker.halfOpenInFlight = true
  saving : s.saving ≠ none → ∀ t ∈ s.calls, t.trial = false

/-- Two members of a list that satisfy `p` are equal when at most one entry does. -/
theorem eq_of_filter_length_le_one {α : Type} {p : α → Bool} {l : List α}
    (h : (l.filter p).length ≤ 1) {a b : α} (ha : a ∈ l) (hpa : p a = true) (hb : b ∈ l)
    (hpb : p b = true) : a = b := by
  have ha' : a ∈ l.filter p := List.mem_filter.mpr ⟨ha, hpa⟩
  have hb' : b ∈ l.filter p := List.mem_filter.mpr ⟨hb, hpb⟩
  match hl : l.filter p, h with
  | [], _ => simp [hl] at ha'
  | [x], _ =>
    rw [hl, List.mem_singleton] at ha' hb'
    rw [ha', hb']

/-- Removing calls keeps at most one trial. -/
theorem length_trials_filter_le (calls : List Call) (p : Call → Bool) :
    ((calls.filter p).filter (·.trial)).length ≤ (calls.filter (·.trial)).length :=
  (List.filter_sublist.filter _).length_le

section
variable {s : System} (hflagged : ∀ t ∈ s.calls, t.trial = true →
  s.breaker.state = .halfOpen ∧ s.breaker.halfOpenInFlight = true)

include hflagged

/-- When a trial holds the breaker HALF_OPEN, there is none in another state. -/
theorem trial_eq_false_of_state (hs : s.breaker.state ≠ .halfOpen) :
    ∀ t ∈ s.calls, t.trial = false := by
  intro t ht
  by_contra hne
  exact hs (hflagged t ht (by simpa using hne)).1

/-- When a trial holds the flag up, there is none with a low flag. -/
theorem trial_eq_false_of_flag (hf : s.breaker.halfOpenInFlight = false) :
    ∀ t ∈ s.calls, t.trial = false := by
  intro t ht
  by_contra hne
  have hflag := (hflagged t ht (by simpa using hne)).2
  rw [hf] at hflag
  cases hflag

end

/-- An invariant about `calls` with a raised flag excludes a trial while CLOSED or OPEN. -/
theorem TrialInv.no_trial_of_state {s : System} (h : TrialInv s)
    (hs : s.breaker.state ≠ .halfOpen) : ∀ t ∈ s.calls, t.trial = false :=
  trial_eq_false_of_state h.flagged hs

/-- The admission of a new call keeps the trial invariant. -/
theorem TrialInv.arrive {s : System} (h : TrialInv s) (hsave : s.saving = none) (id : Nat) :
    TrialInv (s.next cfg (.arrive id)) := by
  rcases arrive_cases cfg s id with hnext | ⟨hs, hnext⟩ | ⟨hs, -, hnext⟩ | ⟨hs, hf, hnext⟩ <;>
    rw [hnext]
  · exact h
  · -- CLOSED: the new call is not a trial, and no trial is in flight.
    have hnone := h.no_trial_of_state (by rw [hs]; decide)
    refine ⟨?_, ?_, fun hne => absurd hsave hne⟩
    · simpa using h.oneTrial
    · intro t ht htrial
      rcases List.mem_cons.mp ht with rfl | ht
      · cases htrial
      · rw [hnone t ht] at htrial
        cases htrial
  · have hnone := h.no_trial_of_state (by rw [hs]; decide)
    refine ⟨?_, fun t _ _ => ⟨rfl, rfl⟩, fun hne => absurd hsave hne⟩
    have hfilter : s.calls.filter (·.trial) = [] := by
      simpa [List.filter_eq_nil_iff] using hnone
    simp [hfilter]
  · -- A trial in flight would hold the flag up.
    have hnone := trial_eq_false_of_flag h.flagged hf
    refine ⟨?_, fun t _ _ => ⟨hs, rfl⟩, fun hne => absurd hsave hne⟩
    have hfilter : s.calls.filter (·.trial) = [] := by
      simpa [List.filter_eq_nil_iff] using hnone
    simp [hfilter]

/-- A completion that is not late leaves no trial in `calls`. -/
theorem TrialInv.no_trial_after_finish {s : System} (h : TrialInv s) {c : Call}
    (hc : c ∈ s.calls) (hg : c.trial = true ∨ ∀ t ∈ s.calls, t.trial = false) :
    ∀ t ∈ s.calls.filter (· ≠ c), t.trial = false := by
  intro t ht
  obtain ⟨ht, hne⟩ := List.mem_filter.mp ht
  rcases hg with hc' | hnone
  · -- The completing call is the trial, and there is no other.
    by_contra htrial
    have heq := eq_of_filter_length_le_one h.oneTrial ht (by simpa using htrial) hc hc'
    simp [heq] at hne
  · exact hnone t ht

/-- Each step without a late completion keeps the trial invariant. -/
theorem TrialInv.step {s s' : System} {e : Event} (h : TrialInv s)
    (hstep : step cfg s e = some s') (hg : NoLateFinish s e s') : TrialInv s' := by
  obtain ⟨hen, rfl⟩ := Run.guarded_eq_some.mp hstep
  cases e with
  | tick monotonic wallclock => exact ⟨h.oneTrial, h.flagged, h.saving⟩
  | arrive id => exact h.arrive hen.1 id
  | finish c r =>
    have hnone := h.no_trial_after_finish hen.2 hg
    have hfilter : (s.calls.filter (· ≠ c)).filter (·.trial) = [] :=
      List.filter_eq_nil_iff.mpr fun t ht => by simp [hnone t ht]
    refine ⟨?_, ?_, fun _ => hnone⟩
    · show ((s.calls.filter (· ≠ c)).filter (·.trial)).length ≤ 1
      rw [hfilter]
      decide
    · intro t ht htrial
      rw [hnone t ht] at htrial
      cases htrial
  | persisted saved => exact ⟨h.oneTrial, h.flagged, fun hne => absurd rfl hne⟩
  | cancel c =>
    have hsub : ∀ t ∈ s.calls.filter (· ≠ c), t ∈ s.calls :=
      fun t ht => (List.mem_filter.mp ht).1
    refine ⟨(length_trials_filter_le s.calls _).trans h.oneTrial,
      fun t ht => h.flagged t (hsub t ht), fun hne t ht => ?_⟩
    have hsave : s.saving ≠ none := by
      intro hnone
      simp [System.next, hnone] at hne
    exact h.saving hsave t (hsub t ht)

theorem TrialInv.start (monotonic wallclock : ℚ) :
    TrialInv (System.start monotonic wallclock) :=
  ⟨Nat.zero_le 1, by simp [System.start], by simp [System.start]⟩

/-- Under the trial invariant at most one trial is in flight, saving or not. -/
theorem TrialInv.trials_le {s : System} (h : TrialInv s) : s.trials.length ≤ 1 := by
  unfold System.trials
  rw [List.filter_append, List.length_append]
  cases hsave : s.saving with
  | none => simpa using h.oneTrial
  | some c =>
    have hnone : s.calls.filter (·.trial) = [] :=
      List.filter_eq_nil_iff.mpr fun t ht => by
        simp [h.saving (by simp [hsave]) t ht]
    rw [hnone]
    exact (Nat.zero_add _).le.trans (List.length_filter_le _ _)

/-- In every run of a fresh breaker where no call admitted while CLOSED completes during a
trial, at most one trial is in flight, in every state that the run reaches. -/
theorem trials_length_le_one (cfg : Settings) (monotonic wallclock : ℚ) (es : List Event)
    (s : System) (h : Run.exec (step cfg) (System.start monotonic wallclock) es = some s)
    (hg : Run.Along (step cfg) NoLateFinish (System.start monotonic wallclock) es) :
    s.trials.length ≤ 1 := by
  have hinv := Run.exec_invariant TrialInv (fun s e s' hs hs' hg => hs.step hs' hg) es _ s
    (TrialInv.start monotonic wallclock) h hg
  exact hinv.trials_le

/-- A breaker that trips at the second failure and may be tried again at once. -/
def twoStrikes : Settings where
  failureThreshold := 2
  recoveryTimeout := 0
  name := "default"
  hasStore := false
  threshold_pos := by decide
  timeout_nonneg := by decide

/-- Two failures trip `twoStrikes`, and call 3 is its trial. -/
def oneTrialRun : List Event :=
  [.arrive 0, .arrive 1, .arrive 2, .finish ⟨0, false⟩ .failure, .finish ⟨1, false⟩ .failure,
    .arrive 3]

/-- The hypotheses hold of a run with a trial in flight. -/
theorem trials_length_le_one_oneTrialRun :
    ((Run.exec (step twoStrikes) (System.start 0 0) oneTrialRun).get (by decide)).trials.length
      ≤ 1 :=
  trials_length_le_one twoStrikes 0 0 oneTrialRun _ (Option.some_get _).symm (by decide)

/-- Call 2 was admitted while CLOSED and fails during the trial of call 3. Call 4 is then
admitted as a second trial, with call 3 still in flight. -/
theorem two_trials_in_flight :
    ¬ ∀ (cfg : Settings) (monotonic wallclock : ℚ) (es : List Event) (s : System),
      Run.exec (step cfg) (System.start monotonic wallclock) es = some s →
      s.trials.length ≤ 1 := by
  intro h
  have hrun : ((Run.exec (step twoStrikes) (System.start 0 0)
      (oneTrialRun ++ [.finish ⟨2, false⟩ .failure, .arrive 4])).map
        fun s => s.trials) = some [⟨4, true⟩, ⟨3, true⟩] := by decide +kernel
  obtain ⟨s, hs, htrials⟩ := Option.map_eq_some_iff.mp hrun
  have hle := h twoStrikes 0 0 _ s hs
  rw [htrials] at hle
  exact absurd hle (by decide)

/-! ### A breaker without callers -/

/-- A trial is not cancelled while the in-flight flag is raised. -/
def SparesTrial (s : System) : Event → System → Prop
  | .cancel c, _ => c ∈ s.calls → c.trial = true → s.breaker.halfOpenInFlight = false
  | _, _ => True

instance (s : System) : ∀ e s', Decidable (SparesTrial s e s')
  | .cancel c, _ => inferInstanceAs
      (Decidable (c ∈ s.calls → c.trial = true → s.breaker.halfOpenInFlight = false))
  | .tick _ _, _ => isTrue trivial
  | .arrive _, _ => isTrue trivial
  | .persisted _, _ => isTrue trivial
  | .finish _ _, _ => isTrue trivial

/-- No `call()` is executing. -/
def Idle (s : System) : Prop :=
  s.calls = [] ∧ s.saving = none

/-- A call that arrives at the reading `monotonic` is admitted. -/
def Admits (cfg : Settings) (s : System) (monotonic : ℚ) : Prop :=
  ∃ cb, s.breaker.beforeCall cfg monotonic = .ok cb

/-- At the reading `monotonic`, an OPEN breaker was tripped `recovery_timeout` ago or
earlier. -/
def Recovered (cfg : Settings) (s : System) (monotonic : ℚ) : Prop :=
  s.breaker.state = .opened → s.breaker.openedAtMonotonic + cfg.recoveryTimeout ≤ monotonic

/-- A raised flag has its trial in flight. -/
def FlagInv (s : System) : Prop :=
  s.breaker.halfOpenInFlight = true → ∃ t ∈ s.calls, t.trial = true

/-- The admission of a new call keeps the flag invariant: the flag is raised for a trial. -/
theorem FlagInv.arrive {s : System} (h : FlagInv s) (id : Nat) :
    FlagInv (s.next cfg (.arrive id)) := by
  rcases arrive_cases cfg s id with hnext | ⟨-, hnext⟩ | ⟨-, -, hnext⟩ | ⟨-, -, hnext⟩ <;>
    rw [hnext]
  · exact h
  · intro hflag
    obtain ⟨t, ht, htrial⟩ := h hflag
    exact ⟨t, List.mem_cons_of_mem _ ht, htrial⟩
  · exact fun _ => ⟨_, List.mem_cons_self, rfl⟩
  · exact fun _ => ⟨_, List.mem_cons_self, rfl⟩

/-- Each step that spares the trial keeps the flag invariant. -/
theorem FlagInv.step {s s' : System} {e : Event} (h : FlagInv s)
    (hstep : step cfg s e = some s') (hg : SparesTrial s e s') : FlagInv s' := by
  obtain ⟨hen, rfl⟩ := Run.guarded_eq_some.mp hstep
  cases e with
  | tick monotonic wallclock => exact h
  | arrive id => exact h.arrive id
  | finish c r =>
    -- Every completion lowers the flag.
    intro hflag
    have hlow : (s.settle cfg r).halfOpenInFlight = true := hflag
    rw [settle_halfOpenInFlight] at hlow
    cases hlow
  | persisted saved => exact h
  | cancel c =>
    intro hflag
    have hup : s.breaker.halfOpenInFlight = true := hflag
    obtain ⟨t, ht, htrial⟩ := h hup
    -- The cancelled call is not this trial, so the trial stays in `calls`.
    have hne : t ≠ c := by
      rintro rfl
      rw [hg ht htrial] at hup
      cases hup
    exact ⟨t, List.mem_filter.mpr ⟨ht, by simpa using hne⟩, htrial⟩

/-- With a low flag, a breaker admits once its timeout has elapsed. -/
theorem admits_of_low_flag {s : System} {monotonic : ℚ}
    (hflag : s.breaker.halfOpenInFlight = false) (hrec : Recovered cfg s monotonic) :
    Admits cfg s monotonic := by
  unfold Admits CircuitBreaker.beforeCall
  cases hs : s.breaker.state with
  | closed => exact ⟨_, rfl⟩
  | opened =>
    have hlate : ¬ monotonic - s.breaker.openedAtMonotonic < cfg.recoveryTimeout := by
      have := hrec hs
      linarith
    exact ⟨_, if_neg hlate⟩
  | halfOpen => exact ⟨_, if_neg (by simp [hflag])⟩

/-- In every run of a fresh breaker where no trial is cancelled under a raised flag: in
every state without an executing call the flag is low, and a call that arrives once
`recovery_timeout` has elapsed since the last trip is admitted. -/
theorem idle_admits (cfg : Settings) (monotonic wallclock : ℚ) (es : List Event)
    (s : System) (h : Run.exec (step cfg) (System.start monotonic wallclock) es = some s)
    (hg : Run.Along (step cfg) SparesTrial (System.start monotonic wallclock) es)
    (hidle : Idle s) :
    s.breaker.halfOpenInFlight = false ∧
      ∀ later, s.monotonic ≤ later → Recovered cfg s later → Admits cfg s later := by
  have hinv := Run.exec_invariant FlagInv (fun s e s' hs hs' hg => hs.step hs' hg) es _ s
    (fun hflag => by cases hflag) h hg
  have hflag : s.breaker.halfOpenInFlight = false := by
    by_contra hne
    obtain ⟨t, ht, -⟩ := hinv (by simpa using hne)
    rw [hidle.1] at ht
    cases ht
  exact ⟨hflag, fun _ _ hrec => admits_of_low_flag hflag hrec⟩

/-- The calls of `oneTrialRun` all end, the late call 2 by cancellation. -/
theorem idle_admits_oneTrialRun :
    ∃ s, Run.exec (step twoStrikes) (System.start 0 0)
        (oneTrialRun ++ [.cancel ⟨2, false⟩, .finish ⟨3, true⟩ .failure]) = some s ∧
      s.breaker.halfOpenInFlight = false ∧ Admits twoStrikes s 0 := by
  have hidle : (Run.exec (step twoStrikes) (System.start 0 0)
      (oneTrialRun ++ [.cancel ⟨2, false⟩, .finish ⟨3, true⟩ .failure])).map
        (fun s => (s.calls, s.saving, s.monotonic, s.breaker.openedAtMonotonic))
      = some ([], none, 0, 0) := by decide +kernel
  obtain ⟨s, hs, hdata⟩ := Option.map_eq_some_iff.mp hidle
  simp only [Prod.mk.injEq] at hdata
  obtain ⟨hcalls, hsaving, hnow, hopened⟩ := hdata
  obtain ⟨hflag, hadmits⟩ := idle_admits twoStrikes 0 0 _ s hs (by decide +kernel)
    ⟨hcalls, hsaving⟩
  refine ⟨s, hs, hflag, hadmits 0 (by rw [hnow]) fun _ => ?_⟩
  rw [hopened]
  exact (zero_add _).le

/-- The trial, call 3, is cancelled, and the late call 2 too. No call is executing, the
flag is raised, and the HALF_OPEN breaker rejects a call at every later reading. -/
theorem cancelled_trial_wedges :
    (¬ ∀ (cfg : Settings) (monotonic wallclock : ℚ) (es : List Event) (s : System),
      Run.exec (step cfg) (System.start monotonic wallclock) es = some s → Idle s →
      s.breaker.halfOpenInFlight = false ∧
        ∀ later, s.monotonic ≤ later → Recovered cfg s later → Admits cfg s later) ∧
    ∃ s, Run.exec (step twoStrikes) (System.start 0 0)
        (oneTrialRun ++ [.cancel ⟨2, false⟩, .cancel ⟨3, true⟩]) = some s ∧
      Idle s ∧ ∀ later, ¬ Admits twoStrikes s later := by
  have hrun : (Run.exec (step twoStrikes) (System.start 0 0)
      (oneTrialRun ++ [.cancel ⟨2, false⟩, .cancel ⟨3, true⟩])).map
        (fun s => (s.calls, s.saving, s.breaker.state, s.breaker.halfOpenInFlight))
      = some ([], none, .halfOpen, true) := by decide +kernel
  obtain ⟨s, hs, hdata⟩ := Option.map_eq_some_iff.mp hrun
  simp only [Prod.mk.injEq] at hdata
  obtain ⟨hcalls, hsaving, hstate, hflag⟩ := hdata
  refine ⟨fun h => ?_, s, hs, ⟨hcalls, hsaving⟩, fun later hadmits => ?_⟩
  · have hlow := (h twoStrikes 0 0 _ s hs ⟨hcalls, hsaving⟩).1
    rw [hflag] at hlow
    cases hlow
  · obtain ⟨cb, hcb⟩ := hadmits
    simp [CircuitBreaker.beforeCall, hstate, hflag] at hcb

end EdgeSentinel.Proofs.Resilience
