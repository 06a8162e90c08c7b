import EdgeSentinel.Resilience.Calls

/-!
# `EdgeSentinel.Proofs.Resilience.Sequential`: calls one after the other

`Reference` is the breaker without its three states. It counts the failures since the last
success and keeps the reading of the last trip. Calls that are made one after the other are
admitted, rejected and counted as the reference says, and they end as it says
(`serve_eq_reference`).

Between two calls the breaker is CLOSED or OPEN, never HALF_OPEN. `Follows` is the simulation
relation: CLOSED goes with no trip and a count below the threshold, and OPEN with a trip at
`_opened_at_monotonic`.
-/

set_option autoImplicit false

namespace EdgeSentinel.Proofs.Resilience

open Async
open EdgeSentinel.Resilience

variable {ε α : Type}

/-- What a caller sees of a call: whether the function was invoked, how the call ends, and
`failure_count` after it. -/
structure Seen (ε α : Type) where
  invoked : Bool
  ends : Outcome (ResilienceError ε) α
  failureCount : Nat

/-- The failures since the last success, and the reading of the last trip, when there was no
success after it. -/
structure Reference where
  failures : Nat := 0
  trip : Option ℚ := none
  deriving DecidableEq

namespace Reference

/-- A call is admitted without a trip, and from `recovery_timeout` after the trip on. -/
def admits (cfg : Settings) (r : Reference) (reading : ℚ) : Bool :=
  r.trip.all fun trip => cfg.recoveryTimeout ≤ reading - trip

/-- The outcome of an admitted call. It trips at the threshold, and when a trial fails. -/
def settle (cfg : Settings) (r : Reference) (c : TimedCall ε α) : Reference :=
  match c.outcome with
  | .ok _ => {}
  | .error _ =>
    { failures := r.failures + 1
      trip :=
        if r.trip.isSome ∨ r.failures + 1 = cfg.failureThreshold then some c.completion
        else none }

/-- The reference after a call. A rejected call changes nothing. -/
def next (cfg : Settings) (r : Reference) (c : TimedCall ε α) : Reference :=
  if r.admits cfg c.arrival then r.settle cfg c else r

/-- What is seen of a call: its own outcome, or the rejection. -/
def seen (cfg : Settings) (r : Reference) (c : TimedCall ε α) : Seen ε α where
  invoked := r.admits cfg c.arrival
  ends :=
    if r.admits cfg c.arrival then
      match c.outcome with
      | .ok value => .returned value
      | .error e => .raised (.function e)
    else .raised (.circuitOpen ⟨cfg.name⟩)
  failureCount := (r.next cfg c).failures

/-- What is seen of calls that are made one after the other. -/
def serve (cfg : Settings) (r : Reference) : List (TimedCall ε α) → List (Seen ε α)
  | [] => []
  | c :: calls => r.seen cfg c :: serve cfg (r.next cfg c) calls

end Reference

/-- What is seen of a call of the breaker. -/
def seen (s : Served ε α) : Seen ε α := ⟨s.invoked, s.ends, s.after.failureCount⟩

/-- The breaker between two calls, and the reference. -/
inductive Follows (cfg : Settings) (cb : CircuitBreaker) (r : Reference) : Prop where
  | closed (state : cb.state = .closed) (trip : r.trip = none)
      (count : cb.failureCount = r.failures) (below : r.failures < cfg.failureThreshold)
  | opened (state : cb.state = .opened) (trip : r.trip = some cb.openedAtMonotonic)
      (count : cb.failureCount = r.failures)

namespace Follows

variable {cfg : Settings} {cb : CircuitBreaker} {r : Reference}

theorem fresh (cfg : Settings) : Follows cfg .fresh {} := .closed rfl rfl rfl cfg.threshold_pos

theorem count_eq (h : Follows cfg cb r) : cb.failureCount = r.failures := by
  cases h with
  | closed _ _ hcount _ => exact hcount
  | opened _ _ hcount => exact hcount

/-- The next caller is admitted as the reference says, as an ordinary call or as a trial. -/
theorem beforeCall (h : Follows cfg cb r) (reading : ℚ) :
    (r.admits cfg reading = false ∧ cb.beforeCall cfg reading = .error ⟨cfg.name⟩) ∨
    (r.admits cfg reading = true ∧ ∃ cb', cb.beforeCall cfg reading = .ok cb' ∧
      cb'.failureCount = r.failures ∧
      ((cb'.state = .closed ∧ r.trip = none ∧ r.failures < cfg.failureThreshold) ∨
        (cb'.state = .halfOpen ∧ r.trip.isSome))) := by
  cases h with
  | closed hstate htrip hcount hbelow =>
    -- CLOSED admits every caller, and changes nothing.
    right
    refine ⟨by simp [Reference.admits, htrip], cb, by simp [CircuitBreaker.beforeCall, hstate],
      hcount, Or.inl ⟨hstate, htrip, hbelow⟩⟩
  | opened hstate htrip hcount =>
    -- OPEN rejects until the timeout is over. Then the caller is the trial.
    by_cases hearly : reading - cb.openedAtMonotonic < cfg.recoveryTimeout
    · left
      exact ⟨by simpa [Reference.admits, htrip] using hearly,
        by simp [CircuitBreaker.beforeCall, hstate, hearly]⟩
    · right
      refine ⟨by simpa [Reference.admits, htrip] using hearly,
        { cb with state := .halfOpen, halfOpenInFlight := true },
        by simp [CircuitBreaker.beforeCall, hstate, hearly], hcount, Or.inr ⟨rfl, ?_⟩⟩
      rw [htrip]
      rfl

/-- A failure of an admitted call. -/
theorem onFailure (hcount : cb.failureCount = r.failures)
    (hstate : (cb.state = .closed ∧ r.trip = none ∧ r.failures < cfg.failureThreshold) ∨
      (cb.state = .halfOpen ∧ r.trip.isSome)) {c : TimedCall ε α} {e : ε}
    (hout : c.outcome = .error e) :
    Follows cfg (cb.onFailure cfg c.completion c.wallclock) (r.settle cfg c) := by
  unfold Reference.settle
  rw [hout]
  dsimp only
  rcases hstate with ⟨hclosed, htrip, hbelow⟩ | ⟨hhalf, htrip⟩
  · by_cases hthreshold : r.failures + 1 = cfg.failureThreshold
    · rw [if_pos (Or.inr hthreshold),
        CircuitBreaker.onFailure_of_trip (Or.inr (by omega))]
      exact .opened rfl rfl (by rw [hcount])
    · -- Below the threshold the failure only counts.
      have hcounts : ¬ (cb.state = .halfOpen ∨ cfg.failureThreshold ≤ cb.failureCount + 1) := by
        rw [hclosed, hcount]
        rintro (hhalf | hle)
        · cases hhalf
        · omega
      have hno : ¬ (r.trip.isSome = true ∨ r.failures + 1 = cfg.failureThreshold) := by
        rw [htrip]
        rintro (hsome | heq)
        · cases hsome
        · exact hthreshold heq
      rw [if_neg hno, CircuitBreaker.onFailure_of_count hcounts]
      refine .closed hclosed rfl (by rw [hcount]) ?_
      show r.failures + 1 < cfg.failureThreshold
      omega
  · -- A failed trial trips at once.
    rw [if_pos (Or.inl htrip), CircuitBreaker.onFailure_of_trip (Or.inl hhalf)]
    exact .opened rfl rfl (by rw [hcount])

/-- One call. -/
theorem serve (h : Follows cfg cb r) (c : TimedCall ε α) :
    seen (c.serve cfg cb) = r.seen cfg c ∧ Follows cfg (c.serve cfg cb).after (r.next cfg c) ∧
      ((c.serve cfg cb).invoked = false → (c.serve cfg cb).after = cb) := by
  rcases h.beforeCall c.arrival with ⟨hno, hbefore⟩ | ⟨hyes, cb', hbefore, hcount, hstate⟩
  · have hserve : c.serve cfg cb = ⟨cb, false, .raised (.circuitOpen ⟨cfg.name⟩), cb⟩ := by
      simp only [TimedCall.serve]
      rw [Resilient.run_call_of_rejected hbefore]
    have hnext : r.next cfg c = r := by rw [Reference.next, hno, if_neg (by decide)]
    rw [hserve, hnext]
    refine ⟨?_, h, fun _ => rfl⟩
    simp [seen, Reference.seen, hno, hnext, h.count_eq]
  · have hnext : r.next cfg c = r.settle cfg c := by rw [Reference.next, hyes, if_pos rfl]
    cases hout : c.outcome with
    | ok value =>
      have hfunc : c.func.run ⟨cb', c.arrival, c.wallclock, false⟩
          = (.returned value, ⟨cb', c.completion, c.wallclock, true⟩) := by
        simp [TimedCall.func, Proc.run_bind, hout]
      have hserve : c.serve cfg cb = ⟨cb, true, .returned value, cb'.onSuccess⟩ := by
        simp only [TimedCall.serve]
        rw [Resilient.run_call_of_returned hbefore hfunc]
      have hsettle : r.settle cfg c = {} := by rw [Reference.settle, hout]
      rw [hserve, hnext, hsettle]
      refine ⟨?_, .closed rfl rfl rfl cfg.threshold_pos, nofun⟩
      simp [seen, Reference.seen, hyes, hnext, hsettle, hout, CircuitBreaker.onSuccess]
    | error e =>
      have hfunc : c.func.run ⟨cb', c.arrival, c.wallclock, false⟩
          = (.raised (.function e), ⟨cb', c.completion, c.wallclock, true⟩) := by
        simp [TimedCall.func, Proc.run_bind, hout]
      have hserve : c.serve cfg cb = ⟨cb, true, .raised (.function e),
          cb'.onFailure cfg c.completion c.wallclock⟩ := by
        simp only [TimedCall.serve]
        rw [Resilient.run_call_of_raised hbefore hfunc]
      have hfollows := onFailure hcount hstate hout
      rw [hserve, hnext]
      refine ⟨?_, hfollows, nofun⟩
      simp [seen, Reference.seen, hyes, hnext, hout, hfollows.count_eq]

end Follows

/-- From matching states on, all calls are seen alike. -/
theorem serve_seen {cfg : Settings} (calls : List (TimedCall ε α)) :
    ∀ (cb : CircuitBreaker) (r : Reference), Follows cfg cb r →
      (serve cfg cb calls).map seen = r.serve cfg calls ∧
        ∀ s ∈ serve cfg cb calls, s.invoked = false → s.after = s.before := by
  induction calls with
  | nil => exact fun _ _ _ => ⟨rfl, by simp [serve]⟩
  | cons c calls ih =>
    intro cb r h
    obtain ⟨hseen, hnext, hrejected⟩ := h.serve c
    obtain ⟨hmap, hall⟩ := ih _ _ hnext
    constructor
    · simp only [serve, Reference.serve, List.map_cons, hseen, hmap]
    · intro s hs
      rcases List.mem_cons.mp hs with rfl | hs
      · exact hrejected
      · exact hall s hs

/-- Calls that are made one after the other on a fresh breaker are seen as the reference says,
and a rejected call leaves the breaker as it is. -/
theorem serve_eq_reference (cfg : Settings) (calls : List (TimedCall ε α)) :
    (serve cfg .fresh calls).map seen = Reference.serve cfg {} calls ∧
      ∀ s ∈ serve cfg .fresh calls, s.invoked = false → s.after = s.before :=
  serve_seen calls .fresh {} (Follows.fresh cfg)

/-- Two failures trip the breaker at 1. The call at 10 comes too early, and the call at 11
comes as a trial. -/
example : (Reference.serve ⟨2, 10, "uploads", false, by decide, by decide⟩ {}
    [⟨0, 0, 0, .error "lost"⟩, ⟨1, 1, 1, .error "lost"⟩, ⟨10, 10, 10, .ok 7⟩,
      (⟨11, 12, 12, .ok 7⟩ : TimedCall String Nat)]).map (fun s => (s.invoked, s.failureCount))
    = [(true, 1), (true, 2), (false, 2), (true, 0)] := by
  decide +kernel

end EdgeSentinel.Proofs.Resilience
