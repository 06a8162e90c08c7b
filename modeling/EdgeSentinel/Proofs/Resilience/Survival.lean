import EdgeSentinel.Resilience.Restore
import Mathlib.Tactic.Linarith

/-!
# `EdgeSentinel.Proofs.Resilience.Survival`: a restored breaker goes on as the original

`restored_agrees` follows a breaker with a store through any run of calls and restarts, and
next to it the original, which forgets the interrupted calls. After every run both admit or
reject the next call alike, and both report the same count.

The two breakers need not be in the same state. A breaker that comes back after its recovery
window is HALF_OPEN, and the original is still OPEN, about to let the next caller through.
`Alike` allows for this case. `Agree` is the simulation relation. It keeps the stored record
equal to the record of the original without its unsaved calls.
-/

set_option autoImplicit false

namespace EdgeSentinel.Proofs.Resilience

open EdgeSentinel.Resilience
open EdgeSentinel.Resilience.CircuitBreaker (beforeCall admits restore fresh)

variable {cfg : Settings}

/-- The timestamps of a breaker fit the clocks: an OPEN breaker has a wall-clock stamp that
lies as far back as its monotonic one, and a CLOSED breaker has none. -/
structure Stamped (cb : CircuitBreaker) (monotonic wallclock : ℚ) : Prop where
  opened : cb.state = .opened → ∃ at_, cb.openedAtWallclock = some at_ ∧
    wallclock - at_ = monotonic - cb.openedAtMonotonic
  closed : cb.state = .closed → cb.openedAtWallclock = none

/-- Two breakers that the next caller cannot tell apart. -/
inductive Alike (cfg : Settings) (monotonic' : ℚ) (cb cb' : CircuitBreaker) : Prop where
  /-- The same state. -/
  | same (state : cb.state = cb'.state) (count : cb.failureCount = cb'.failureCount)
      (flag : cb.halfOpenInFlight = cb'.halfOpenInFlight)
      (stamp : cb.state ≠ .halfOpen → cb.openedAtWallclock = cb'.openedAtWallclock)
  /-- HALF_OPEN without a trial, and OPEN past the timeout. -/
  | ready (state : cb.state = .halfOpen) (state' : cb'.state = .opened)
      (count : cb.failureCount = cb'.failureCount) (flag : cb.halfOpenInFlight = false)
      (late : cfg.recoveryTimeout ≤ monotonic' - cb'.openedAtMonotonic)

/-- The store holds the record of the breaker `cb`, or nothing when `cb` is fresh. -/
def Recorded (stored : Option BreakerRecord) (cb : CircuitBreaker) : Prop :=
  stored = some cb.record ∨ (stored = none ∧ cb = fresh)

/-- The simulation relation between a breaker that lives through restarts and the original. -/
structure Agree (cfg : Settings) (s : System) (o : Original) : Prop where
  calls : s.calls = o.system.calls
  saving : s.saving = o.system.saving
  wallclock : s.wallclock = o.system.wallclock
  alike : Alike cfg o.system.monotonic s.breaker o.system.breaker
  stamped : Stamped s.breaker s.monotonic s.wallclock
  stamped' : Stamped o.system.breaker o.system.monotonic s.wallclock
  settled : Stamped o.settled o.system.monotonic s.wallclock
  recorded : Recorded s.stored o.settled
  /-- Between calls the breaker rests in CLOSED or OPEN, with the flag low. -/
  rests : o.settled.state ≠ .halfOpen ∧ o.settled.halfOpenInFlight = false
  /-- Calls are made one at a time. -/
  alone : ∀ c ∈ s.calls, ∀ t ∈ s.calls, t = c
  /-- A call runs in CLOSED or HALF_OPEN. -/
  running : s.calls ≠ [] → s.breaker.state ≠ .opened ∧ o.system.breaker.state ≠ .opened
  /-- An outcome is saved in CLOSED or OPEN. -/
  ended : s.saving ≠ none →
    s.breaker.state ≠ .halfOpen ∧ o.system.breaker.halfOpenInFlight = false

/-- No outcome leaves the breaker HALF_OPEN. -/
theorem onFailure_ne_halfOpen (cb : CircuitBreaker) (monotonic wallclock : ℚ) :
    (cb.onFailure cfg monotonic wallclock).state ≠ .halfOpen := by
  by_cases htrip : cb.state = .halfOpen ∨ cfg.failureThreshold ≤ cb.failureCount + 1
  · rw [CircuitBreaker.onFailure_of_trip htrip]
    show CircuitState.opened ≠ .halfOpen
    decide
  · rw [CircuitBreaker.onFailure_of_count htrip]
    exact (not_or.mp htrip).1

/-! ### The clocks -/

namespace Stamped

variable {cb : CircuitBreaker} {monotonic wallclock : ℚ}

theorem ofFresh (monotonic wallclock : ℚ) : Stamped fresh monotonic wallclock where
  opened h := by cases h
  closed _ := rfl

/-- The clocks may advance together. -/
theorem elapse (h : Stamped cb monotonic wallclock) (d : ℚ) :
    Stamped cb (monotonic + d) (wallclock + d) where
  opened hs := by
    obtain ⟨at_, hat, hback⟩ := h.opened hs
    refine ⟨at_, hat, ?_⟩
    show wallclock + d - at_ = monotonic + d - cb.openedAtMonotonic
    linarith
  closed := h.closed

/-- A HALF_OPEN breaker has no stamp to fit. -/
theorem ofHalfOpen (hs : cb.state = .halfOpen) : Stamped cb monotonic wallclock where
  opened h := by rw [hs] at h; cases h
  closed h := by rw [hs] at h; cases h

/-- A failure stamps the breaker with the two readings when it trips it. -/
theorem onFailure (h : Stamped cb monotonic wallclock) (hs : cb.state ≠ .opened) :
    Stamped (cb.onFailure cfg monotonic wallclock) monotonic wallclock := by
  by_cases htrip : cb.state = .halfOpen ∨ cfg.failureThreshold ≤ cb.failureCount + 1
  · rw [CircuitBreaker.onFailure_of_trip htrip]
    refine ⟨fun _ => ⟨wallclock, rfl, ?_⟩, fun h => by cases h⟩
    show wallclock - wallclock = monotonic - monotonic
    rw [sub_self, sub_self]
  · rw [CircuitBreaker.onFailure_of_count htrip]
    exact ⟨fun h => absurd h hs, fun hc => h.closed hc⟩

end Stamped

namespace Alike

variable {cb cb' : CircuitBreaker} {monotonic monotonic' wallclock : ℚ}

theorem refl (cb : CircuitBreaker) : Alike cfg monotonic cb cb :=
  .same rfl rfl rfl fun _ => rfl

theorem count_eq (h : Alike cfg monotonic' cb cb') : cb.failureCount = cb'.failureCount := by
  cases h with
  | same _ hcount _ _ => exact hcount
  | ready _ _ hcount _ _ => exact hcount

/-- A breaker that is ready stays ready. -/
theorem elapse (h : Alike cfg monotonic' cb cb') {d : ℚ} (hd : 0 ≤ d) :
    Alike cfg (monotonic' + d) cb cb' := by
  cases h with
  | same hs hcount hflag hstamp => exact .same hs hcount hflag hstamp
  | ready hs hs' hcount hflag hlate =>
    refine .ready hs hs' hcount hflag ?_
    show cfg.recoveryTimeout ≤ monotonic' + d - cb'.openedAtMonotonic
    linarith

/-- The two breakers have been OPEN for the same time. -/
theorem elapsed_eq (h : Alike cfg monotonic' cb cb') (hstamp : Stamped cb monotonic wallclock)
    (hstamp' : Stamped cb' monotonic' wallclock) (hs : cb.state = .opened) :
    monotonic - cb.openedAtMonotonic = monotonic' - cb'.openedAtMonotonic := by
  cases h with
  | same hsame _ _ heq =>
    obtain ⟨at_, hat, hback⟩ := hstamp.opened hs
    obtain ⟨at', hat', hback'⟩ := hstamp'.opened (hsame ▸ hs)
    have hats : some at_ = some at' := by
      rw [← hat, ← hat']
      exact heq (by rw [hs]; decide)
    rw [← hback, ← hback', Option.some.inj hats]
  | ready hhalf _ _ _ _ =>
    rw [hs] at hhalf
    cases hhalf

/-- The next caller gets the same answer from both: it enters as an ordinary call, it enters
as a trial, or it is rejected. -/
theorem verdict (h : Alike cfg monotonic' cb cb') (hstamp : Stamped cb monotonic wallclock)
    (hstamp' : Stamped cb' monotonic' wallclock) :
    (cb.state = .closed ∧ cb'.state = .closed ∧
      cb.beforeCall cfg monotonic = .ok cb ∧ cb'.beforeCall cfg monotonic' = .ok cb') ∨
    (cb.state ≠ .closed ∧ cb'.state ≠ .closed ∧
      cb.beforeCall cfg monotonic
        = .ok { cb with state := .halfOpen, halfOpenInFlight := true } ∧
      cb'.beforeCall cfg monotonic'
        = .ok { cb' with state := .halfOpen, halfOpenInFlight := true }) ∨
    (cb.beforeCall cfg monotonic = .error ⟨cfg.name⟩ ∧
      cb'.beforeCall cfg monotonic' = .error ⟨cfg.name⟩) := by
  have helapsed := h.elapsed_eq hstamp hstamp'
  cases h with
  | same hs _ hflag _ =>
    cases hstate : cb.state with
    | closed =>
      rw [hstate] at hs
      exact Or.inl ⟨rfl, hs.symm, by simp [beforeCall, hstate], by simp [beforeCall, ← hs]⟩
    | opened =>
      rw [hstate] at hs
      have heq := helapsed hstate
      by_cases hearly : monotonic - cb.openedAtMonotonic < cfg.recoveryTimeout
      · have hearly' := heq ▸ hearly
        exact Or.inr (Or.inr ⟨by simp [beforeCall, hstate, hearly],
          by simp [beforeCall, ← hs, hearly']⟩)
      · have hlate' := heq ▸ hearly
        exact Or.inr (Or.inl ⟨by decide, by rw [← hs]; decide,
          by simp [beforeCall, hstate, hearly], by simp [beforeCall, ← hs, hlate']⟩)
    | halfOpen =>
      rw [hstate] at hs
      cases hf : cb.halfOpenInFlight with
      | true =>
        exact Or.inr (Or.inr ⟨by simp [beforeCall, hstate, hf],
          by simp [beforeCall, ← hs, ← hflag, hf]⟩)
      | false =>
        exact Or.inr (Or.inl ⟨by decide, by rw [← hs]; decide,
          by simp [beforeCall, hstate, hf], by simp [beforeCall, ← hs, ← hflag, hf]⟩)
  | ready hs hs' _ hflag hlate =>
    -- Both admit a trial: the one has none in flight, and for the other one the timeout is over.
    exact Or.inr (Or.inl ⟨by rw [hs]; decide, by rw [hs']; decide,
      by simp [beforeCall, hs, hflag], by simp [beforeCall, hs', not_lt.mpr hlate]⟩)

/-- The outcome of a call is the same for both breakers, when it falls into CLOSED or
HALF_OPEN. -/
theorem onFailure (h : Alike cfg monotonic' cb cb') (hs' : cb'.state ≠ .opened) :
    Alike cfg monotonic' (cb.onFailure cfg monotonic wallclock)
      (cb'.onFailure cfg monotonic' wallclock) := by
  cases h with
  | same hsame hcount _ hstamp =>
    by_cases htrip : cb.state = .halfOpen ∨ cfg.failureThreshold ≤ cb.failureCount + 1
    · have htrip' := htrip
      rw [hsame, hcount] at htrip'
      rw [CircuitBreaker.onFailure_of_trip htrip, CircuitBreaker.onFailure_of_trip htrip']
      exact .same rfl (by rw [hcount]) rfl fun _ => rfl
    · have htrip' := htrip
      rw [hsame, hcount] at htrip'
      rw [CircuitBreaker.onFailure_of_count htrip, CircuitBreaker.onFailure_of_count htrip']
      exact .same hsame (by rw [hcount]) rfl hstamp
  | ready _ hopened _ _ _ => exact absurd hopened hs'

/-- A restored breaker is like the breaker whose record it was restored from. The original
has kept its own clock, which now stands at `monotonic'`. -/
theorem ofRestored (hstore : cfg.hasStore = true) (monotonic : ℚ)
    {stored : Option BreakerRecord}
    (hrec : Recorded stored cb') (hrest : cb'.state ≠ .halfOpen)
    (hflag : cb'.halfOpenInFlight = false) (hstamp' : Stamped cb' monotonic' wallclock) :
    Alike cfg monotonic' (fresh.restore cfg monotonic wallclock stored) cb' ∧
      Stamped (fresh.restore cfg monotonic wallclock stored) monotonic wallclock := by
  rcases hrec with rfl | ⟨rfl, rfl⟩
  · cases hs : cb'.state with
    | closed =>
      -- A CLOSED breaker has no stamp, and its count is all that the record restores.
      have hnone := hstamp'.closed hs
      have hrestored : fresh.restore cfg monotonic wallclock (some cb'.record)
          = { fresh with failureCount := cb'.failureCount } := by
        simp [restore, CircuitBreaker.record, hstore, hs, hnone]
      rw [hrestored]
      exact ⟨.same hs.symm rfl hflag.symm fun _ => hnone.symm,
        ⟨nofun, fun _ => rfl⟩⟩
    | opened =>
      obtain ⟨at_, hat, hback⟩ := hstamp'.opened hs
      by_cases hlate : cfg.recoveryTimeout ≤ wallclock - at_
      · -- The window has passed: HALF_OPEN, and the original admits the next caller.
        have hrestored : fresh.restore cfg monotonic wallclock (some cb'.record)
            = { fresh with failureCount := cb'.failureCount, state := .halfOpen } := by
          simp [restore, CircuitBreaker.record, hstore, hs, hat, hlate]
        rw [hrestored]
        exact ⟨.ready rfl hs rfl rfl (hback ▸ hlate), Stamped.ofHalfOpen rfl⟩
      -- Within the window the stamp is moved to the new monotonic clock.
      · have hrestored : fresh.restore cfg monotonic wallclock (some cb'.record)
            = ⟨.opened, cb'.failureCount, monotonic - (wallclock - at_), some at_, false⟩ := by
          simp [restore, CircuitBreaker.record, hstore, hs, hat, hlate, fresh]
        rw [hrestored]
        refine ⟨.same hs.symm rfl hflag.symm fun _ => hat.symm,
          ⟨fun _ => ⟨at_, rfl, ?_⟩, nofun⟩⟩
        show wallclock - at_ = monotonic - (monotonic - (wallclock - at_))
        rw [sub_sub_cancel]
    | halfOpen => exact absurd hs hrest
  · have hrestored : fresh.restore cfg monotonic wallclock none = fresh := by
      simp [restore]
    rw [hrestored]
    exact ⟨Alike.refl fresh, Stamped.ofFresh monotonic wallclock⟩

end Alike

/-! ### Steps -/

namespace Agree

variable {s : System} {o : Original}

theorem start (cfg : Settings) (monotonic monotonic' wallclock : ℚ) :
    Agree cfg (System.start monotonic wallclock) (Original.start monotonic' wallclock) where
  calls := rfl
  saving := rfl
  wallclock := rfl
  alike := Alike.refl fresh
  stamped := Stamped.ofFresh _ _
  stamped' := Stamped.ofFresh _ _
  settled := Stamped.ofFresh _ _
  recorded := Or.inr ⟨rfl, rfl⟩
  rests := ⟨nofun, rfl⟩
  alone := by simp [System.start]
  running h := absurd rfl h
  ended h := absurd rfl h

/-- The same events can happen to both. -/
theorem enabled_iff (h : Agree cfg s o) (e : LifeEvent) :
    Life.Enabled s e ↔ Life.Enabled o.system e := by
  cases e <;> simp only [Life.Enabled, h.calls, h.saving]

theorem elapse (h : Agree cfg s o) {d : ℚ} (hd : 0 ≤ d) :
    Agree cfg (Life.next cfg s (.elapse d)) (o.next cfg (.elapse d)) where
  calls := h.calls
  saving := h.saving
  wallclock := by
    show s.wallclock + d = o.system.wallclock + d
    rw [h.wallclock]
  alike := h.alike.elapse hd
  stamped := h.stamped.elapse d
  stamped' := h.stamped'.elapse d
  settled := h.settled.elapse d
  recorded := h.recorded
  rests := h.rests
  alone := h.alone
  running := h.running
  ended := h.ended

/-- The next caller enters both, with the breakers left as `cb` and `cb'`. -/
theorem admitted (h : Agree cfg s o) (id : Nat) (hidle : s.calls = [] ∧ s.saving = none)
    {cb cb' : CircuitBreaker} (hok : s.breaker.beforeCall cfg s.monotonic = .ok cb)
    (hok' : o.system.breaker.beforeCall cfg o.system.monotonic = .ok cb')
    (htrial : s.breaker.state ≠ .closed ↔ o.system.breaker.state ≠ .closed)
    (halike : Alike cfg o.system.monotonic cb cb')
    (hstamp : Stamped cb s.monotonic s.wallclock)
    (hstamp' : Stamped cb' o.system.monotonic s.wallclock)
    (hne : cb.state ≠ .opened ∧ cb'.state ≠ .opened) :
    Agree cfg (Life.next cfg s (.arrive id)) (o.next cfg (.arrive id)) := by
  have hnext : Life.next cfg s (.arrive id) = _ := System.next_arrive_of_ok hok id
  have hnext' : o.next cfg (.arrive id) = ⟨_, o.settled⟩ :=
    congrArg (Original.mk · o.settled) (System.next_arrive_of_ok hok' id)
  rw [hnext, hnext']
  exact {
    calls := by rw [h.calls, decide_eq_decide.mpr htrial]
    saving := h.saving
    wallclock := h.wallclock
    alike := halike
    stamped := hstamp
    stamped' := hstamp'
    settled := h.settled
    recorded := h.recorded
    rests := h.rests
    alone := by simp [hidle.1]
    running := fun _ => hne
    ended := fun hsaving => absurd hidle.2 hsaving }

/-- The next caller enters both, or neither. -/
theorem arrive (h : Agree cfg s o) (id : Nat) (hidle : s.calls = [] ∧ s.saving = none) :
    Agree cfg (Life.next cfg s (.arrive id)) (o.next cfg (.arrive id)) := by
  rcases h.alike.verdict h.stamped h.stamped' with
    ⟨hs, hs', hok, hok'⟩ | ⟨hs, hs', hok, hok'⟩ | ⟨hno, hno'⟩
  · refine h.admitted id hidle hok hok' (by rw [hs, hs']) h.alike h.stamped h.stamped' ?_
    rw [hs, hs']
    decide
  · exact h.admitted id hidle hok hok' (iff_of_true hs hs')
      (.same rfl h.alike.count_eq rfl fun hne => absurd rfl hne) (Stamped.ofHalfOpen rfl)
      (Stamped.ofHalfOpen rfl) ⟨nofun, nofun⟩
  · have hnext : Life.next cfg s (.arrive id) = s := System.next_arrive_of_error hno id
    have hnext' : o.next cfg (.arrive id) = ⟨o.system, o.settled⟩ :=
      congrArg (Original.mk · o.settled) (System.next_arrive_of_error hno' id)
    rw [hnext, hnext']
    exact h

/-- The function of a call ends, in both. -/
theorem finish (h : Agree cfg s o) {c : Call} (hc : c ∈ s.calls) (r : CallResult) :
    Agree cfg (Life.next cfg s (.finish c r)) (o.next cfg (.finish c r)) := by
  obtain ⟨hs, hs'⟩ := h.running (List.ne_nil_of_mem hc)
  -- Calls do not overlap, so this one was the only one.
  have hcalls : (Life.next cfg s (.finish c r)).calls = [] := by
    show s.calls.filter (· ≠ c) = []
    rw [List.filter_eq_nil_iff]
    intro t ht
    simp [h.alone c hc t ht]
  have hcalls' : (o.next cfg (.finish c r)).system.calls = [] := by
    rw [← hcalls]
    show o.system.calls.filter (· ≠ c) = s.calls.filter (· ≠ c)
    rw [h.calls]
  have hnone : ∀ {P : Prop}, (Life.next cfg s (.finish c r)).calls ≠ [] → P :=
    fun hne => absurd hcalls hne
  cases r with
  | success =>
    have hended : ∀ {P : Prop}, CircuitState.closed = CircuitState.opened → P := nofun
    exact ⟨by rw [hcalls, hcalls'], rfl, h.wallclock, .same rfl rfl rfl fun _ => rfl,
      ⟨hended, fun _ => rfl⟩, ⟨hended, fun _ => rfl⟩, h.settled, h.recorded, h.rests,
      by simp [hcalls], hnone, fun _ => ⟨nofun, rfl⟩⟩
  | failure =>
    -- The original counts the failure at the end of the function, as the restored breaker does.
    have hwall : o.system.settle cfg .failure
        = o.system.breaker.onFailure cfg o.system.monotonic s.wallclock := by
      rw [h.wallclock]
      rfl
    refine ⟨by rw [hcalls, hcalls'], rfl, h.wallclock, ?_, h.stamped.onFailure hs, ?_, h.settled,
      h.recorded, h.rests, by simp [hcalls], hnone, fun _ => ⟨?_, ?_⟩⟩
    · show Alike cfg _ (s.breaker.onFailure cfg _ _) (o.system.settle cfg .failure)
      rw [hwall]
      exact h.alike.onFailure hs'
    · show Stamped (o.system.settle cfg .failure) _ _
      rw [hwall]
      exact h.stamped'.onFailure hs'
    · exact onFailure_ne_halfOpen s.breaker s.monotonic s.wallclock
    · exact System.settle_halfOpenInFlight o.system .failure

/-- The outcome of a call is saved. The original takes it as settled. -/
theorem saved (h : Agree cfg s o) (hsaving : s.saving ≠ none) :
    Agree cfg (Life.next cfg s .saved) (o.next cfg .saved) := by
  obtain ⟨hs, hflag⟩ := h.ended hsaving
  -- Only an idle breaker in HALF_OPEN may stand for an OPEN one, and a call has just ended here.
  have hrec : s.breaker.record = o.system.breaker.record ∧
      s.breaker.state = o.system.breaker.state := by
    cases h.alike with
    | same hsame hcount _ hstamp =>
      simp [CircuitBreaker.record, hsame, hcount, hstamp hs]
    | ready hhalf _ _ _ _ => exact absurd hhalf hs
  exact {
    calls := h.calls
    saving := rfl
    wallclock := h.wallclock
    alike := h.alike
    stamped := h.stamped
    stamped' := h.stamped'
    settled := h.stamped'
    recorded := Or.inl (congrArg some hrec.1)
    rests := ⟨hrec.2 ▸ hs, hflag⟩
    alone := h.alone
    running := h.running
    ended := fun hne => absurd rfl hne }

/-- A cancelled call leaves both breakers as they are. -/
theorem cancel (h : Agree cfg s o) (c : Call) :
    Agree cfg (Life.next cfg s (.cancel c)) (o.next cfg (.cancel c)) := by
  have hsub : ∀ t ∈ s.calls.filter (· ≠ c), t ∈ s.calls :=
    fun t ht => (List.mem_filter.mp ht).1
  refine ⟨?_, ?_, h.wallclock, h.alike, h.stamped, h.stamped', h.settled, h.recorded, h.rests,
    fun t ht t' ht' => h.alone t (hsub t ht) t' (hsub t' ht'), fun hne => ?_, fun hne => ?_⟩
  · show s.calls.filter (· ≠ c) = o.system.calls.filter (· ≠ c)
    rw [h.calls]
  · show (if s.saving = some c then none else s.saving)
      = if o.system.saving = some c then none else o.system.saving
    rw [h.saving]
  · apply h.running
    intro hnil
    apply hne
    show s.calls.filter (· ≠ c) = []
    rw [hnil]
    rfl
  · apply h.ended
    intro hnone
    apply hne
    show (if s.saving = some c then none else s.saving) = none
    rw [hnone]
    rfl

/-- A restored breaker is like the original without the interrupted call. -/
theorem restart (h : Agree cfg s o) (hstore : cfg.hasStore = true) {downtime : ℚ}
    (monotonic : ℚ) :
    Agree cfg (Life.next cfg s (.restart downtime monotonic))
      (o.next cfg (.restart downtime monotonic)) := by
  have hstamp' := h.settled.elapse downtime
  obtain ⟨halike, hstamp⟩ := Alike.ofRestored hstore monotonic h.recorded h.rests.1
    h.rests.2 hstamp'
  exact {
    calls := rfl
    saving := rfl
    wallclock := by
      show s.wallclock + downtime = o.system.wallclock + downtime
      rw [h.wallclock]
    alike := halike
    stamped := hstamp
    stamped' := hstamp'
    settled := hstamp'
    recorded := h.recorded
    rests := h.rests
    alone := by simp [Life.next, Life.restarted, System.start]
    running := fun hne => absurd rfl hne
    ended := fun hne => absurd rfl hne }

/-- Each step of the one is matched by a step of the other. -/
theorem step (hstore : cfg.hasStore = true) (s : System) (o : Original) (e : LifeEvent)
    (s' : System) (h : Agree cfg s o) (hstep : Life.step cfg s e = some s') :
    ∃ o', Original.step cfg o e = some o' ∧ Agree cfg s' o' := by
  obtain ⟨hen, rfl⟩ := Run.guarded_eq_some.mp hstep
  refine ⟨o.next cfg e, Run.guarded_eq_some.mpr ⟨(h.enabled_iff e).mp hen, rfl⟩, ?_⟩
  cases e with
  | elapse d => exact h.elapse hen
  | arrive id => exact h.arrive id hen
  | finish c r => exact h.finish hen.2 r
  | saved => exact h.saved hen
  | cancel c => exact h.cancel c
  | restart downtime monotonic => exact h.restart hstore monotonic

/-- Both breakers answer the next caller alike. -/
theorem admits_eq (h : Agree cfg s o) :
    s.breaker.admits cfg s.monotonic = o.system.breaker.admits cfg o.system.monotonic := by
  rcases h.alike.verdict h.stamped h.stamped' with
    ⟨-, -, hok, hok'⟩ | ⟨-, -, hok, hok'⟩ | ⟨hno, hno'⟩
  · simp [admits, hok, hok', Except.isOk, Except.toBool]
  · simp [admits, hok, hok', Except.isOk, Except.toBool]
  · simp [admits, hno, hno', Except.isOk, Except.toBool]

end Agree

/-- After any run of calls and restarts, the original has followed the same run, it admits
or rejects the next call as the restored breaker does, and it reports the same count. -/
theorem restored_agrees (cfg : Settings) (hstore : cfg.hasStore = true)
    (monotonic monotonic' wallclock : ℚ) (es : List LifeEvent) (s : System)
    (h : Run.exec (Life.step cfg) (System.start monotonic wallclock) es = some s) :
    ∃ o, Run.exec (Original.step cfg) (Original.start monotonic' wallclock) es = some o ∧
      s.breaker.admits cfg s.monotonic = o.system.breaker.admits cfg o.system.monotonic ∧
      s.breaker.failureCount = o.system.breaker.failureCount := by
  obtain ⟨o, ho, hagree⟩ := Run.exec_simulation (Agree cfg) (Agree.step hstore) es _ _ s
    (Agree.start cfg monotonic monotonic' wallclock) h
  exact ⟨o, ho, hagree.admits_eq, hagree.alike.count_eq⟩

/-- One failure trips this breaker for five seconds, and it has a store. -/
def oneStrike : Settings where
  failureThreshold := 1
  recoveryTimeout := 5
  name := "default"
  hasStore := true
  threshold_pos := by decide
  timeout_nonneg := by decide

/-- The process dies after the trip, and once more in the middle of the trial. The breaker
comes back HALF_OPEN, and the original without the trial is OPEN. -/
def tripThenCrashTwice : List LifeEvent :=
  [.arrive 0, .finish ⟨0, false⟩ .failure, .saved, .elapse 2, .restart 1 100, .elapse 3,
    .arrive 1, .restart 0 7]

theorem restored_agrees_tripThenCrashTwice : ∃ s o,
    Run.exec (Life.step oneStrike) (System.start 0 50) tripThenCrashTwice = some s ∧
    Run.exec (Original.step oneStrike) (Original.start 0 50) tripThenCrashTwice = some o ∧
    s.breaker.state = .halfOpen ∧ o.system.breaker.state = .opened ∧
    s.breaker.admits oneStrike s.monotonic
      = o.system.breaker.admits oneStrike o.system.monotonic ∧
    s.breaker.failureCount = o.system.breaker.failureCount := by
  have hrun : (Run.exec (Life.step oneStrike) (System.start 0 50) tripThenCrashTwice).map
      (fun s => s.breaker.state) = some .halfOpen := by decide +kernel
  obtain ⟨s, hs, hstate⟩ := Option.map_eq_some_iff.mp hrun
  obtain ⟨o, ho, hadmits, hcount⟩ := restored_agrees oneStrike rfl 0 0 50 _ s hs
  have hrun' : (Run.exec (Original.step oneStrike) (Original.start 0 50)
      tripThenCrashTwice).map (fun o => o.system.breaker.state) = some .opened := by
    decide +kernel
  obtain ⟨o', ho', hstate'⟩ := Option.map_eq_some_iff.mp hrun'
  obtain rfl : o = o' := Option.some.inj (ho.symm.trans ho')
  exact ⟨s, o, hs, ho, hstate, hstate', hadmits, hcount⟩

end EdgeSentinel.Proofs.Resilience
