import EdgeSentinel.Library.Unwinding
import EdgeSentinel.Proofs.Resilience.EndToEnd
import EdgeSentinel.Resilience.Decorators

/-!
# `EdgeSentinel.Proofs.Resilience.Isolation`: whose calls trip a private breaker

With `circuit_breaker=True` the breaker is constructed when the decorator value is built, not
when it is applied. The calls of a function do not show in the calls of another one exactly when
the two are decorated by different decorator values (`isolated_iff`).

`Apart f` is what a process has besides the breaker of `f` and the functions that share it. The
calls of `f` are silent in it, and every other call is consistent with it. In the other direction
five failed calls of `f` reject a call of a function that shares its breaker.
-/

set_option autoImplicit false

namespace EdgeSentinel.Proofs.Resilience

open Async
open Unwinding
open EdgeSentinel.Resilience

variable {F ε α : Type} {p : Program F ε} {s t : Process F} {f g h : F} {cb : CircuitBreaker}

/-! ### The breaker of a function -/

theorem breaker_of_none (hnone : p.breakerOf f = none) : p.breaker s f = .fresh := by
  rw [Program.breaker, hnone]
  rfl

theorem breaker_of_some {id : BreakerId} (hid : p.breakerOf f = some id) :
    p.breaker s f = s.breakers id := by
  rw [Program.breaker, hid]
  rfl

/-- A call leaves the breaker as it is seen by the next one. -/
theorem breaker_keep {id : BreakerId} (hid : p.breakerOf f = some id) :
    p.breaker (p.keep s f cb) f = cb := by
  rw [breaker_of_some hid, Program.keep, hid]
  exact Function.update_self _ _ _

theorem keep_breakers_self {id : BreakerId} (hid : p.breakerOf f = some id) :
    (p.keep s f cb).breakers id = cb := by
  rw [← breaker_of_some hid]
  exact breaker_keep hid

/-- A call that leaves the breaker as it is leaves everything. -/
theorem keep_breaker (f : F) : p.keep s f (p.breaker s f) = s := by
  cases hid : p.breakerOf f with
  | none =>
    unfold Program.keep
    rw [hid]
  | some id =>
    rw [breaker_of_some hid, Program.keep, hid]
    dsimp only
    rw [Function.update_eq_self]

theorem keep_keep {cb' : CircuitBreaker} :
    p.keep (p.keep s f cb) f cb' = p.keep s f cb' := by
  unfold Program.keep
  split
  · rfl
  · dsimp only
    rw [Function.update_idem]

/-- The breakers of the other functions stay. -/
theorem keep_breakers_of_ne {id : BreakerId} (hid : p.breakerOf f ≠ some id) :
    (p.keep s f cb).breakers id = s.breakers id := by
  unfold Program.keep
  split
  · rfl
  · rename_i id' hid'
    have hne : id ≠ id' := by
      rintro rfl
      exact hid hid'
    exact Function.update_of_ne hne _ _

/-- A function whose decorator has `circuit_breaker=True` holds the breaker of that decorator. -/
theorem breakerOf_of_on (hon : (p.argumentsOf f).circuitBreaker = .on) :
    p.breakerOf f = some (.made (p.decoratedBy f)) := by
  unfold Program.breakerOf Program.decorator buildReliableDecorator
  rw [hon]
  rfl

theorem wrapperOf_breaker_of_on (hon : (p.argumentsOf f).circuitBreaker = .on) :
    (p.wrapperOf f).breaker
      = some (defaultSettings (nameOr (p.argumentsOf f).name "reliable")).1 := by
  unfold Program.wrapperOf Program.decorator buildReliableDecorator Decorator.decorate
  dsimp only
  rw [hon]
  rfl

theorem wrapperOf_breaker_of_none (hnone : p.breakerOf f = none) :
    (p.wrapperOf f).breaker = none :=
  Option.map_eq_none_iff.mpr (Option.map_eq_none_iff.mp hnone)

/-- An admitted call leaves the breaker as it was admitted. -/
theorem breaker_keep_of_admitted {monotonic : ℚ}
    (hadmitted : (p.wrapperOf f).admission monotonic (p.breaker s f) = .ok cb) :
    p.breaker (p.keep s f cb) f = cb := by
  cases hid : p.breakerOf f with
  | none =>
    rw [ReliableSettings.admission, wrapperOf_breaker_of_none hid, breaker_of_none hid] at hadmitted
    rw [breaker_of_none hid]
    exact Except.ok.inj hadmitted
  | some id => exact breaker_keep hid

/-- An ended call leaves the breaker with its outcome recorded. -/
theorem breaker_keep_recorded (monotonic wallclock : ℚ) (o : Outcome (ResilienceError ε) α) :
    p.breaker (p.keep s f
        ((p.wrapperOf f).recorded monotonic wallclock (p.breaker s f) o)) f
      = (p.wrapperOf f).recorded monotonic wallclock (p.breaker s f) o := by
  cases hid : p.breakerOf f with
  | none =>
    rw [breaker_of_none hid, breaker_of_none hid, ReliableSettings.recorded.eq_def,
      wrapperOf_breaker_of_none hid]
    cases o <;> rfl
  | some id => exact breaker_keep hid

/-- A process without the breaker of `f`, and without the calls of the functions that share it. -/
def Apart (p : Program F ε) (f : F) (s : Process F) :
    (BreakerId → Option CircuitBreaker) × (F → Option (List Nat)) :=
  (fun id => if p.breakerOf f = some id then none else some (s.breakers id),
    fun h => if p.breakerOf h = p.breakerOf f then none else some (s.inFlight h))

theorem apart_eq_iff :
    Apart p f s = Apart p f t ↔
      (∀ id, p.breakerOf f ≠ some id → s.breakers id = t.breakers id) ∧
        ∀ h, p.breakerOf h ≠ p.breakerOf f → s.inFlight h = t.inFlight h := by
  simp only [Apart, Prod.mk.injEq, funext_iff]
  refine and_congr (forall_congr' fun id => ?_) (forall_congr' fun h => ?_)
  · by_cases hid : p.breakerOf f = some id <;> simp [hid]
  · by_cases hh : p.breakerOf h = p.breakerOf f <;> simp [hh]

/-! ### The steps of `wrapper` -/

section
variable [DecidableEq F]

/-- A decorated call is its arrival, and its end when it is admitted. In between the process may
do anything that leaves the call in flight and the breaker as `w` says. -/
theorem wrapper_steps {κ τ : Type} (p : Program F ε) (s : Process F) (f : F) (call : Nat)
    (w : Surroundings ε τ α) (arguments : κ) :
    let ended := ((p.wrapperOf f).wrapper w arguments).run (w.bench (p.breaker s f) 0 [])
    let arrive : CallStep F ε α := .arrive f call (w.monotonic 0)
    let finish : CallStep F ε α := .finish f call ended.1
      (w.monotonic ended.2.host.invocations) (w.wallclock ended.2.host.invocations)
    (∃ e, p.seen s arrive = [.rejected call e] ∧ ended.1 = .raised (.circuitOpen e) ∧
      p.next s arrive = s ∧ ended.2.breaker = p.breaker s f) ∨
    (p.seen s arrive = [.admitted call] ∧ call ∈ (p.next s arrive).inFlight f ∧
      ∀ s', call ∈ s'.inFlight f →
        p.breaker s' f
          = w.breakerAfter (p.breaker (p.next s arrive) f) ended.2.host.invocations →
        p.seen s' finish = [.ended call ended.1] ∧
          p.breaker (p.next s' finish) f = ended.2.breaker) := by
  dsimp only
  cases hadmission : (p.wrapperOf f).admission (w.monotonic 0) (p.breaker s f) with
  | error e =>
    rw [run_wrapper_of_rejected hadmission (answers_default _ _)]
    exact Or.inl ⟨e, by simp only [Program.seen, hadmission], rfl,
      by simp only [Program.next, hadmission], rfl⟩
  | ok cb =>
    obtain ⟨b', hrun, -, hrecorded⟩ := wrapper_of_admitted arguments hadmission
    rw [hrun]
    dsimp only
    have hnext : p.next s (.arrive f call (w.monotonic 0) : CallStep F ε α)
        = { p.keep s f cb with
            inFlight := Function.update s.inFlight f (call :: s.inFlight f) } := by
      simp only [Program.next, hadmission]
    have hbreaker : p.breaker (p.next s (.arrive f call (w.monotonic 0) : CallStep F ε α)) f
        = cb := by
      rw [hnext]
      exact breaker_keep_of_admitted hadmission
    -- The two steps are the two accesses of the call to the breaker.
    refine Or.inr ⟨by simp only [Program.seen, hadmission], ?_, fun s' hmem hs' => ⟨?_, ?_⟩⟩
    · rw [hnext]
      simp
    · simp only [Program.seen, hmem, if_true]
    · rw [hbreaker] at hs'
      rw [hrecorded, ← hs', Program.next, if_pos hmem]
      exact breaker_keep_recorded _ _ _

/-! ### What a step reads and writes -/

/-- A step leaves the process, or it writes the breaker and the calls of its function. -/
theorem next_cases (p : Program F ε) (s : Process F) (step : CallStep F ε α) :
    p.next s step = s ∨ ∃ cb calls, p.next s step
      = { p.keep s step.func cb with inFlight := Function.update s.inFlight step.func calls } := by
  cases step with
  | arrive func call monotonic =>
    unfold Program.next
    dsimp only
    split
    · exact Or.inr ⟨_, _, rfl⟩
    · exact Or.inl rfl
  | finish func call outcome monotonic wallclock =>
    unfold Program.next
    dsimp only
    split
    · exact Or.inr ⟨_, _, rfl⟩
    · exact Or.inl rfl

/-- Other breakers and the calls of other functions stay. -/
theorem next_frame (p : Program F ε) (s : Process F) (step : CallStep F ε α) :
    (∀ id, p.breakerOf step.func ≠ some id → (p.next s step).breakers id = s.breakers id) ∧
      ∀ h, h ≠ step.func → (p.next s step).inFlight h = s.inFlight h := by
  rcases next_cases p s step with heq | ⟨cb, calls, heq⟩ <;> rw [heq]
  · exact ⟨fun _ _ => rfl, fun _ _ => rfl⟩
  · exact ⟨fun id hid => keep_breakers_of_ne hid, fun h hne => Function.update_of_ne hne _ _⟩

/-- A step reads the breaker and the calls of its function only. -/
theorem next_own (step : CallStep F ε α) (hbreaker : p.breaker s step.func = p.breaker t step.func)
    (hcalls : s.inFlight step.func = t.inFlight step.func) :
    (∀ id, p.breakerOf step.func = some id →
        (p.next s step).breakers id = (p.next t step).breakers id) ∧
      (p.next s step).inFlight step.func = (p.next t step).inFlight step.func ∧
      p.seen s step = p.seen t step := by
  have hsame : ∀ id, p.breakerOf step.func = some id → s.breakers id = t.breakers id := by
    intro id hid
    rw [← breaker_of_some hid, hbreaker, breaker_of_some hid]
  cases step with
  | arrive func call monotonic =>
    dsimp only [CallStep.func] at hbreaker hcalls hsame ⊢
    simp only [Program.next, Program.seen, hbreaker]
    cases (p.wrapperOf func).admission monotonic (p.breaker t func) with
    | error e => exact ⟨hsame, hcalls, trivial⟩
    | ok cb =>
      refine ⟨fun id hid => ?_, ?_, trivial⟩
      · dsimp only
        rw [keep_breakers_self hid, keep_breakers_self hid]
      · dsimp only
        rw [hcalls, Function.update_self, Function.update_self]
  | finish func call outcome monotonic wallclock =>
    dsimp only [CallStep.func] at hbreaker hcalls hsame ⊢
    simp only [Program.next, Program.seen, hbreaker, hcalls]
    split
    · refine ⟨fun id hid => ?_, ?_, trivial⟩
      · dsimp only
        rw [keep_breakers_self hid, keep_breakers_self hid]
      · dsimp only
        rw [Function.update_self, Function.update_self]
    · exact ⟨hsame, hcalls, trivial⟩

/-! ### Different decorator values -/

/-- The calls of the functions that share the breaker of `f` are silent. -/
theorem silent_of_shared {step : CallStep F ε α} (hshared : p.breakerOf step.func = p.breakerOf f)
    (hg : p.breakerOf g ≠ p.breakerOf f) :
    Silent p.next (fun s step => p.seenBy s g step) (Apart p f) step := by
  intro s
  obtain ⟨hbreakers, hcalls⟩ := next_frame p s step
  refine ⟨apart_eq_iff.mpr ⟨fun id hid => hbreakers id (hshared ▸ hid), fun h hh => ?_⟩, ?_⟩
  · refine hcalls h ?_
    rintro rfl
    exact hh hshared
  · refine if_neg ?_
    rintro rfl
    exact hg hshared

/-- All other calls are consistent. -/
theorem consistent_of_apart {step : CallStep F ε α}
    (hapart : p.breakerOf step.func ≠ p.breakerOf f) :
    Consistent p.next (fun s step => p.seenBy s g step) (Apart p f) step := by
  intro s t hview
  obtain ⟨hbreakers, hcalls⟩ := apart_eq_iff.mp hview
  -- The view has every breaker but the one of `f`.
  have hbreaker : p.breaker s step.func = p.breaker t step.func := by
    cases hid : p.breakerOf step.func with
    | none => rw [breaker_of_none hid, breaker_of_none hid]
    | some id =>
      rw [breaker_of_some hid, breaker_of_some hid]
      exact hbreakers id fun heq => hapart (hid.trans heq.symm)
  obtain ⟨hown, hownCalls, hseen⟩ := next_own step hbreaker (hcalls step.func hapart)
  obtain ⟨hframe, hframeCalls⟩ := next_frame p s step
  obtain ⟨hframe', hframeCalls'⟩ := next_frame p t step
  refine ⟨apart_eq_iff.mpr ⟨fun id hid => ?_, fun h hh => ?_⟩, ?_⟩
  · by_cases hstep : p.breakerOf step.func = some id
    · exact hown id hstep
    · rw [hframe id hstep, hframe' id hstep]
      exact hbreakers id hid
  · by_cases hstep : h = step.func
    · rw [hstep]
      exact hownCalls
    · rw [hframeCalls h hstep, hframeCalls' h hstep]
      exact hcalls h hh
  · simp only [Program.seenBy, hseen]

/-- The calls of `f` do not show in the calls of `g`: whatever is called, the callers of `g` see
the same when all calls of `f` are left out. -/
def Isolated (α : Type) (p : Program F ε) (used : Nat → CircuitBreaker) (f g : F) : Prop :=
  ∀ steps : List (CallStep F ε α),
    outputs p.next (fun s step => p.seenBy s g step) (.start used) steps
      = outputs p.next (fun s step => p.seenBy s g step) (.start used)
          (steps.filter fun step => step.func ≠ f)

/-- A function that does not share the breaker of `f` is isolated from it. -/
theorem isolated_of_apart (used : Nat → CircuitBreaker) (hg : p.breakerOf g ≠ p.breakerOf f) :
    Isolated α p used f g := by
  intro steps
  -- The calls of `f` are left out. Those of a function that shares its breaker are silent, too, and
  -- all others are consistent.
  refine outputs_filter (Apart p f) (fun step hstep => ?_) (fun step _ => ?_) steps _ _ rfl
  · have hf : step.func = f := by simpa using hstep
    exact silent_of_shared (by rw [hf]) hg
  · by_cases hshared : p.breakerOf step.func = p.breakerOf f
    · exact (silent_of_shared hshared hg).consistent
    · exact consistent_of_apart hshared

/-! ### One decorator value -/

/-- Calls of `f` that fail, one after the other, at the reading 0. -/
def failures (f : F) (e : ε) : Nat → List (CallStep F ε α)
  | 0 => []
  | k + 1 =>
    .arrive f k 0 :: .finish f k (.raised (.function e)) 0 0 :: failures f e k

/-- The breaker after so many failures in a row. -/
def failed (cfg : Settings) (k : Nat) (cb : CircuitBreaker) : CircuitBreaker :=
  (fun cb => cb.onFailure cfg 0 0)^[k] cb

/-- A failed call through a closed breaker leaves its failure there, and nothing else. -/
theorem next_failure (e : ε) (k : Nat) {cfg : Settings}
    (hcfg : (p.wrapperOf f).breaker = some cfg) (hclosed : (p.breaker s f).state = .closed) :
    p.next (p.next s (.arrive f k 0 : CallStep F ε α))
        (.finish f k (.raised (.function e)) 0 0 : CallStep F ε α)
      = p.keep s f ((p.breaker s f).onFailure cfg 0 0) := by
  have hadmitted : (p.wrapperOf f).admission 0 (p.breaker s f) = .ok (p.breaker s f) := by
    rw [ReliableSettings.admission, hcfg]
    simp only [CircuitBreaker.beforeCall, hclosed]
  have harrive : p.next s (.arrive f k 0 : CallStep F ε α)
      = { s with inFlight := Function.update s.inFlight f (k :: s.inFlight f) } := by
    simp only [Program.next, hadmitted, keep_breaker]
  rw [harrive, Program.next, if_pos (by simp)]
  simp only [Function.update_self, List.erase_cons_head, Function.update_idem,
    Function.update_eq_self]
  have hrecorded : (p.wrapperOf f).recorded 0 0 (p.breaker s f)
      (.raised (.function e) : Outcome (ResilienceError ε) α)
        = (p.breaker s f).onFailure cfg 0 0 := by
    rw [ReliableSettings.recorded.eq_def, hcfg]
  rw [← hrecorded]
  unfold Program.keep
  split <;> rfl

/-- Failures that the threshold allows leave their number in the breaker. The induction is on
their number. -/
theorem foldl_failures (e : ε) {id : BreakerId} (hid : p.breakerOf f = some id) {cfg : Settings}
    (hcfg : (p.wrapperOf f).breaker = some cfg) (k : Nat) :
    ∀ s : Process F, (p.breaker s f).state = .closed →
      (p.breaker s f).failureCount + k ≤ cfg.failureThreshold →
      (failures f e k : List (CallStep F ε α)).foldl p.next s
        = p.keep s f (failed cfg k (p.breaker s f)) := by
  induction k with
  | zero =>
    intro s _ _
    exact (keep_breaker f).symm
  | succ k ih =>
    intro s hclosed hcount
    rw [failures, List.foldl_cons, List.foldl_cons, next_failure e k hcfg hclosed]
    have hbreaker : p.breaker (p.keep s f ((p.breaker s f).onFailure cfg 0 0)) f
        = (p.breaker s f).onFailure cfg 0 0 := breaker_keep hid
    cases k with
    | zero => rfl
    | succ k =>
      -- The breaker stays closed: another failure follows within the threshold.
      have hopen : ¬ ((p.breaker s f).state = .halfOpen ∨
          cfg.failureThreshold ≤ (p.breaker s f).failureCount + 1) := by
        rw [hclosed]
        rintro (hstate | hle)
        · exact absurd hstate (by decide)
        · omega
      have hfailed : (p.breaker s f).onFailure cfg 0 0 = { p.breaker s f with
          failureCount := (p.breaker s f).failureCount + 1, halfOpenInFlight := false } :=
        if_neg hopen
      rw [ih _ (by rw [hbreaker, hfailed]; exact hclosed)
        (by rw [hbreaker, hfailed]; dsimp only; omega), hbreaker, keep_keep]
      rfl

/-- The calls of another function do not see the failures. -/
theorem outputs_failures (e : ε) (hne : f ≠ g) (k : Nat) (s : Process F) :
    outputs p.next (fun s step => p.seenBy s g step) s
      (failures f e k : List (CallStep F ε α)) = [] := by
  induction k generalizing s with
  | zero => rfl
  | succ k ih =>
    rw [failures, outputs_cons, outputs_cons, ih]
    simp [Program.seenBy, CallStep.func, hne]

theorem filter_failures (e : ε) (k : Nat) :
    ((failures f e k : List (CallStep F ε α)).filter fun step => step.func ≠ f) = [] := by
  induction k with
  | zero => rfl
  | succ k ih => simpa [failures, CallStep.func] using ih

/-- Five failures open a private breaker. -/
theorem beforeCall_failed (name name' : String) :
    (failed (defaultSettings name').1 5 .fresh).beforeCall (defaultSettings name).1 0
      = .error ⟨name⟩ := by
  have hopen : failed (defaultSettings name').1 5 .fresh = ⟨.opened, 5, 0, some 0, false⟩ := rfl
  rw [hopen]
  simp [CircuitBreaker.beforeCall, defaultSettings]

theorem beforeCall_fresh (cfg : Settings) (monotonic : ℚ) :
    CircuitBreaker.fresh.beforeCall cfg monotonic = .ok .fresh := rfl

/-- A function that shares the private breaker of `f` is not isolated from it: five failed calls
of `f` reject its call. -/
theorem not_isolated_of_shared [Nonempty ε] (used : Nat → CircuitBreaker) (hne : f ≠ g)
    (hf : (p.argumentsOf f).circuitBreaker = .on) (hshared : p.decoratedBy f = p.decoratedBy g) :
    ¬ Isolated α p used f g := by
  obtain ⟨e⟩ := ‹Nonempty ε›
  -- One decorator value has one set of arguments and one breaker.
  have harguments : p.argumentsOf g = p.argumentsOf f := by
    rw [Program.argumentsOf, Program.argumentsOf, hshared]
  have hg : (p.argumentsOf g).circuitBreaker = .on := harguments ▸ hf
  have hid := breakerOf_of_on hf
  have hid' : p.breakerOf g = some (.made (p.decoratedBy f)) := hshared ▸ breakerOf_of_on hg
  intro hisolated
  have hsame := hisolated (failures f e 5 ++ [.arrive g 0 0])
  have hfresh : p.breaker (.start used) f = .fresh := breaker_of_some hid
  have hkept : [(.arrive g 0 0 : CallStep F ε α)].filter (fun step => step.func ≠ f)
      = [.arrive g 0 0] := List.filter_cons_of_pos (decide_eq_true hne.symm)
  rw [List.filter_append, filter_failures, hkept, outputs_append, outputs_failures e hne,
    foldl_failures e hid (wrapperOf_breaker_of_on hf) 5 _ (by rw [hfresh]; rfl)
      (by rw [hfresh]; exact le_refl 5), hfresh] at hsame
  -- With the failures the call of `g` is rejected, and without them it is admitted.
  have hbreaker : ∀ s : Process F, p.breaker s g = p.breaker s f := by
    intro s
    rw [breaker_of_some hid, breaker_of_some hid']
  simp only [outputs_cons, outputs_nil, Program.seenBy, CallStep.func, if_true, Program.seen,
    ReliableSettings.admission, wrapperOf_breaker_of_on hg, hbreaker, breaker_keep hid, hfresh,
    beforeCall_failed, beforeCall_fresh, List.nil_append, List.append_nil] at hsame
  simp at hsame

/-- With `circuit_breaker=True`, a function is isolated from another one exactly when they are
decorated by different decorator values. -/
theorem isolated_iff [Nonempty ε] (p : Program F ε) (used : Nat → CircuitBreaker) (f g : F)
    (hne : f ≠ g) (hf : (p.argumentsOf f).circuitBreaker = .on)
    (hg : (p.argumentsOf g).circuitBreaker = .on) :
    Isolated α p used f g ↔ p.decoratedBy f ≠ p.decoratedBy g := by
  constructor
  · exact fun hisolated hshared => not_isolated_of_shared used hne hf hshared hisolated
  · intro hdifferent
    apply isolated_of_apart
    rw [breakerOf_of_on hf, breakerOf_of_on hg]
    simpa using Ne.symm hdifferent

end

/-- A program whose calls of `reliable` are all `reliable(retries=1, circuit_breaker=True)`. -/
def guardedBy (decoratedBy : String → Nat) : Program String String where
  builds := fun _ =>
    { retry := ⟨1, ⟨.exponential, 1, 300, true, by norm_num, by norm_num⟩, fun _ => true,
        by norm_num⟩
      circuitBreaker := .on
      name := none
      hasEvents := true
      component := "gateway" }
  objects := fun _ => defaultSettings "default"
  decoratedBy := decoratedBy
  funcName := id

/-- `cloud = guard.reliable(circuit_breaker=True)` is applied to two functions. The failures of
one of them reject the calls of the other one. -/
theorem sharedDecorator_rejects :
    "upload" ≠ "download" ∧
    ((guardedBy fun _ => 0).argumentsOf "upload").circuitBreaker = .on ∧
    ((guardedBy fun _ => 0).argumentsOf "download").circuitBreaker = .on ∧
    ¬ Isolated Nat (guardedBy fun _ => 0) (fun _ => .fresh) "upload" "download" :=
  ⟨by decide, rfl, rfl, not_isolated_of_shared _ (by decide) rfl rfl⟩

/-- A decorator value each keeps the two functions apart. -/
theorem isolated_iff_oneEach :
    Isolated Nat (guardedBy String.length) (fun _ => .fresh) "upload" "download" :=
  (isolated_iff (guardedBy String.length) (fun _ => .fresh) "upload" "download" (by decide) rfl
    rfl).mpr (by decide)

end EdgeSentinel.Proofs.Resilience
