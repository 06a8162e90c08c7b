import EdgeSentinel.Proofs.Core.Publication
import EdgeSentinel.Resilience.Reliable

/-!
# `EdgeSentinel.Proofs.Resilience.EndToEnd`: what a decorated call does

`RetryPolicy.run` as a function of the outcomes says how a call ends and which retries it makes.
The loop of the decorated call does what that function says (`run_loop`), whatever the outcomes
are, as long as its retries can be reported. What the function gives when every delay is computed is
`runFrom_spec`.

`wrapper_endToEnd` puts the layers together: the breaker admits or rejects, the attempts run up to the
last one, the breaker records one outcome, and the caller gets that outcome. It is so exactly when
every event that the outcomes call for can be reported. An exception of a report takes the place of
the outcome, and in a retry it ends the attempts.
-/

set_option autoImplicit false

namespace EdgeSentinel.Proofs.Resilience

open Async
open EdgeSentinel.Resilience

/-! ### The attempts as a function of their outcomes -/

section
variable {α ε : Type} {p : RetryPolicy ε} {outcome : Nat → Attempt α ε} {draw : Nat → Draw}

/-- The result of a run whose last attempt ends so. -/
def resultOf : Attempt α ε → RetryResult α ε
  | .returned value => .returned value
  | .raised e => .raised e
  | .cancelled => .cancelled

theorem runFrom_of_stops {remaining attempt : Nat} (h : ¬ p.Retried outcome attempt) :
    p.runFrom outcome draw remaining attempt = { result := resultOf (outcome attempt) } := by
  unfold RetryPolicy.runFrom
  cases hout : outcome attempt with
  | returned value => rfl
  | cancelled => rfl
  | raised e =>
    have hno : p.retryOn e = false := by
      by_contra hyes
      exact h ⟨e, hout, by simpa using hyes⟩
    simp only [hno, Bool.not_false, if_true]
    rfl

theorem runFrom_of_last (attempt : Nat) :
    p.runFrom outcome draw 0 attempt = { result := resultOf (outcome attempt) } := by
  unfold RetryPolicy.runFrom
  cases outcome attempt with
  | returned value => rfl
  | cancelled => rfl
  | raised e => cases p.retryOn e <;> simp [resultOf]

theorem runFrom_of_replaced {remaining attempt : Nat} {e : ε} {err : BackoffError}
    (hout : outcome attempt = .raised e) (hretry : p.retryOn e = true)
    (hdelay : p.backoff.computeDelay attempt (draw attempt) = .error err) :
    p.runFrom outcome draw (remaining + 1) attempt = { result := .replaced err } := by
  rw [RetryPolicy.runFrom]
  simp [hout, hretry, hdelay]

theorem runFrom_of_retried {remaining attempt : Nat} {e : ε} {delay : ℚ}
    (hout : outcome attempt = .raised e) (hretry : p.retryOn e = true)
    (hdelay : p.backoff.computeDelay attempt (draw attempt) = .ok delay) :
    p.runFrom outcome draw (remaining + 1) attempt =
      { result := (p.runFrom outcome draw remaining (attempt + 1)).result
        invocations := (p.runFrom outcome draw remaining (attempt + 1)).invocations + 1
        retries := ⟨attempt, delay, e⟩ ::
          (p.runFrom outcome draw remaining (attempt + 1)).retries } := by
  rw [RetryPolicy.runFrom]
  simp [hout, hretry, hdelay]

/-- A retry reports its attempt's exception and the delay that was computed for it. -/
def Reports (p : RetryPolicy ε) (outcome : Nat → Attempt α ε) (draw : Nat → Draw)
    (r : RetryAttempt ε) : Prop :=
  outcome r.attempt = .raised r.exception ∧
    p.backoff.computeDelay r.attempt (draw r.attempt) = .ok r.delay

/-- The attempts from `first` on end with attempt `last`. -/
structure EndsAt (p : RetryPolicy ε) (outcome : Nat → Attempt α ε) (draw : Nat → Draw)
    (first last : Nat) (r : RetryRun α ε) : Prop where
  retried : ∀ n, first ≤ n → n < last → p.Retried outcome n
  invocations : first + r.invocations = last + 1
  numbers : r.retries.map (·.attempt) = List.range' first (last - first)
  reports : ∀ x ∈ r.retries, Reports p outcome draw x
  result : r.result = resultOf (outcome last)

theorem EndsAt.single {first : Nat} :
    EndsAt p outcome draw first first { result := resultOf (outcome first) } where
  retried n hle hlt := by omega
  invocations := rfl
  numbers := by simp
  reports := by simp
  result := rfl

/-- When every delay is computed, the run ends at the first attempt that is not retried, or at
the last one. The induction is on the attempts that are left. -/
theorem runFrom_spec (remaining : Nat) : ∀ first,
    (∀ n, first ≤ n → n < first + remaining →
      ∃ delay, p.backoff.computeDelay n (draw n) = .ok delay) →
    ∃ last, first ≤ last ∧ last ≤ first + remaining ∧
      (¬ p.Retried outcome last ∨ last = first + remaining) ∧
      EndsAt p outcome draw first last (p.runFrom outcome draw remaining first) := by
  induction remaining with
  | zero =>
    intro first _
    refine ⟨first, le_refl _, le_refl _, Or.inr rfl, ?_⟩
    rw [runFrom_of_last]
    exact .single
  | succ remaining ih =>
    intro first hdelay
    by_cases hretried : p.Retried outcome first
    -- This attempt is retried: its report comes before the reports of the later ones.
    · obtain ⟨e, hout, hretry⟩ := hretried
      obtain ⟨delay, hd⟩ := hdelay first (le_refl _) (by omega)
      obtain ⟨last, hle, hbound, hlast, h⟩ :=
        ih (first + 1) fun n hn hn' => hdelay n (by omega) (by omega)
      refine ⟨last, by omega, by omega, hlast.imp_right (by omega), ?_⟩
      rw [runFrom_of_retried hout hretry hd]
      constructor
      · intro n hn hn'
        rcases Nat.eq_or_lt_of_le hn with rfl | hn
        · exact ⟨e, hout, hretry⟩
        · exact h.retried n hn hn'
      · have := h.invocations
        dsimp only
        omega
      · have hsub : last - first = (last - (first + 1)) + 1 := by omega
        rw [List.map_cons, h.numbers, hsub, List.range'_succ]
      · intro x hx
        rcases List.mem_cons.mp hx with rfl | hx
        · exact ⟨hout, hd⟩
        · exact h.reports x hx
      · exact h.result
    · refine ⟨first, le_refl _, by omega, Or.inl hretried, ?_⟩
      rw [runFrom_of_stops hretried]
      exact .single

end

/-! ### Reports -/

section
variable {ε κ τ α : Type} {s : ReliableSettings ε} {w : Surroundings ε τ α} {r : Reporting ε τ}
  {cb : CircuitBreaker} {arguments : κ}

/-- An event can be reported: `str` gives the text of the exception that it names, and the calls of
the handlers return awaitables. -/
def Answers (s : ReliableSettings ε) (r : Reporting ε τ) (named : Option (ResilienceError ε))
    (event : Core.Event τ) : Prop :=
  s.hasEvents = true → named.bind r.raisedByStr = none ∧ (r.audience event).Awaitables

theorem answers_default (named : Option (ResilienceError ε)) (event : Core.Event τ) :
    Answers s {} named event := by
  refine fun _ => ⟨?_, Core.Audience.awaitables_default⟩
  rcases named with - | - | - | - | (- | - | -) <;> rfl

section
variable {named : Option (ResilienceError ε)} {event : Nat → Core.Event τ} {b : Bench (Course κ τ)}

/-- A report only adds to the acts. -/
theorem run_publish (h : Answers s r named (event b.host.invocations)) :
    (s.publish r named event : ReliableProc ε κ τ Unit).run b = (.returned (),
      { b with host := { b.host with acts := b.host.acts ++ s.told (event b.host.invocations) } }) := by
  unfold ReliableSettings.publish ReliableSettings.told
  rw [Proc.run_bind_of_returned (Proc.run_read _)]
  cases hevents : s.hasEvents with
  | false => simp
  | true =>
    obtain ⟨hstr, hawaitables⟩ := h hevents
    simp only [if_true, hstr, (Core.raised_eq_none_iff _ _).mpr hawaitables]
    rfl

/-- A report that fails ends with an exception of its own. -/
theorem run_publish_of_not_answers (h : ¬ Answers s r named (event b.host.invocations)) :
    ∃ e b', (s.publish r named event : ReliableProc ε κ τ Unit).run b = (.raised (.report e), b') := by
  obtain ⟨hevents, hnot⟩ := Classical.not_imp.mp h
  unfold ReliableSettings.publish
  rw [Proc.run_bind_of_returned (Proc.run_read _)]
  simp only [hevents, if_true]
  cases hstr : named.bind r.raisedByStr with
  | some e => exact ⟨_, _, rfl⟩
  | none =>
    have hraised := mt (Core.raised_eq_none_iff (r.audience (event b.host.invocations))
      (event b.host.invocations)).mp fun hawaitables => hnot ⟨hstr, hawaitables⟩
    obtain ⟨e, he⟩ := Option.ne_none_iff_exists'.mp hraised
    simp only [he]
    exact ⟨_, _, rfl⟩

end

/-! ### The loop does what the function says -/

/-- The attempts that the function is given. -/
def attempts (w : Surroundings ε τ α) (n : Nat) : Attempt α (ResilienceError ε) :=
  match w.outcome n with
  | .ok value => .returned value
  | .error e => .raised (.function e)

/-- How a call ends by the result of its attempts. -/
def endsOf : RetryResult α (ResilienceError ε) → Outcome (ResilienceError ε) α
  | .returned value => .returned value
  | .raised e => .raised e
  | .cancelled => .cancelled
  | .replaced e => .raised (.backoff e)

theorem endsOf_resultOf (n : Nat) : endsOf (resultOf (attempts w n)) = w.ends n := by
  unfold attempts Surroundings.ends
  cases w.outcome n <;> rfl

theorem ends_ne_cancelled (n : Nat) : w.ends n ≠ .cancelled := by
  unfold Surroundings.ends
  cases w.outcome n <;> simp

/-- What is done for a retry. -/
def retryActs (s : ReliableSettings ε) (w : Surroundings ε τ α) (arguments : κ)
    (r : RetryAttempt (ResilienceError ε)) : List (Act κ τ) :=
  .invoked arguments :: s.told (s.retryAttempt w r r.attempt) ++ [.slept r.delay]

/-- What is done in a run of the attempts. -/
def actsOf (s : ReliableSettings ε) (w : Surroundings ε τ α) (arguments : κ)
    (r : RetryRun α (ResilienceError ε)) : List (Act κ τ) :=
  r.retries.flatMap (retryActs s w arguments) ++ [.invoked arguments]

/-- The retries of a run can be reported. -/
def Reported (s : ReliableSettings ε) (w : Surroundings ε τ α) (r : Reporting ε τ)
    (run : RetryRun α (ResilienceError ε)) : Prop :=
  ∀ x ∈ run.retries, Answers s r x.exception (s.retryAttempt w x x.attempt)

/-- The loop from an attempt on. -/
def loopFrom (s : ReliableSettings ε) (w : Surroundings ε τ α) (r : Reporting ε τ) (arguments : κ)
    (remaining n : Nat) : ReliableProc ε κ τ α :=
  s.retry.loop (ReliableSettings.attempt w arguments) (s.onRetry w r) ReliableSettings.sleep
    w.draw remaining (n + 1)

/-- The loop from an attempt on, in the terms of the function. -/
def LoopRuns (s : ReliableSettings ε) (w : Surroundings ε τ α) (r : Reporting ε τ)
    (cb : CircuitBreaker) (arguments : κ) (remaining n : Nat) (acts : List (Act κ τ)) : Prop :=
  let run := s.retry.runFrom (attempts w) w.draw remaining (n + 1)
  (loopFrom s w r arguments remaining n).run (w.bench cb n acts)
    = (endsOf run.result, w.bench cb (n + run.invocations) (acts ++ actsOf s w arguments run))

/-- An attempt that is not retried ends the loop. -/
theorem loopRuns_of_stops {remaining n : Nat} (acts : List (Act κ τ))
    (h : ¬ s.retry.Retried (attempts w) (n + 1)) :
    LoopRuns s w r cb arguments remaining n acts := by
  have hrun : (ReliableSettings.attempt w arguments : ReliableProc ε κ τ α).run (w.bench cb n acts)
      = (w.ends (n + 1), w.bench cb (n + 1) (acts ++ [.invoked arguments])) := rfl
  unfold LoopRuns loopFrom
  rw [runFrom_of_stops h]
  dsimp only
  rw [endsOf_resultOf, RetryPolicy.loop]
  cases hout : w.outcome (n + 1) with
  | ok value =>
    have hends : w.ends (n + 1) = .returned value := by rw [Surroundings.ends, hout]
    rw [hends] at hrun ⊢
    exact Proc.run_tryExcept_of_returned hrun _
  | error e =>
    have hends : w.ends (n + 1) = .raised (.function e) := by rw [Surroundings.ends, hout]
    have hno : s.retry.retryOn (.function e) = false := by
      by_contra hyes
      exact h ⟨.function e, by rw [attempts, hout], by simpa using hyes⟩
    rw [hends] at hrun ⊢
    rw [Proc.run_tryExcept_of_raised hrun]
    simp only [hno, Bool.not_false, if_true, Proc.run_raise]
    rfl

/-- An attempt that raises, as the loop meets it. -/
theorem run_attempt_of_raised {n : Nat} {e : ResilienceError ε} (acts : List (Act κ τ))
    (hout : attempts w (n + 1) = .raised e) :
    (ReliableSettings.attempt w arguments : ReliableProc ε κ τ α).run (w.bench cb n acts)
      = (.raised e, w.bench cb (n + 1) (acts ++ [.invoked arguments])) := by
  rw [ReliableSettings.run_attempt, ← endsOf_resultOf, hout]
  rfl

/-- The last attempt is not retried, whatever it raises. -/
theorem loopRuns_of_last (n : Nat) (acts : List (Act κ τ)) :
    LoopRuns s w r cb arguments 0 n acts := by
  by_cases h : s.retry.Retried (attempts w) (n + 1)
  · obtain ⟨e, hout, hretry⟩ := h
    unfold LoopRuns loopFrom
    rw [runFrom_of_last, hout, RetryPolicy.loop,
      Proc.run_tryExcept_of_raised (run_attempt_of_raised acts hout)]
    simp only [hretry, Bool.not_true, Bool.false_eq_true, if_false, Proc.run_raise]
    rfl
  · exact loopRuns_of_stops acts h

/-- A retried attempt is followed by its delay. -/
theorem run_loopFrom_of_retried {remaining n : Nat} {e : ResilienceError ε} (acts : List (Act κ τ))
    (hout : attempts w (n + 1) = .raised e) (hretry : s.retry.retryOn e = true) :
    (loopFrom s w r arguments (remaining + 1) n).run (w.bench cb n acts) = (do
      let delay ← s.retry.backoff.delay (n + 1) (w.draw (n + 1))
      s.onRetry w r ⟨n + 1, delay, e⟩
      ReliableSettings.sleep delay
      loopFrom s w r arguments remaining (n + 1) : ReliableProc ε κ τ α).run
        (w.bench cb (n + 1) (acts ++ [.invoked arguments])) := by
  unfold loopFrom
  rw [RetryPolicy.loop, Proc.run_tryExcept_of_raised (run_attempt_of_raised acts hout)]
  simp only [hretry, Bool.not_true, Bool.false_eq_true, if_false]

theorem run_delay {n : Nat} {delay : ℚ} (b : Bench (Course κ τ))
    (hdelay : s.retry.backoff.computeDelay n (w.draw n) = .ok delay) :
    (s.retry.backoff.delay n (w.draw n) : ReliableProc ε κ τ ℚ).run b = (.returned delay, b) := by
  rw [Backoff.delay, hdelay]
  rfl

/-- A delay that cannot be computed ends the loop with its exception. -/
theorem loopRuns_of_replaced {remaining n : Nat} {e : ResilienceError ε} {err : BackoffError}
    (acts : List (Act κ τ)) (hout : attempts w (n + 1) = .raised e)
    (hretry : s.retry.retryOn e = true)
    (hdelay : s.retry.backoff.computeDelay (n + 1) (w.draw (n + 1)) = .error err) :
    LoopRuns s w r cb arguments (remaining + 1) n acts := by
  unfold LoopRuns
  rw [run_loopFrom_of_retried acts hout hretry, runFrom_of_replaced hout hretry hdelay]
  refine Proc.run_bind_of_raised ?_ _
  rw [Backoff.delay, hdelay]
  rfl

/-- The loop ends, counts and acts as the function says when its retries can be reported. The
induction is on the attempts that are left. -/
theorem run_loop (remaining : Nat) : ∀ (n : Nat) (acts : List (Act κ τ)),
    Reported s w r (s.retry.runFrom (attempts w) w.draw remaining (n + 1)) →
      LoopRuns s w r cb arguments remaining n acts := by
  induction remaining with
  | zero => exact fun n acts _ => loopRuns_of_last n acts
  | succ remaining ih =>
    intro n acts hreported
    by_cases h : s.retry.Retried (attempts w) (n + 1)
    · obtain ⟨e, hout, hretry⟩ := h
      cases hdelay : s.retry.backoff.computeDelay (n + 1) (w.draw (n + 1)) with
      | error err => exact loopRuns_of_replaced acts hout hretry hdelay
      | ok delay =>
        rw [runFrom_of_retried hout hretry hdelay] at hreported
        obtain ⟨hfirst, hlater⟩ := List.forall_mem_cons.mp hreported
        -- The rest of the loop begins after the report and the sleep.
        have hrest := ih (n + 1) (acts ++ retryActs s w arguments ⟨n + 1, delay, e⟩) hlater
        dsimp only [LoopRuns] at hrest
        have hreport : (s.onRetry w r ⟨n + 1, delay, e⟩ : ReliableProc ε κ τ Unit).run
            (w.bench cb (n + 1) (acts ++ [.invoked arguments])) = (.returned (),
              w.bench cb (n + 1) (acts ++ [.invoked arguments]
                ++ s.told (s.retryAttempt w ⟨n + 1, delay, e⟩ (n + 1)))) := run_publish hfirst
        have hacts : acts ++ [.invoked arguments]
              ++ s.told (s.retryAttempt w ⟨n + 1, delay, e⟩ (n + 1)) ++ [.slept delay]
            = acts ++ retryActs s w arguments ⟨n + 1, delay, e⟩ := by
          simp [retryActs]
        unfold LoopRuns
        rw [runFrom_of_retried hout hretry hdelay, run_loopFrom_of_retried acts hout hretry,
          Proc.run_bind_of_returned (run_delay _ hdelay), Proc.run_bind_of_returned hreport,
          Proc.run_bind_of_returned (ReliableSettings.run_sleep delay), hacts, hrest]
        simp only [actsOf, List.flatMap_cons, List.append_assoc, Nat.add_assoc, Nat.add_comm 1]
    · exact loopRuns_of_stops acts h

/-- A retry that cannot be reported ends the loop. The induction is on the attempts that are
left. -/
theorem run_loop_of_not_reported (remaining : Nat) : ∀ (n : Nat) (acts : List (Act κ τ)),
    ¬ Reported s w r (s.retry.runFrom (attempts w) w.draw remaining (n + 1)) →
      ∃ e b', (loopFrom s w r arguments remaining n).run (w.bench cb n acts)
        = (.raised (.report e), b') := by
  induction remaining with
  | zero =>
    intro n acts hnot
    rw [runFrom_of_last] at hnot
    exact absurd (fun x hx => absurd hx List.not_mem_nil) hnot
  | succ remaining ih =>
    intro n acts hnot
    by_cases h : s.retry.Retried (attempts w) (n + 1)
    · obtain ⟨e, hout, hretry⟩ := h
      cases hdelay : s.retry.backoff.computeDelay (n + 1) (w.draw (n + 1)) with
      | error err =>
        rw [runFrom_of_replaced hout hretry hdelay] at hnot
        exact absurd (fun x hx => absurd hx List.not_mem_nil) hnot
      | ok delay =>
        rw [runFrom_of_retried hout hretry hdelay] at hnot
        rw [run_loopFrom_of_retried acts hout hretry,
          Proc.run_bind_of_returned (run_delay _ hdelay)]
        by_cases hfirst : Answers s r e (s.retryAttempt w ⟨n + 1, delay, e⟩ (n + 1))
        -- A later retry cannot be reported.
        · have hlater := fun hlater => hnot (List.forall_mem_cons.mpr ⟨hfirst, hlater⟩)
          have hreport : (s.onRetry w r ⟨n + 1, delay, e⟩ : ReliableProc ε κ τ Unit).run
              (w.bench cb (n + 1) (acts ++ [.invoked arguments])) = (.returned (),
                w.bench cb (n + 1) (acts ++ [.invoked arguments]
                  ++ s.told (s.retryAttempt w ⟨n + 1, delay, e⟩ (n + 1)))) := run_publish hfirst
          rw [Proc.run_bind_of_returned hreport,
            Proc.run_bind_of_returned (ReliableSettings.run_sleep delay)]
          exact ih (n + 1) _ hlater
        · have hreport : ∃ err b', (s.onRetry w r ⟨n + 1, delay, e⟩ : ReliableProc ε κ τ Unit).run
              (w.bench cb (n + 1) (acts ++ [.invoked arguments])) = (.raised (.report err), b') :=
            run_publish_of_not_answers hfirst
          obtain ⟨err, b', herr⟩ := hreport
          exact ⟨err, b', Proc.run_bind_of_raised herr _⟩
    · rw [runFrom_of_stops h] at hnot
      exact absurd (fun x hx => absurd hx List.not_mem_nil) hnot

/-! ### What is done for the attempts -/

section
variable {run : RetryRun α (ResilienceError ε)}

/-- Some of the acts, retry by retry. -/
theorem filterMap_actsOf {β : Type} (f : Act κ τ → Option β) :
    (actsOf s w arguments run).filterMap f =
      (run.retries.flatMap fun x => (retryActs s w arguments x).filterMap f)
        ++ (f (.invoked arguments)).toList := by
  rw [actsOf, List.filterMap_append, List.filterMap_flatMap]
  cases hf : f (.invoked arguments) <;> simp [hf]

/-- The acts for one retry. -/
theorem retryActs_acts (x : RetryAttempt (ResilienceError ε)) :
    (retryActs s w arguments x).filterMap Act.invoked? = [arguments] ∧
    (retryActs s w arguments x).filterMap Act.slept? = [x.delay] ∧
    (retryActs s w arguments x).filterMap Act.published?
      = if s.hasEvents then [s.retryAttempt w x x.attempt] else [] := by
  unfold retryActs ReliableSettings.told
  cases s.hasEvents <;> exact ⟨rfl, rfl, rfl⟩

theorem actsOf_invoked :
    (actsOf s w arguments run).filterMap Act.invoked?
      = List.replicate (run.retries.length + 1) arguments := by
  have hone : (fun x => (retryActs s w arguments x).filterMap Act.invoked?)
      = fun _ => [arguments] := funext fun x => (retryActs_acts x).1
  rw [filterMap_actsOf, hone, ← List.map_eq_flatMap, List.map_const', List.replicate_succ']
  rfl

theorem actsOf_slept :
    (actsOf s w arguments run).filterMap Act.slept? = run.retries.map (·.delay) := by
  have hone : (fun x => (retryActs s w arguments x).filterMap Act.slept?)
      = fun x => [x.delay] := funext fun x => (retryActs_acts x).2.1
  rw [filterMap_actsOf, hone, ← List.map_eq_flatMap]
  exact List.append_nil _

theorem actsOf_published :
    (actsOf s w arguments run).filterMap Act.published?
      = if s.hasEvents then run.retries.map fun x => s.retryAttempt w x x.attempt else [] := by
  have hone : (fun x => (retryActs s w arguments x).filterMap Act.published?)
      = fun x => if s.hasEvents then [s.retryAttempt w x x.attempt] else [] :=
    funext fun x => (retryActs_acts x).2.2
  rw [filterMap_actsOf, hone]
  -- A call without a bus publishes nothing.
  cases s.hasEvents with
  | true =>
    simp only [if_true, ← List.map_eq_flatMap]
    exact List.append_nil _
  | false => simp [Act.published?]

end

/-- What an event adds to the acts. -/
theorem told_acts (κ : Type) (s : ReliableSettings ε) (event : Core.Event τ) :
    (s.told event : List (Act κ τ)).filterMap Act.invoked? = [] ∧
    (s.told event : List (Act κ τ)).filterMap Act.slept? = [] ∧
    (s.told event : List (Act κ τ)).filterMap Act.published?
      = if s.hasEvents then [event] else [] := by
  unfold ReliableSettings.told
  cases s.hasEvents <;> exact ⟨rfl, rfl, rfl⟩

/-! ### The decorated call -/

/-- No attempt follows this one: it ends with a value, or with an exception that `retry_on`
does not match. -/
def Stops (s : ReliableSettings ε) (w : Surroundings ε τ α) (n : Nat) : Prop :=
  ∀ e, w.outcome n = .error e → s.retry.retryOn (.function e) = false

/-- The first attempt that no other follows, or the last one that the policy allows. -/
structure IsLast (s : ReliableSettings ε) (w : Surroundings ε τ α) (k : Nat) : Prop where
  pos : 1 ≤ k
  le : k ≤ s.retry.maxAttempts
  stops : Stops s w k ∨ k = s.retry.maxAttempts
  first : ∀ n, 1 ≤ n → n < k → ¬ Stops s w n

/-- The event that reports the outcome of attempt `k`. -/
def finalEvent (s : ReliableSettings ε) (w : Surroundings ε τ α) (k : Nat) : Core.Event τ :=
  match w.outcome k with
  | .ok _ => s.operationSucceeded w k
  | .error e => s.operationFailed w (.function e) k

/-- What an admitted call has done when it ends with attempt `k`. `cb` is the breaker that
admitted it. -/
structure Carried (s : ReliableSettings ε) (w : Surroundings ε τ α) (cb : CircuitBreaker)
    (arguments : κ) (k : Nat)
    (ended : Outcome (ResilienceError ε) α × Bench (Course κ τ)) : Prop where
  invoked : ended.2.host.acts.filterMap Act.invoked? = List.replicate k arguments
  slept : (ended.2.host.acts.filterMap Act.slept?).length = k - 1
  published : ∃ retries : List (RetryAttempt (ResilienceError ε)),
    retries.map (·.attempt) = List.range' 1 (k - 1) ∧
    (∀ x ∈ retries, w.ends x.attempt = .raised x.exception ∧
      s.retry.backoff.computeDelay x.attempt (w.draw x.attempt) = .ok x.delay) ∧
    ended.2.host.acts.filterMap Act.slept? = retries.map (·.delay) ∧
    ended.2.host.acts.filterMap Act.published? =
      if s.hasEvents then retries.map (fun x => s.retryAttempt w x x.attempt) ++ [finalEvent s w k]
      else []
  breaker : ended.2.breaker
    = s.recorded (w.monotonic k) (w.wallclock k) (w.breakerAfter cb k) (w.ends k)
  ends : ended.1 = w.ends k

theorem stops_iff {n : Nat} : Stops s w n ↔ ¬ s.retry.Retried (attempts w) n := by
  unfold Stops RetryPolicy.Retried attempts
  cases w.outcome n with
  | ok value => simp
  | error e => simp

/-- The event that reports how a call has ended. A cancelled call reports nothing. -/
def reported (s : ReliableSettings ε) (w : Surroundings ε τ α) (n : Nat) :
    Outcome (ResilienceError ε) α → List (Act κ τ)
  | .returned _ => s.told (s.operationSucceeded w n)
  | .raised e => s.told (s.operationFailed w e n)
  | .cancelled => []

/-- The end of a call can be reported. -/
def EndAnswers (s : ReliableSettings ε) (w : Surroundings ε τ α) (r : Reporting ε τ) (n : Nat) :
    Outcome (ResilienceError ε) α → Prop
  | .returned _ => Answers s r none (s.operationSucceeded w n)
  | .raised e => Answers s r e (s.operationFailed w e n)
  | .cancelled => True

theorem endAnswers_default (n : Nat) (o : Outcome (ResilienceError ε) α) :
    EndAnswers s w {} n o := by
  cases o with
  | returned value => exact answers_default _ _
  | raised e => exact answers_default _ _
  | cancelled => trivial

theorem reported_ends (n : Nat) :
    (reported s w n (w.ends n) : List (Act κ τ)) = s.told (finalEvent s w n) := by
  unfold Surroundings.ends finalEvent
  cases w.outcome n <;> rfl

section
variable {cb' : CircuitBreaker} {b b' : Bench (Course κ τ)} {o : Outcome (ResilienceError ε) α}

/-- The attempts of an admitted call, behind its breaker. -/
theorem run_guarded (hadmitted : s.admission (w.monotonic 0) cb = .ok cb')
    (hloop : (s.runWithRetry w arguments r).run (w.bench cb' 0 []) = (o, b'))
    (hne : o ≠ .cancelled) :
    (s.guarded w arguments r).run (w.bench cb 0 []) = (o, { b' with
      breaker := s.recorded b'.monotonic b'.wallclock b'.breaker o }) := by
  unfold ReliableSettings.admission at hadmitted
  unfold ReliableSettings.guarded ReliableSettings.recorded
  cases hbreaker : s.breaker with
  | none =>
    rw [hbreaker] at hadmitted
    cases hadmitted
    dsimp only
    rw [hloop]
    cases o <;> rfl
  | some cfg =>
    rw [hbreaker] at hadmitted
    cases o with
    | returned value => exact Resilient.run_call_of_returned (b := w.bench cb 0 []) hadmitted hloop
    | raised e => exact Resilient.run_call_of_raised (b := w.bench cb 0 []) hadmitted hloop
    | cancelled => exact absurd rfl hne

/-- The event of the outcome comes last. -/
theorem run_wrapper (hguarded : (s.guarded w arguments r).run b = (o, b'))
    (hanswers : EndAnswers s w r b'.host.invocations o) :
    (s.wrapper w arguments r).run b = (o, { b' with host := { b'.host with
      acts := b'.host.acts ++ reported s w b'.host.invocations o } }) := by
  unfold ReliableSettings.wrapper
  cases o with
  | returned value =>
    rw [Proc.run_bind_of_returned (Proc.run_tryExcept_of_returned hguarded _),
      Proc.run_bind_of_returned (run_publish hanswers)]
    rfl
  | raised e =>
    refine Proc.run_bind_of_raised ?_ _
    rw [Proc.run_tryExcept_of_raised hguarded, Proc.run_bind_of_returned (run_publish hanswers)]
    rfl
  | cancelled =>
    rw [Proc.run_bind_of_cancelled (Proc.run_tryExcept_of_cancelled hguarded _)]
    simp only [reported, List.append_nil]

/-- An end that cannot be reported is lost: the exception of the report takes its place. -/
theorem run_wrapper_of_not_answers (hguarded : (s.guarded w arguments r).run b = (o, b'))
    (hnot : ¬ EndAnswers s w r b'.host.invocations o) :
    ∃ e b'', (s.wrapper w arguments r).run b = (.raised (.report e), b'') := by
  unfold ReliableSettings.wrapper
  cases o with
  | returned value =>
    obtain ⟨e, b'', he⟩ := run_publish_of_not_answers (κ := κ) (b := b') hnot
    refine ⟨e, b'', ?_⟩
    rw [Proc.run_bind_of_returned (Proc.run_tryExcept_of_returned hguarded _)]
    exact Proc.run_bind_of_raised he _
  | raised e =>
    obtain ⟨e', b'', he'⟩ := run_publish_of_not_answers (κ := κ) (b := b') hnot
    refine ⟨e', b'', Proc.run_bind_of_raised ?_ _⟩
    rw [Proc.run_tryExcept_of_raised hguarded]
    exact Proc.run_bind_of_raised he' _
  | cancelled => exact absurd trivial hnot

/-- An exception of a report ends the call with an exception of a report. -/
theorem run_wrapper_of_report {e : Core.ReportError ε}
    (hguarded : (s.guarded w arguments r).run b = (.raised (.report e), b')) :
    ∃ e' b'', (s.wrapper w arguments r).run b = (.raised (.report e'), b'') := by
  by_cases hanswers : EndAnswers s w r b'.host.invocations
      (.raised (.report e) : Outcome (ResilienceError ε) α)
  · exact ⟨e, _, run_wrapper hguarded hanswers⟩
  · exact run_wrapper_of_not_answers hguarded hanswers

theorem run_guarded_of_rejected {e : CircuitBreakerOpenError}
    (h : s.admission (w.monotonic 0) cb = .error e) :
    (s.guarded w arguments r).run (w.bench cb 0 [])
      = (.raised (.circuitOpen e), w.bench cb 0 []) := by
  unfold ReliableSettings.admission at h
  unfold ReliableSettings.guarded
  cases hbreaker : s.breaker with
  | none => simp [hbreaker] at h
  | some cfg =>
    rw [hbreaker] at h
    exact Resilient.run_call_of_rejected h

/-- A rejected call. -/
theorem run_wrapper_of_rejected {e : CircuitBreakerOpenError}
    (h : s.admission (w.monotonic 0) cb = .error e)
    (hanswers : Answers s r (some (.circuitOpen e)) (s.operationFailed w (.circuitOpen e) 0)) :
    (s.wrapper w arguments r).run (w.bench cb 0 []) = (.raised (.circuitOpen e),
      w.bench cb 0 (s.told (s.operationFailed w (.circuitOpen e) 0))) :=
  run_wrapper (run_guarded_of_rejected h) hanswers

end

/-- The result of the attempts is the outcome of one of them, or an exception of
`compute_delay`. -/
theorem runFrom_result (p : RetryPolicy (ResilienceError ε)) (draw : Nat → Draw)
    (remaining : Nat) : ∀ first,
      (∃ n, (p.runFrom (attempts w) draw remaining first).result = resultOf (attempts w n)) ∨
        ∃ err, (p.runFrom (attempts w) draw remaining first).result = .replaced err := by
  induction remaining with
  | zero =>
    intro first
    rw [runFrom_of_last]
    exact Or.inl ⟨first, rfl⟩
  | succ remaining ih =>
    intro first
    by_cases hretried : p.Retried (attempts w) first
    · obtain ⟨e, hout, hretry⟩ := hretried
      cases hdelay : p.backoff.computeDelay first (draw first) with
      | error err =>
        rw [runFrom_of_replaced hout hretry hdelay]
        exact Or.inr ⟨err, rfl⟩
      | ok delay =>
        rw [runFrom_of_retried hout hretry hdelay]
        exact ih (first + 1)
    · rw [runFrom_of_stops hretried]
      exact Or.inl ⟨first, rfl⟩

/-- The attempts are not cancelled. -/
theorem endsOf_ne_cancelled : endsOf (s.retry.run (attempts w) w.draw).result ≠ .cancelled := by
  rw [RetryPolicy.run]
  rcases runFrom_result s.retry w.draw (s.retry.maxAttempts - 1) 1 with ⟨n, h⟩ | ⟨err, h⟩
  · rw [h, endsOf_resultOf]
    exact ends_ne_cancelled n
  · rw [h]
    simp [endsOf]

/-- An admitted call ends with the result of its attempts when its events can be reported. It
invokes the function as often as they do, and the breaker records the end of the call. -/
theorem wrapper_of_admitted (arguments : κ) {cb' : CircuitBreaker}
    (hadmitted : s.admission (w.monotonic 0) cb = .ok cb') :
    ∃ b', (s.wrapper w arguments).run (w.bench cb 0 [])
        = (endsOf (s.retry.run (attempts w) w.draw).result, b') ∧
      b'.host.invocations = (s.retry.run (attempts w) w.draw).invocations ∧
      b'.breaker = s.recorded (w.monotonic b'.host.invocations) (w.wallclock b'.host.invocations)
        (w.breakerAfter cb' b'.host.invocations)
        (endsOf (s.retry.run (attempts w) w.draw).result) := by
  have hloop : LoopRuns s w {} cb' arguments (s.retry.maxAttempts - 1) 0 [] :=
    run_loop _ 0 [] fun _ _ => answers_default _ _
  dsimp only [LoopRuns] at hloop
  rw [← RetryPolicy.run.eq_def] at hloop
  have hwrapper := run_wrapper (run_guarded hadmitted hloop endsOf_ne_cancelled)
    (endAnswers_default _ _)
  exact ⟨_, hwrapper, Nat.zero_add _, rfl⟩

/-- The retries up to attempt `k` can be reported. -/
def RetriesAnswer (s : ReliableSettings ε) (w : Surroundings ε τ α) (r : Reporting ε τ)
    (k : Nat) : Prop :=
  ∀ n e delay, 1 ≤ n → n < k → w.outcome n = .error e →
    s.retry.backoff.computeDelay n (w.draw n) = .ok delay →
    Answers s r (some (.function e)) (s.retryAttempt w ⟨n, delay, .function e⟩ n)

/-- Every event that the outcomes call for can be reported. -/
structure AllAnswer (s : ReliableSettings ε) (w : Surroundings ε τ α) (r : Reporting ε τ)
    (cb : CircuitBreaker) : Prop where
  rejected : ∀ e, s.admission (w.monotonic 0) cb = .error e →
    Answers s r (some (.circuitOpen e)) (s.operationFailed w (.circuitOpen e) 0)
  admitted : ∀ cb' k, s.admission (w.monotonic 0) cb = .ok cb' → IsLast s w k →
    RetriesAnswer s w r k ∧ EndAnswers s w r k (w.ends k)

theorem IsLast.unique {k k' : Nat} (h : IsLast s w k) (h' : IsLast s w k') : k = k' := by
  -- The lesser one stops, and the greater one is not the first to stop.
  have hnot : ∀ {j j' : Nat}, IsLast s w j → IsLast s w j' → ¬ j < j' := by
    intro j j' hj hj' hlt
    rcases hj.stops with hstops | rfl
    · exact hj'.first j hj.pos hlt hstops
    · exact absurd hj'.le (Nat.not_le.mpr hlt)
  exact le_antisymm (Nat.not_lt.mp (hnot h' h)) (Nat.not_lt.mp (hnot h h'))

/-- The retries that end at attempt `k` are the attempts before it. -/
theorem reported_iff {k : Nat} {run : RetryRun α (ResilienceError ε)}
    (hends : EndsAt s.retry (attempts w) w.draw 1 k run) :
    Reported s w r run ↔ RetriesAnswer s w r k := by
  have hmem : ∀ n, n ∈ run.retries.map (·.attempt) ↔ 1 ≤ n ∧ n < k := by
    intro n
    rw [hends.numbers, List.mem_range'_1]
    have := hends.invocations
    omega
  constructor
  · intro hreported n e delay hn hn' hout hdelay
    obtain ⟨x, hx, rfl⟩ := List.mem_map.mp ((hmem n).mpr ⟨hn, hn'⟩)
    obtain ⟨hraised, hcomputed⟩ := hends.reports x hx
    rw [attempts, hout] at hraised
    rw [hcomputed] at hdelay
    have hanswers := hreported x hx
    obtain ⟨attempt, delay', exception⟩ := x
    cases hraised
    cases hdelay
    exact hanswers
  · intro hanswer x hx
    obtain ⟨hraised, hcomputed⟩ := hends.reports x hx
    obtain ⟨hn, hn'⟩ := (hmem x.attempt).mp (List.mem_map.mpr ⟨x, hx, rfl⟩)
    unfold attempts at hraised
    obtain ⟨attempt, delay, exception⟩ := x
    cases hout : w.outcome attempt with
    | ok value => simp [hout] at hraised
    | error e =>
      simp only [hout] at hraised
      cases hraised
      exact hanswer attempt e delay hn hn' hout hcomputed

theorem carried_of_answer {k : Nat} {run : RetryRun α (ResilienceError ε)} {cb' : CircuitBreaker}
    (hk : 1 ≤ k) (hends : EndsAt s.retry (attempts w) w.draw 1 k run)
    (hrun : (s.wrapper w arguments r).run (w.bench cb 0 []) = (w.ends k,
      { w.bench cb' k (actsOf s w arguments run ++ reported s w k (w.ends k)) with
        breaker := s.recorded (w.monotonic k) (w.wallclock k) (w.breakerAfter cb' k) (w.ends k) })) :
    Carried s w cb' arguments k ((s.wrapper w arguments r).run (w.bench cb 0 [])) := by
  have hlength : run.retries.length = k - 1 := by
    rw [← List.length_map, hends.numbers, List.length_range']
  obtain ⟨hinvoked, hslept, hpublished⟩ := told_acts κ s (finalEvent s w k)
  rw [hrun]
  refine ⟨?_, ?_, ⟨run.retries, hends.numbers, ?_, ?_, ?_⟩, rfl, rfl⟩
  · show (actsOf s w arguments run ++ reported s w k (w.ends k)).filterMap Act.invoked? = _
    rw [reported_ends, List.filterMap_append, actsOf_invoked, hinvoked, List.append_nil, hlength,
      Nat.sub_add_cancel hk]
  · show ((actsOf s w arguments run ++ reported s w k (w.ends k)).filterMap Act.slept?).length = _
    rw [reported_ends, List.filterMap_append, actsOf_slept, hslept, List.append_nil,
      List.length_map, hlength]
  · intro x hx
    obtain ⟨hout, hdelay⟩ := hends.reports x hx
    exact ⟨by rw [← endsOf_resultOf, hout]; rfl, hdelay⟩
  · show (actsOf s w arguments run ++ reported s w k (w.ends k)).filterMap Act.slept? = _
    rw [reported_ends, List.filterMap_append, actsOf_slept, hslept, List.append_nil]
  · show (actsOf s w arguments run ++ reported s w k (w.ends k)).filterMap Act.published? = _
    rw [reported_ends, List.filterMap_append, actsOf_published, hpublished]
    cases s.hasEvents <;> rfl

theorem ends_ne_report (n : Nat) (e : Core.ReportError ε) : w.ends n ≠ .raised (.report e) := by
  unfold Surroundings.ends
  cases w.outcome n <;> simp

/-- An admitted call whose delays are computed carries its attempts to the last one exactly when
its events can be reported. -/
theorem carried_iff (r : Reporting ε τ) (arguments : κ) {cb' : CircuitBreaker}
    (hadmitted : s.admission (w.monotonic 0) cb = .ok cb')
    (hdelay : ∀ n, 1 ≤ n → n < s.retry.maxAttempts →
      ∃ delay, s.retry.backoff.computeDelay n (w.draw n) = .ok delay) :
    ∃ k, IsLast s w k ∧
      (Carried s w cb' arguments k ((s.wrapper w arguments r).run (w.bench cb 0 [])) ↔
        RetriesAnswer s w r k ∧ EndAnswers s w r k (w.ends k)) := by
  have hpos := s.retry.attempts_pos
  have hsum : 1 + (s.retry.maxAttempts - 1) = s.retry.maxAttempts := by omega
  obtain ⟨k, hk, hle, hlast, hends⟩ :
      ∃ k, 1 ≤ k ∧ k ≤ 1 + (s.retry.maxAttempts - 1) ∧
        (¬ s.retry.Retried (attempts w) k ∨ k = 1 + (s.retry.maxAttempts - 1)) ∧
        EndsAt s.retry (attempts w) w.draw 1 k (s.retry.run (attempts w) w.draw) :=
    runFrom_spec _ 1 fun n hn hn' => hdelay n hn (by omega)
  rw [hsum] at hle hlast
  have hislast : IsLast s w k :=
    ⟨hk, hle, hlast.imp_left stops_iff.mpr,
      fun n hn hn' hstops => stops_iff.mp hstops (hends.retried n hn hn')⟩
  refine ⟨k, hislast, ?_⟩
  -- Where an event cannot be reported, the call ends with an exception that no attempt raises.
  have hlost : (∃ e b', (s.wrapper w arguments r).run (w.bench cb 0 []) = (.raised (.report e), b')) →
      ¬ Carried s w cb' arguments k ((s.wrapper w arguments r).run (w.bench cb 0 [])) := by
    rintro ⟨e, b', he⟩ hcarried
    have hend := hcarried.ends
    rw [he] at hend
    exact ends_ne_report k e hend.symm
  rw [← reported_iff hends]
  by_cases hreported : Reported s w r (s.retry.run (attempts w) w.draw)
  · have hloop : LoopRuns s w r cb' arguments (s.retry.maxAttempts - 1) 0 [] :=
      run_loop _ 0 [] hreported
    dsimp only [LoopRuns] at hloop
    rw [← RetryPolicy.run.eq_def] at hloop
    have hinvocations : 0 + (s.retry.run (attempts w) w.draw).invocations = k := by
      have := hends.invocations
      omega
    rw [hends.result, endsOf_resultOf, hinvocations, List.nil_append] at hloop
    have hguarded := run_guarded hadmitted hloop (ends_ne_cancelled k)
    by_cases hend : EndAnswers s w r k (w.ends k)
    · exact iff_of_true (carried_of_answer hk hends (run_wrapper hguarded hend)) ⟨hreported, hend⟩
    · exact iff_of_false (hlost (run_wrapper_of_not_answers hguarded hend)) fun h => hend h.2
  · refine iff_of_false (hlost ?_) fun h => hreported h.1
    have hlost : ∃ e b', (s.runWithRetry w arguments r).run (w.bench cb' 0 [])
        = (.raised (.report e), b') := run_loop_of_not_reported _ 0 [] hreported
    obtain ⟨e, b', hloop⟩ := hlost
    exact run_wrapper_of_report (run_guarded hadmitted hloop (by simp))

/-- A decorated call whose delays are computed, from its beginning to its end: an admitted call
makes its attempts up to the last one, and a rejected call only reports the rejection. It is so
exactly when every event that the outcomes call for can be reported. -/
theorem wrapper_endToEnd (s : ReliableSettings ε) (w : Surroundings ε τ α) (r : Reporting ε τ)
    (cb : CircuitBreaker) (arguments : κ)
    (hdelay : ∀ n, 1 ≤ n → n < s.retry.maxAttempts →
      ∃ delay, s.retry.backoff.computeDelay n (w.draw n) = .ok delay) :
    ((∀ cb', s.admission (w.monotonic 0) cb = .ok cb' → ∃ k, IsLast s w k ∧
        Carried s w cb' arguments k ((s.wrapper w arguments r).run (w.bench cb 0 []))) ∧
      (∀ e, s.admission (w.monotonic 0) cb = .error e →
        (s.wrapper w arguments r).run (w.bench cb 0 []) = (.raised (.circuitOpen e),
          w.bench cb 0 (s.told (s.operationFailed w (.circuitOpen e) 0))))) ↔
      AllAnswer s w r cb := by
  constructor
  · rintro ⟨hcarried, hrejected⟩
    constructor
    · intro e hreject
      by_contra hnot
      have hlost : ∃ err b', (s.wrapper w arguments r).run (w.bench cb 0 [])
          = (.raised (.report err), b') :=
        run_wrapper_of_not_answers (run_guarded_of_rejected hreject) hnot
      obtain ⟨err, b', herr⟩ := hlost
      have hrun := hrejected e hreject
      rw [herr] at hrun
      cases hrun
    · intro cb' k hadmitted hlast
      obtain ⟨j, hj, hcarries⟩ := hcarried cb' hadmitted
      obtain ⟨j', hj', hiff⟩ := carried_iff r arguments hadmitted hdelay
      obtain rfl := hlast.unique hj
      obtain rfl := hlast.unique hj'
      exact hiff.mp hcarries
  · intro hall
    refine ⟨fun cb' hadmitted => ?_, fun e hreject =>
      run_wrapper_of_rejected hreject (hall.rejected e hreject)⟩
    obtain ⟨k, hk, hiff⟩ := carried_iff r arguments hadmitted hdelay
    exact ⟨k, hk, hiff.mpr (hall.admitted cb' k hadmitted hk)⟩

/-- An upload, with four attempts behind a breaker. -/
def uploading : ReliableSettings String where
  opName := "upload"
  component := "resilience"
  hasEvents := true
  retry := ⟨4, ⟨.exponential, 2, 200, false, by norm_num, by norm_num⟩, fun _ => true, by norm_num⟩
  breaker := some ⟨4, 30, "uploads", false, by norm_num, by norm_num⟩
  no_store := by simp

/-- The uploads up to number `lost` are lost, and the others return. -/
def losing (draw : Draw) (lost : Nat) : Surroundings String Nat Nat where
  outcome := fun n => if n ≤ lost then .error "lost" else .ok 7
  monotonic := fun n => n
  wallclock := fun n => n
  others := fun _ cb => cb
  draw := fun _ => draw
  now := fun n => n
  str := fun _ => "lost"

theorem uploading_delays (draw : Draw) (lost n : Nat) (hn : 1 ≤ n)
    (hlt : n < uploading.retry.maxAttempts) :
    ∃ delay, uploading.retry.backoff.computeDelay n ((losing draw lost).draw n) = .ok delay := by
  have hfits : n ≤ 4 := le_of_lt hlt
  obtain ⟨delay, hdelay, -⟩ :=
    uploading.retry.backoff.computeDelay_of_fits (Or.inr (by omega)) hn draw
  exact ⟨delay, hdelay⟩

/-- The first upload is lost, and the second one returns. -/
theorem wrapper_endToEnd_secondAttempt :
    ∃ draw : Draw, (∀ n, 1 ≤ n → n < uploading.retry.maxAttempts →
      ∃ delay, uploading.retry.backoff.computeDelay n ((losing draw 1).draw n) = .ok delay) ∧
    ∃ k, IsLast uploading (losing draw 1) k ∧ Carried uploading (losing draw 1) .fresh "report" k
      ((uploading.wrapper (losing draw 1) "report").run ((losing draw 1).bench .fresh 0 [])) := by
  let draw : Draw := ⟨0, by norm_num, by norm_num⟩
  have hall : AllAnswer uploading (losing draw 1) {} .fresh :=
    ⟨fun _ _ => answers_default _ _, fun _ _ _ _ =>
      ⟨fun _ _ _ _ _ _ _ => answers_default _ _, endAnswers_default _ _⟩⟩
  exact ⟨draw, uploading_delays draw 1, ((wrapper_endToEnd uploading (losing draw 1) {} .fresh
    "report" (uploading_delays draw 1)).mpr hall).1 .fresh rfl⟩

/-- The upload returns at once, and the caller gets the `TypeError` of a handler. -/
theorem handler_replaces_result :
    ¬ ∀ (s : ReliableSettings String) (w : Surroundings String Nat Nat) (r : Reporting String Nat)
      (cb : CircuitBreaker) (arguments : String),
      (∀ n, 1 ≤ n → n < s.retry.maxAttempts →
        ∃ delay, s.retry.backoff.computeDelay n (w.draw n) = .ok delay) →
      ∀ cb', s.admission (w.monotonic 0) cb = .ok cb' → ∃ k, IsLast s w k ∧
        Carried s w cb' arguments k ((s.wrapper w arguments r).run (w.bench cb 0 [])) := by
  intro h
  let draw : Draw := ⟨0, by norm_num, by norm_num⟩
  obtain ⟨k, -, hcarried⟩ := h uploading (losing draw 0) { audience := fun _ => Core.uncallable }
    .fresh "report" (uploading_delays draw 0) .fresh rfl
  have hrun : ((uploading.wrapper (losing draw 0) "report"
      { audience := fun _ => Core.uncallable }).run ((losing draw 0).bench .fresh 0 [])).1
      = .raised (.report (.publish (.handler "takes 0 arguments"))) := rfl
  exact ends_ne_report k _ (hcarried.ends.symm.trans hrun)

end

end EdgeSentinel.Proofs.Resilience
