import EdgeSentinel.Resilience.SharedStore

/-!
# `EdgeSentinel.Proofs.Resilience.SharedStore`: one name, one breaker

A breaker is undisturbed when every run of the application is, seen from the breaker, a run of that
breaker alone on a store of its own. `undisturbed_iff_name` says when: it has no store, or no other
breaker with a store has its name. The runs are those of `Breakers.step`: one call at a time of each
breaker, in any interleaving with the others, and no save or load that fails.

In the one direction, what the breaker alone would find in its store is what the table has for its
name (`RanAlone.stored`). In the other direction, one failure of the other breaker and a restart are
enough.
-/

set_option autoImplicit false

namespace EdgeSentinel.Proofs.Resilience

open EdgeSentinel.Persistence
open EdgeSentinel.Resilience
open EdgeSentinel.Resilience.CircuitBreaker (fresh)

variable {ι : Type} [DecidableEq ι] {cfg : ι → Settings} {i : ι}

/-- Every run of the breakers is a run of the breaker `i` alone. -/
def Undisturbed (cfg : ι → Settings) (i : ι) : Prop :=
  ∀ (monotonic wallclock : ℚ) (es : List (BreakersEvent ι)) (s : Breakers ι),
    Run.exec (Breakers.step cfg) (.start monotonic wallclock) es = some s →
      Run.exec (Life.step (cfg i)) (.start monotonic wallclock) (es.filterMap (Breakers.seenBy i))
        = some (s.systems i)

/-- No other breaker saves under the name of `i`. -/
def NameOfItsOwn (cfg : ι → Settings) (i : ι) : Prop :=
  (cfg i).hasStore = true → ∀ j, j ≠ i → (cfg j).hasStore = true → (cfg j).name ≠ (cfg i).name

/-! ### One breaker -/

/-- Only a save changes the store. -/
theorem stored_next (c : Settings) (s : System) {e : LifeEvent} (hown : e.isOwn = true)
    (hsaved : e ≠ .saved) : (Life.next c s e).stored = s.stored := by
  cases e with
  | arrive id =>
    show (s.next c (.arrive id)).stored = s.stored
    rcases System.arrive_cases c s id with hn | ⟨-, hn⟩ | ⟨-, -, hn⟩ | ⟨-, -, hn⟩ <;> rw [hn]
  | finish call r => rfl
  | cancel call => rfl
  | saved => exact absurd rfl hsaved
  | elapse d => cases hown
  | restart downtime monotonic => cases hown

/-- A breaker without a store does not save. -/
theorem saving_next {c : Settings} {s : System} (hstore : c.hasStore = false)
    (h : s.saving = none) {e : LifeEvent} (hown : e.isOwn = true) :
    (Life.next c s e).saving = none := by
  cases e with
  | arrive id =>
    show (s.next c (.arrive id)).saving = none
    rcases System.arrive_cases c s id with hn | ⟨-, hn⟩ | ⟨-, -, hn⟩ | ⟨-, -, hn⟩ <;> rw [hn] <;>
      exact h
  | finish call r => exact if_neg (by simp [hstore])
  | cancel call =>
    show (if s.saving = some call then none else s.saving) = none
    rw [h, if_neg (by simp)]
  | saved => rfl
  | elapse d => cases hown
  | restart downtime monotonic => cases hown

/-! ### The breaker among the others -/

/-- The breaker `i` has run alone with the events so far. -/
structure RanAlone (cfg : ι → Settings) (i : ι) (first : System) (past : List (BreakersEvent ι))
    (s : Breakers ι) : Prop where
  run : Run.exec (Life.step (cfg i)) first (past.filterMap (Breakers.seenBy i))
    = some (s.systems i)
  stored : (s.systems i).stored = Breakers.loaded (cfg i) s.table
  /-- A breaker without a store saves nothing. -/
  saving : ∀ j, (cfg j).hasStore = false → (s.systems j).saving = none

namespace RanAlone

variable {first : System} {past : List (BreakersEvent ι)} {s : Breakers ι}

/-- An event that the breaker sees. -/
theorem seen (h : RanAlone cfg i first past s) {e : BreakersEvent ι} {e' : LifeEvent}
    (hseen : Breakers.seenBy i e = some e') (hen : Life.Enabled (s.systems i) e')
    {system : System} (hnext : system = Life.next (cfg i) (s.systems i) e') :
    Run.exec (Life.step (cfg i)) first ((past ++ [e]).filterMap (Breakers.seenBy i))
      = some system := by
  have hlast : [e].filterMap (Breakers.seenBy i) = [e'] := by simp [hseen]
  rw [List.filterMap_append, hlast]
  exact Run.exec_snoc h.run (Run.guarded_eq_some.mpr ⟨hen, hnext.symm⟩)

theorem step (h : RanAlone cfg i first past s) (hname : NameOfItsOwn cfg i) {e : BreakersEvent ι}
    {s' : Breakers ι} (hstep : Breakers.step cfg s e = some s') :
    RanAlone cfg i first (past ++ [e]) s' := by
  obtain ⟨hen, rfl⟩ := Run.guarded_eq_some.mp hstep
  cases e with
  | elapse d =>
    have hpassed : Life.Enabled (s.systems i) (.elapse d) := hen
    exact ⟨h.seen rfl hpassed rfl, h.stored, h.saving⟩
  | own j e =>
    obtain ⟨hown, hen⟩ := hen
    have hsaving : ∀ k, (cfg k).hasStore = false →
        ((Breakers.next cfg s (.own j e)).systems k).saving = none := by
      intro k hstore
      by_cases hk : k = j
      · subst hk
        rw [Breakers.systems_own_self]
        exact saving_next hstore (h.saving k hstore) hown
      · rw [Breakers.systems_own_of_ne s hk]
        exact h.saving k hstore
    -- Only a breaker with a store comes to a save.
    have hstores : e = .saved → (cfg j).hasStore = true := by
      rintro rfl
      by_contra hstore
      exact hen (h.saving j (by simpa using hstore))
    by_cases hj : j = i
    · subst hj
      have hseen : Breakers.seenBy j (.own j e) = some e := if_pos rfl
      refine ⟨h.seen hseen hen (Breakers.systems_own_self s j e), ?_, hsaving⟩
      rw [Breakers.systems_own_self]
      by_cases hsaved : e = .saved
      · subst hsaved
        have hloaded := loadCircuitBreakerState_save_self (cfg j).name
          (Life.next (cfg j) (s.systems j) .saved).breaker.record s.table
        simp only [Breakers.loaded, Breakers.next, hstores rfl, if_true, hloaded]
        rfl
      · rw [stored_next _ _ hown hsaved, h.stored]
        simp only [Breakers.next, if_neg hsaved]
    · have hunseen : [BreakersEvent.own j e].filterMap (Breakers.seenBy i) = [] := by
        simp [Breakers.seenBy, hj]
      refine ⟨?_, ?_, hsaving⟩
      · rw [List.filterMap_append, hunseen, List.append_nil,
          Breakers.systems_own_of_ne s (Ne.symm hj)]
        exact h.run
      · rw [Breakers.systems_own_of_ne s (Ne.symm hj), h.stored]
        by_cases hsaved : e = .saved
        · simp only [Breakers.loaded, Breakers.next, if_pos hsaved]
          split
          · rename_i hstore
            rw [loadCircuitBreakerState_save_of_ne (hname hstore j hj (hstores hsaved))]
          · rfl
        · simp only [Breakers.next, if_neg hsaved]
  | restart downtime monotonic =>
    have hdown : Life.Enabled (s.systems i) (.restart downtime monotonic) := hen
    refine ⟨h.seen rfl hdown ?_, rfl, fun _ _ => rfl⟩
    show Life.restarted (cfg i) { s.systems i with stored := _ } downtime monotonic = _
    rw [← h.stored]
    rfl

end RanAlone

theorem undisturbed_of_name (hname : NameOfItsOwn cfg i) : Undisturbed cfg i := by
  intro monotonic wallclock es s hrun
  have hinv : RanAlone cfg i (.start monotonic wallclock) es s := by
    refine Run.exec_history_of_step (RanAlone cfg i (.start monotonic wallclock))
      (fun past s e s' h => h.step hname) ⟨rfl, ?_, fun _ _ => rfl⟩ hrun
    show none = Breakers.loaded (cfg i) []
    unfold Breakers.loaded
    split <;> rfl
  exact hinv.run

/-! ### Another breaker with the same name -/

/-- A breaker restores the count that it loads. -/
theorem failureCount_restore {c : Settings} (hstore : c.hasStore = true) (monotonic wallclock : ℚ)
    (record : BreakerRecord) (cb : CircuitBreaker) :
    (cb.restore c monotonic wallclock (some record)).failureCount = record.failureCount := by
  obtain ⟨state, failureCount, openedAt⟩ := record
  unfold CircuitBreaker.restore
  cases state <;> cases openedAt <;> simp [hstore]
  split <;> rfl

/-- A breaker with the same name fails once, and the process restarts. -/
def failsOnce (j : ι) : List (BreakersEvent ι) :=
  [.own j (.arrive 0), .own j (.finish ⟨0, false⟩ .failure), .own j .saved, .restart 0 0]

/-- A new breaker after one failed call, whose outcome is being saved. -/
def failedOnce (c : Settings) : System :=
  ((System.start 0 0).next c (.arrive 0)).next c (.finish ⟨0, false⟩ .failure)

theorem failureCount_failedOnce (c : Settings) : (failedOnce c).breaker.failureCount = 1 := by
  show (fresh.onFailure c 0 0).failureCount = 1
  unfold CircuitBreaker.onFailure
  split <;> rfl

/-- The breaker `i` comes back with the failure of `j`. -/
theorem restored_of_failsOnce {j : ι} (hstore : (cfg i).hasStore = true)
    (hstore' : (cfg j).hasStore = true) (hname : (cfg j).name = (cfg i).name) :
    ∃ s, Run.exec (Breakers.step cfg) (.start 0 0) (failsOnce j) = some s ∧
      (s.systems i).breaker.failureCount = 1 := by
  let s₁ := Breakers.next cfg (.start 0 0) (.own j (.arrive 0))
  let s₂ := Breakers.next cfg s₁ (.own j (.finish ⟨0, false⟩ .failure))
  let s₃ := Breakers.next cfg s₂ (.own j .saved)
  have hs₁ : s₁.systems j = (System.start 0 0).next (cfg j) (.arrive 0) :=
    Breakers.systems_own_self _ j _
  have hs₂ : s₂.systems j = failedOnce (cfg j) := by
    rw [Breakers.systems_own_self, hs₁]
    rfl
  have hfirst : Breakers.step cfg (.start 0 0) (.own j (.arrive 0)) = some s₁ :=
    Run.guarded_eq_some.mpr ⟨⟨rfl, rfl, rfl⟩, rfl⟩
  have hsecond : Breakers.step cfg s₁ (.own j (.finish ⟨0, false⟩ .failure)) = some s₂ := by
    refine Run.guarded_eq_some.mpr ⟨⟨rfl, ?_⟩, rfl⟩
    rw [hs₁]
    exact ⟨rfl, List.mem_cons_self⟩
  have hthird : Breakers.step cfg s₂ (.own j .saved) = some s₃ := by
    refine Run.guarded_eq_some.mpr ⟨⟨rfl, ?_⟩, rfl⟩
    rw [hs₂]
    show (if (cfg j).hasStore then some _ else none) ≠ none
    rw [if_pos hstore']
    simp
  have hfourth : Breakers.step cfg s₃ (.restart 0 0)
      = some (Breakers.next cfg s₃ (.restart 0 0)) :=
    Run.guarded_eq_some.mpr ⟨le_refl (0 : ℚ), rfl⟩
  refine ⟨Breakers.next cfg s₃ (.restart 0 0), ?_, ?_⟩
  · rw [failsOnce, Run.exec_cons, hfirst, Option.bind_some, Run.exec_cons, hsecond,
      Option.bind_some, Run.exec_cons, hthird, Option.bind_some]
    exact Run.exec_singleton hfourth
  · have htable : Breakers.loaded (cfg i) s₃.table = some (failedOnce (cfg j)).breaker.record := by
      have hsaved : s₃.table = saveCircuitBreakerState (cfg i).name
          (failedOnce (cfg j)).breaker.record [] := by
        rw [← hname, ← hs₂]
        rfl
      rw [Breakers.loaded, if_pos hstore, hsaved, loadCircuitBreakerState_save_self]
    show (fresh.restore (cfg i) 0 _ (Breakers.loaded (cfg i) s₃.table)).failureCount = 1
    rw [htable, failureCount_restore hstore]
    exact failureCount_failedOnce (cfg j)

theorem disturbed_of_name {j : ι} (hj : j ≠ i) (hstore : (cfg i).hasStore = true)
    (hstore' : (cfg j).hasStore = true) (hname : (cfg j).name = (cfg i).name) :
    ¬ Undisturbed cfg i := by
  intro hundisturbed
  obtain ⟨s, hrun, hcount⟩ := restored_of_failsOnce hstore hstore' hname
  have hseen : (failsOnce j).filterMap (Breakers.seenBy i) = [.restart 0 0] := by
    simp [failsOnce, Breakers.seenBy, hj]
  have halone := hundisturbed 0 0 (failsOnce j) s hrun
  rw [hseen] at halone
  have hrestart : Run.exec (Life.step (cfg i)) (.start 0 0) [.restart 0 0]
      = some (Life.restarted (cfg i) (.start 0 0) 0 0) :=
    Run.exec_singleton (Run.guarded_eq_some.mpr ⟨le_refl (0 : ℚ), rfl⟩)
  rw [hrestart] at halone
  -- Alone, the breaker comes back without a failure.
  rw [← Option.some.inj halone] at hcount
  have hfresh : (Life.restarted (cfg i) (.start 0 0) 0 0).breaker.failureCount = 0 := by
    show (fresh.restore (cfg i) 0 (0 + 0) none).failureCount = 0
    simp [CircuitBreaker.restore, hstore, fresh]
  omega

/-- The runs of an application, in which a breaker has one call at a time and no save or load fails,
are runs of a breaker alone exactly when the breaker has no store, or no other breaker with a store
has its name. -/
theorem undisturbed_iff_name (cfg : ι → Settings) (i : ι) :
    Undisturbed cfg i ↔ NameOfItsOwn cfg i := by
  refine ⟨fun hundisturbed hstore j hj hstore' hname => ?_, undisturbed_of_name⟩
  exact disturbed_of_name hj hstore hstore' hname hundisturbed

end EdgeSentinel.Proofs.Resilience
