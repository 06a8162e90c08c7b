import EdgeSentinel.Monitoring.Checks
import EdgeSentinel.Proofs.Core.Publication
import Mathlib.Data.List.Forall2

/-!
# `EdgeSentinel.Proofs.Monitoring.Episodes`: episodes of low and high readings

`Check` lists what one check can do, by its readings alone: the number of actions that it runs and
the events that it publishes. `reports_check` says that `check_once` does it, after any earlier checks,
or raises at a publication whose handlers do not return awaitables. `check_episodes` is about all
checks of a storage or a metrics monitor: their events are episodes exactly when each publication
that the readings call for is answered. A handler that raises when it is called keeps the cleanup
from running (`handler_prevents_cleanup`).

`finishes_checkOnce` is the bridge to the parts of `Monitors.lean`: run one after the other, they
leave what `checkOnce` leaves.
-/

set_option autoImplicit false

namespace EdgeSentinel.Proofs.Monitoring

open EdgeSentinel.Core
open EdgeSentinel.Monitoring
open EdgeSentinel.Monitoring.Checked

variable {σ τ : Type} {p : PressureMonitor σ τ} {env : Surroundings σ τ} {hooks : Hooks}

/-! ### The actions -/

/-- Of `n` actions the first `m` are the shortest prefix after which the reading is not low, or all
of them if there is none. `first` is the reading before the actions. -/
structure ShortestPrefix (p : PressureMonitor σ τ) (env : Surroundings σ τ) (first n m : ℕ) :
    Prop where
  le : m ≤ n
  pressed : ∀ j < m, p.isPressed (env.reading (first + j)) = true
  relieved : m < n → p.isPressed (env.reading (first + m)) = false

/-- The reading at an index, and its predicate. -/
def gaugeAt (p : PressureMonitor σ τ) (env : Surroundings σ τ) (i : ℕ) : Gauge σ :=
  ⟨some (env.reading i), p.isPressed (env.reading i)⟩

/-- What the loop over the actions leaves. -/
structure Acted (p : PressureMonitor σ τ) (env : Surroundings σ τ) (first m : ℕ) (ks : List ℕ)
    (s s' : Checked σ τ) : Prop where
  prefix_m : ShortestPrefix p env first ks.length m
  reads : s'.reads = first + m + 1
  gauge : s'.gauge = gaugeAt p env (first + m)
  ran : s'.ran.map Prod.fst = s.ran.map Prod.fst ++ ks.take m
  announced : s'.announced = s.announced
  published : s'.published = s.published

/-- The loop. The induction is on the actions; each of them shifts the first reading by one. -/
theorem runActions_acted (ks : List ℕ) : ∀ (s : Checked σ τ) (first : ℕ), s.reads = first + 1 →
    s.gauge = gaugeAt p env first → ∃ m, Acted p env first m ks s (s.runActions p env ks) := by
  induction ks with
  | nil =>
    intro s first hreads hgauge
    exact ⟨0, ⟨le_refl 0, nofun, nofun⟩, hreads, hgauge, (List.append_nil _).symm, rfl, rfl⟩
  | cons k ks ih =>
    intro s first hreads hgauge
    rw [runActions]
    cases hpressed : s.gauge.pressed with
    | false =>
      refine ⟨0, ⟨Nat.zero_le _, nofun, fun _ => ?_⟩, hreads, hgauge, (List.append_nil _).symm, rfl,
        rfl⟩
      rw [hgauge] at hpressed
      exact hpressed
    | true =>
      -- After the action the loop goes on with the next reading.
      obtain ⟨m, hm⟩ := ih ((s.act env k).read p env) (first + 1) (by rw [← hreads]; rfl)
        (by rw [← hreads]; rfl)
      have hshift : first + 1 + m = first + (m + 1) := by omega
      refine ⟨m + 1, ⟨Nat.succ_le_succ hm.prefix_m.le, ?_, ?_⟩, ?_, ?_, ?_, hm.announced,
        hm.published⟩
      · intro j hj
        cases j with
        | zero =>
          rw [hgauge] at hpressed
          exact hpressed
        | succ j =>
          have hnext := hm.prefix_m.pressed j (by omega)
          have hj : first + 1 + j = first + (j + 1) := by omega
          rwa [hj] at hnext
      · intro hlt
        rw [← hshift]
        exact hm.prefix_m.relieved (Nat.lt_of_succ_lt_succ hlt)
      · rw [← hshift]
        exact hm.reads
      · rw [← hshift]
        exact hm.gauge
      · have hran := hm.ran
        simp only [Checked.read, act, List.map_append, List.map_cons, List.map_nil,
          List.append_assoc] at hran
        exact hran

/-! ### One check -/

/-- A report on the bus. -/
inductive Report where
  | pressed
  | recovered
  | exhausted
  deriving DecidableEq, Repr

/-- The event of a report. -/
def Report.event (p : PressureMonitor σ τ) : Report → τ → σ → Event τ
  | pressed => p.onPressed
  | recovered => p.onRecovered
  | exhausted => p.onExhausted

/-- The event is a report, about a reading. -/
def Reported (p : PressureMonitor σ τ) (report : Report × σ) (e : Event τ) : Prop :=
  ∃ now, e = report.1.event p now report.2

/-- What a check does, by its readings from `first` on and by the end `was` of the check before it:
how many actions run, and the reports. -/
inductive Check (p : PressureMonitor σ τ) (env : Surroundings σ τ) (was : Bool) (first : ℕ) :
    ℕ → List (Report × σ) → Prop where
  | steady (h : p.isPressed (env.reading first) = was) : Check p env was first 0 []
  | recovered (hwas : was = true) (h : p.isPressed (env.reading first) = false) :
      Check p env was first 0 [(.recovered, env.reading first)]
  | relieved (hwas : was = false) (hfirst : p.isPressed (env.reading first) = true) (m : ℕ)
      (hm : ShortestPrefix p env first p.actions m)
      (h : p.isPressed (env.reading (first + m)) = false) :
      Check p env was first m
        [(.pressed, env.reading first), (.recovered, env.reading (first + m))]
  | exhausted (hwas : was = false) (hactions : 0 < p.actions)
      (h : ∀ j ≤ p.actions, p.isPressed (env.reading (first + j)) = true) :
      Check p env was first p.actions
        [(.pressed, env.reading first), (.exhausted, env.reading (first + p.actions))]
  | observed (hwas : was = false) (hactions : p.actions = 0)
      (h : p.isPressed (env.reading first) = true) :
      Check p env was first 0 [(.pressed, env.reading first)]

/-- Only one number of actions is the shortest prefix. -/
theorem ShortestPrefix.le_of_relieved {first n m m' : ℕ} (h : ShortestPrefix p env first n m')
    (hrelieved : p.isPressed (env.reading (first + m)) = false) : m' ≤ m := by
  by_contra hlt
  have hpressed := h.pressed m (Nat.lt_of_not_le hlt)
  rw [hrelieved] at hpressed
  cases hpressed

/-- The readings decide what a check does. -/
theorem Check.unique {was : Bool} {first m m' : ℕ} {reports reports' : List (Report × σ)}
    (h : Check p env was first m reports) (h' : Check p env was first m' reports') :
    m = m' ∧ reports = reports' := by
  -- Whether the monitor was low, whether it is at first, and whether the actions help.
  cases h with
  | steady hsteady =>
    cases h' with
    | steady _ => exact ⟨rfl, rfl⟩
    | recovered hwas hfirst => simp [hwas, hfirst] at hsteady
    | relieved hwas hfirst => simp [hwas, hfirst] at hsteady
    | exhausted hwas _ hall =>
      have hfirst : p.isPressed (env.reading first) = true := hall 0 (Nat.zero_le _)
      simp [hwas, hfirst] at hsteady
    | observed hwas _ hfirst => simp [hwas, hfirst] at hsteady
  | recovered hwas hfirst =>
    cases h' with
    | steady hsteady => simp [hwas, hfirst] at hsteady
    | recovered _ _ => exact ⟨rfl, rfl⟩
    | relieved hwas' => simp [hwas] at hwas'
    | exhausted hwas' => simp [hwas] at hwas'
    | observed hwas' => simp [hwas] at hwas'
  | relieved hwas hfirst m hm hrelieved =>
    cases h' with
    | steady hsteady => simp [hwas, hfirst] at hsteady
    | recovered hwas' => simp [hwas] at hwas'
    | relieved _ _ m' hm' hrelieved' =>
      obtain rfl : m = m' :=
        Nat.le_antisymm (hm.le_of_relieved hrelieved') (hm'.le_of_relieved hrelieved)
      exact ⟨rfl, rfl⟩
    | exhausted _ _ hall => simp [hall m hm.le] at hrelieved
    | observed _ hactions hpressed =>
      obtain rfl : m = 0 := Nat.le_zero.mp (hactions ▸ hm.le)
      simp [hpressed] at hrelieved
  | exhausted hwas hactions hall =>
    cases h' with
    | steady hsteady =>
      have hfirst : p.isPressed (env.reading first) = true := hall 0 (Nat.zero_le _)
      simp [hwas, hfirst] at hsteady
    | recovered hwas' => simp [hwas] at hwas'
    | relieved _ _ m' hm' hrelieved => simp [hall m' hm'.le] at hrelieved
    | exhausted _ _ _ => exact ⟨rfl, rfl⟩
    | observed _ hnone => omega
  | observed hwas hnone hfirst =>
    cases h' with
    | steady hsteady => simp [hwas, hfirst] at hsteady
    | recovered hwas' => simp [hwas] at hwas'
    | relieved _ _ m' hm' hrelieved =>
      obtain rfl : m' = 0 := Nat.le_zero.mp (hnone ▸ hm'.le)
      simp [hfirst] at hrelieved
    | exhausted _ hactions => omega
    | observed _ _ _ => exact ⟨rfl, rfl⟩

/-- The events that `s'` has and `s` has not are the reports, in order. Without a bus there are
none. -/
def Tells (p : PressureMonitor σ τ) (hooks : Hooks) (reports : List (Report × σ))
    (s s' : Checked σ τ) : Prop :=
  ∃ events, s'.published = s.published ++ events ∧
    if hooks.events then List.Forall₂ (Reported p) reports events else events = []

namespace Tells

variable {s s' s'' : Checked σ τ} {reports reports' : List (Report × σ)}

theorem nothing (h : s'.published = s.published) : Tells p hooks [] s s' := by
  refine ⟨[], by rw [h, List.append_nil], ?_⟩
  split
  · exact List.Forall₂.nil
  · rfl

theorem append (h : Tells p hooks reports s s') (h' : Tells p hooks reports' s' s'') :
    Tells p hooks (reports ++ reports') s s'' := by
  obtain ⟨events, hevents, hreports⟩ := h
  obtain ⟨events', hevents', hreports'⟩ := h'
  refine ⟨events ++ events', by rw [hevents', hevents, List.append_assoc], ?_⟩
  split
  · rename_i hon
    rw [if_pos hon] at hreports hreports'
    exact List.rel_append hreports hreports'
  · rename_i hoff
    rw [if_neg hoff] at hreports hreports'
    rw [hreports, hreports']
    rfl

end Tells

/-- The publications of `k` reports from the index `start` on meet handlers that return
awaitables. -/
def Answered (env : Surroundings σ τ) (hooks : Hooks) (start k : ℕ) : Prop :=
  hooks.events = true → ∀ n < k, (env.audience (start + n)).Awaitables

/-- The number of publications for `k` reports. -/
def publications (hooks : Hooks) (k : ℕ) : ℕ := if hooks.events then k else 0

/-- A piece of a check that owes `reports`: it has made them all and left the monitor with `P`, or
it has raised at one of them. -/
inductive Reports (p : PressureMonitor σ τ) (env : Surroundings σ τ) (hooks : Hooks)
    (reports : List (Report × σ)) (s : Checked σ τ) (P : Checked σ τ → Prop) :
    Except (RaisedCheck σ τ) (Checked σ τ) → Prop where
  | all (s' : Checked σ τ) (post : P s') (tells : Tells p hooks reports s s')
      (announced : s'.announced = s.announced + publications hooks reports.length)
      (answered : Answered env hooks s.announced reports.length) : Reports p env hooks reports s P (.ok s')
  | raised (r : RaisedCheck σ τ) (unanswered : ¬ Answered env hooks s.announced reports.length) :
      Reports p env hooks reports s P (.error r)

theorem answered_zero (start : ℕ) : Answered env hooks start 0 :=
  fun _ n hn => absurd hn (Nat.not_lt_zero n)

/-- The publications of more reports. -/
theorem answered_add {start k k' : ℕ} : Answered env hooks start (k + k') ↔
    Answered env hooks start k ∧ Answered env hooks (start + publications hooks k) k' := by
  unfold Answered publications
  constructor
  · intro h
    refine ⟨fun hon n hn => h hon n (by omega), fun hon n hn => ?_⟩
    rw [if_pos hon, Nat.add_assoc]
    exact h hon (k + n) (by omega)
  · rintro ⟨h, h'⟩ hon n hn
    rcases Nat.lt_or_ge n k with hlt | hge
    · exact h hon n hlt
    · have hnext := h' hon (n - k) (by omega)
      rwa [if_pos hon, Nat.add_assoc, Nat.add_sub_cancel' hge] at hnext

namespace Reports

variable {s : Checked σ τ} {reports reports' : List (Report × σ)} {P Q : Checked σ τ → Prop}
  {x : Except (RaisedCheck σ τ) (Checked σ τ)}

/-- Nothing is owed. -/
theorem nothing {s' : Checked σ τ} (post : P s') (published : s'.published = s.published)
    (announced : s'.announced = s.announced) : Reports p env hooks [] s P (.ok s') :=
  .all s' post (.nothing published) (by simp [announced, publications]) (answered_zero _)

theorem imp (h : Reports p env hooks reports s P x) (hpost : ∀ s', P s' → Q s') :
    Reports p env hooks reports s Q x := by
  cases h with
  | all s' post tells announced answered => exact .all s' (hpost s' post) tells announced answered
  | raised r unanswered => exact .raised r unanswered

/-- One piece after the other. -/
theorem bind (h : Reports p env hooks reports s P x)
    {f : Checked σ τ → Except (RaisedCheck σ τ) (Checked σ τ)}
    (hf : ∀ s', P s' → s'.announced = s.announced + publications hooks reports.length →
      Reports p env hooks reports' s' Q (f s')) :
    Reports p env hooks (reports ++ reports') s Q (x >>= f) := by
  cases h with
  | all s' post tells announced answered =>
    have hnext := hf s' post announced
    show Reports p env hooks (reports ++ reports') s Q (f s')
    generalize f s' = y at hnext
    cases hnext with
    | all s'' post' tells' announced' answered' =>
      refine .all s'' post' (tells.append tells') ?_ ?_
      · rw [announced', announced, List.length_append]
        unfold publications
        split <;> omega
      · rw [List.length_append, answered_add, ← announced]
        exact ⟨answered, answered'⟩
    | raised r unanswered =>
      refine .raised r fun hanswered => unanswered ?_
      rw [List.length_append, answered_add, ← announced] at hanswered
      exact hanswered.2
  | raised r unanswered =>
    refine .raised r fun hanswered => unanswered ?_
    rw [List.length_append, answered_add] at hanswered
    exact hanswered.1

/-- What is done before the first report is kept. -/
theorem from_eq {s₀ : Checked σ τ} (h : Reports p env hooks reports s P x)
    (published : s.published = s₀.published) (announced : s.announced = s₀.announced) :
    Reports p env hooks reports s₀ P x := by
  cases h with
  | all s' post tells hannounced answered =>
    rw [announced] at hannounced answered
    refine .all s' post ?_ hannounced answered
    obtain ⟨events, hevents, hreports⟩ := tells
    exact ⟨events, published ▸ hevents, hreports⟩
  | raised r unanswered => exact .raised r (announced ▸ unanswered)

end Reports

/-- The readings, the actions and the attributes are the same. -/
structure Kept (s s' : Checked σ τ) : Prop where
  gauge : s'.gauge = s.gauge
  reads : s'.reads = s.reads
  ran : s'.ran = s.ran

section
variable (s : Checked σ τ) {s₀ : Checked σ τ} {status : σ}

theorem kept_apply (h : Kept s₀ s) (target : RuntimeState) : Kept s₀ (s.apply hooks target) := by
  unfold Checked.apply
  split
  · exact ⟨h.gauge, h.reads, h.ran⟩
  · exact h

theorem kept_escalate (h : Kept s₀ s) : Kept s₀ (s.escalate hooks) := by
  unfold Checked.escalate
  split
  · exact ⟨h.gauge, h.reads, h.ran⟩
  · exact h

theorem told_apply {P : Checked σ τ → Prop} {target : RuntimeState} (post : P (s.apply hooks target)) :
    Reports p env hooks [] s P (.ok (s.apply hooks target)) := by
  refine .nothing post ?_ ?_
  · unfold Checked.apply
    split <;> rfl
  · unfold Checked.apply
    split <;> rfl

theorem told_escalate {P : Checked σ τ → Prop} (post : P (s.escalate hooks)) :
    Reports p env hooks [] s P (.ok (s.escalate hooks)) := by
  refine .nothing post ?_ ?_
  · unfold Checked.escalate
    split <;> rfl
  · unfold Checked.escalate
    split <;> rfl

/-- A publication raises exactly when its handlers do not return awaitables. -/
theorem told_publish (report : Report) (h : s.gauge.status = some status) :
    Reports p env hooks [(report, status)] s (Kept s) (s.publish env hooks (report.event p)) := by
  have hanswered (hon : hooks.events = true) :
      Answered env hooks s.announced [(report, status)].length ↔
        (env.audience s.announced).Awaitables :=
    ⟨fun h => h hon 0 Nat.one_pos, fun h _ n hn => by
      obtain rfl : n = 0 := Nat.lt_one_iff.mp hn
      exact h⟩
  simp only [publish, h]
  split
  · rename_i hon
    split
    · rename_i e he
      refine .raised _ fun hall => ?_
      rw [(Core.raised_eq_none_iff _ _).mpr ((hanswered hon).mp hall)] at he
      cases he
    · rename_i hnone
      refine .all _ ⟨rfl, rfl, rfl⟩ ⟨_, rfl, ?_⟩ (by simp [publications, hon])
        ((hanswered hon).mpr ((Core.raised_eq_none_iff _ _).mp hnone))
      rw [if_pos hon]
      exact List.Forall₂.cons ⟨_, rfl⟩ List.Forall₂.nil
  · rename_i hoff
    refine .all _ ⟨rfl, rfl, rfl⟩ ⟨[], (List.append_nil _).symm, by rw [if_neg hoff]⟩
      (by simp [publications, hoff]) fun hon => absurd hon hoff

theorem told_onRecovered (h : s.gauge.status = some status) :
    Reports p env hooks [(.recovered, status)] s (Kept s) (s.onRecovered p env hooks) :=
  (told_publish s .recovered h).bind fun s' hkept _ => told_apply s' (kept_apply s' hkept .healthy)

theorem told_onExhausted (h : s.gauge.status = some status) :
    Reports p env hooks [(.exhausted, status)] s (Kept s) (s.onExhausted p env hooks) :=
  (told_publish s .exhausted h).bind fun s' hkept _ => told_escalate s' (kept_escalate s' hkept)

end

/-- What `check_once` leaves: the readings it took, the actions that ran, the attributes, and its
events. -/
structure Done (p : PressureMonitor σ τ) (env : Surroundings σ τ) (hooks : Hooks) (m : ℕ)
    (reports : List (Report × σ)) (s s' : Checked σ τ) : Prop where
  reads : s'.reads = s.reads + m + 1
  ran : s'.ran.map Prod.fst = s.ran.map Prod.fst ++ List.range m
  gauge : s'.gauge = gaugeAt p env (s.reads + m)
  published : Tells p hooks reports s s'

/-- The readings from `first` on, and the actions between them. -/
structure Settled (p : PressureMonitor σ τ) (env : Surroundings σ τ) (first m : ℕ)
    (s s' : Checked σ τ) : Prop where
  reads : s'.reads = first + m + 1
  ran : s'.ran.map Prod.fst = s.ran.map Prod.fst ++ List.range m
  gauge : s'.gauge = gaugeAt p env (first + m)

theorem Settled.kept {first m : ℕ} {s s₁ s₂ : Checked σ τ} (h : Settled p env first m s s₁)
    (hkept : Kept s₁ s₂) : Settled p env first m s s₂ where
  reads := hkept.reads.trans h.reads
  ran := by rw [hkept.ran, h.ran]
  gauge := hkept.gauge.trans h.gauge

/-- `_on_low`, from the reading at the index `first` on. -/
theorem told_runAndReport (hooks : Hooks) {s : Checked σ τ} {first : ℕ} (hreads : s.reads = first + 1)
    (hgauge : s.gauge = gaugeAt p env first) (hfirst : p.isPressed (env.reading first) = true) :
    ∃ m reports, Check p env false first m ((.pressed, env.reading first) :: reports) ∧
      Reports p env hooks reports s (Settled p env first m s) (s.runAndReport p env hooks) := by
  obtain ⟨m, hm⟩ := runActions_acted (List.range p.actions) s first hreads hgauge
  have hprefix := hm.prefix_m
  rw [List.length_range] at hprefix
  have htake : (List.range p.actions).take m = List.range m := by
    rw [List.take_range, Nat.min_eq_left hprefix.le]
  have hran := hm.ran
  rw [htake] at hran
  unfold runAndReport
  generalize s.runActions p env (List.range p.actions) = s₁ at hm hran
  obtain ⟨-, hreads₁, hgauge₁, -, hannounced, hquiet⟩ := hm
  have hsettled : Settled p env first m s s₁ := ⟨hreads₁, hran, hgauge₁⟩
  have hlast : s₁.gauge.status = some (env.reading (first + m)) := by rw [hgauge₁]; rfl
  dsimp only
  cases hpressed : s₁.gauge.pressed with
  | false =>
    -- The cleanup has helped.
    rw [hgauge₁] at hpressed
    refine ⟨m, [(.recovered, env.reading (first + m))], .relieved rfl hfirst m hprefix hpressed, ?_⟩
    exact ((told_onRecovered s₁ hlast).imp fun _ => hsettled.kept).from_eq hquiet hannounced
  | true =>
    -- It has not, so all the actions have run.
    rw [hgauge₁] at hpressed
    have hall : m = p.actions := by
      rcases Nat.lt_or_eq_of_le hprefix.le with hlt | heq
      · have hrelieved := hprefix.relieved hlt
        rw [show p.isPressed (env.reading (first + m)) = true from hpressed] at hrelieved
        cases hrelieved
      · exact heq
    subst hall
    by_cases hactions : 0 < p.actions
    · refine ⟨p.actions, [(.exhausted, env.reading (first + p.actions))],
        .exhausted rfl hactions fun j hj => ?_, ?_⟩
      · rcases Nat.lt_or_eq_of_le hj with hlt | rfl
        · exact hprefix.pressed j hlt
        · exact hpressed
      · rw [if_pos hactions]
        exact ((told_onExhausted s₁ hlast).imp fun _ => hsettled.kept).from_eq hquiet hannounced
    · rw [if_neg hactions]
      have hzero : p.actions = 0 := Nat.eq_zero_of_not_pos hactions
      rw [hzero] at hsettled
      exact ⟨0, [], .observed rfl hzero hfirst, .nothing hsettled hquiet hannounced⟩

variable (p env hooks) in
/-- `check_once`, after any earlier checks. -/
theorem reports_check (s : Checked σ τ) :
    ∃ m reports, Check p env s.gauge.pressed s.reads m reports ∧
      Reports p env hooks reports s (Settled p env s.reads m s) (s.check p env hooks) := by
  obtain ⟨s₁, hs₁⟩ : ∃ s₁, s₁ = s.read p env := ⟨_, rfl⟩
  have hgauge : s₁.gauge = gaugeAt p env s.reads := by rw [hs₁]; rfl
  have hpressed : s₁.gauge.pressed = p.isPressed (env.reading s.reads) := by rw [hgauge]; rfl
  have hreads : s₁.reads = s.reads + 1 := by rw [hs₁]; rfl
  have hran : s₁.ran.map Prod.fst = s.ran.map Prod.fst ++ List.range 0 := by
    rw [hs₁, List.range_zero, List.append_nil]
    rfl
  have hquiet : s₁.published = s.published := by rw [hs₁]; rfl
  have hannounced : s₁.announced = s.announced := by rw [hs₁]; rfl
  have hstatus : s₁.gauge.status = some (env.reading s.reads) := by rw [hgauge]; rfl
  have hsettled : Settled p env s.reads 0 s s₁ := ⟨hreads, hran, hgauge⟩
  unfold Checked.check
  simp only [← hs₁, hpressed]
  -- Whether the monitor was low, and whether it is.
  cases hwas : s.gauge.pressed with
  | false =>
    cases hfirst : p.isPressed (env.reading s.reads) with
    | false => exact ⟨0, [], .steady hfirst, .nothing hsettled hquiet hannounced⟩
    | true =>
      have htold : Reports p env hooks [(.pressed, env.reading s.reads)] s (Kept s₁)
          (s₁.publish env hooks p.onPressed) :=
        (told_publish s₁ .pressed hstatus).from_eq hquiet hannounced
      -- What the actions will do is there already, whether or not the publication returns.
      obtain ⟨m, reports, hcheck, -⟩ := told_runAndReport hooks hreads hgauge hfirst
      refine ⟨m, _, hcheck, ?_⟩
      refine htold.bind fun s₂ hkept _ => ?_
      have hkept' : Kept s₁ (s₂.apply hooks .degraded) := kept_apply s₂ hkept .degraded
      obtain ⟨m', reports', hcheck', hrest⟩ := told_runAndReport hooks
        (hkept'.reads.trans hreads) (hkept'.gauge.trans hgauge) hfirst
      obtain ⟨rfl, hsame⟩ := hcheck.unique hcheck'
      obtain rfl : reports = reports' := (List.cons.inj hsame).2
      refine (hrest.imp fun s₃ h => ?_).from_eq ?_ ?_
      · exact ⟨h.reads, by rw [h.ran, hkept'.ran, hs₁]; rfl, h.gauge⟩
      · unfold Checked.apply
        split <;> rfl
      · unfold Checked.apply
        split <;> rfl
  | true =>
    cases hfirst : p.isPressed (env.reading s.reads) with
    | false =>
      refine ⟨0, [(.recovered, env.reading s.reads)], .recovered rfl hfirst, ?_⟩
      exact ((told_onRecovered s₁ hstatus).imp fun _ => hsettled.kept).from_eq hquiet hannounced
    | true => exact ⟨0, [], .steady hfirst, .nothing hsettled hquiet hannounced⟩

/-! ### All checks -/

/-- Where the reports of a monitor stand. -/
inductive Episode where
  /-- Not low. -/
  | quiet
  /-- Low. -/
  | low
  /-- Low, and the actions are exhausted. -/
  | exhausted
  deriving DecidableEq, Repr

/-- The reports alternate: low, then recovered. An exhausted report stands between the two, at most
once. -/
inductive Episode.Edge : Episode → Report → Episode → Prop where
  | begins : Edge .quiet .pressed .low
  | exhausts : Edge .low .exhausted .exhausted
  | recovers : Edge .low .recovered .quiet
  | recoversLate : Edge .exhausted .recovered .quiet

/-- A check leads from one episode to the next. -/
theorem Check.path {was : Bool} {first m : ℕ} {reports : List (Report × σ)}
    (h : Check p env was first m reports) {episode : Episode} (hwas : was = true ↔ episode ≠ .quiet) :
    ∃ episode', Run.Path Episode.Edge episode (reports.map Prod.fst) episode' ∧
      (p.isPressed (env.reading (first + m)) = true ↔ episode' ≠ .quiet) := by
  -- A monitor that was not low is between two episodes.
  have hover (hfalse : was = false) : episode = .quiet := by
    by_contra hne
    rw [hwas.mpr hne] at hfalse
    cases hfalse
  cases h with
  | steady h => exact ⟨episode, rfl, by rw [← hwas, Nat.add_zero, h]⟩
  | recovered htrue h =>
    refine ⟨.quiet, ⟨.quiet, ?_, rfl⟩, by simp [h]⟩
    cases episode with
    | quiet => exact absurd rfl (hwas.mp htrue)
    | low => exact .recovers
    | exhausted => exact .recoversLate
  | relieved hfalse _ m _ h =>
    rw [hover hfalse]
    exact ⟨.quiet, ⟨.low, .begins, .quiet, .recovers, rfl⟩, by simp [h]⟩
  | exhausted hfalse _ h =>
    rw [hover hfalse]
    exact ⟨.exhausted, ⟨.low, .begins, .exhausted, .exhausts, rfl⟩, by simp [h _ (le_refl _)]⟩
  | observed hfalse _ h =>
    rw [hover hfalse]
    exact ⟨.low, ⟨.low, .begins, rfl⟩, by simp [h]⟩

/-- The checks of a monitor, and their reports. -/
structure Episodes (p : PressureMonitor σ τ) (env : Surroundings σ τ) (hooks : Hooks)
    (current : RuntimeState) (ran : ℕ → ℕ) (reports : ℕ → List (Report × σ)) : Prop where
  /-- Each check does what its readings say. It returns its last reading. -/
  check : ∀ i, Check p env (after p env hooks current i).gauge.pressed
    (after p env hooks current i).reads (ran i) (reports i)
  done : ∀ i, Done p env hooks (ran i) (reports i) (after p env hooks current i)
    (after p env hooks current (i + 1))
  returned : ∀ i, ((after p env hooks current i).checkOnce p env hooks).map Prod.fst
    = .ok (some (env.reading ((after p env hooks current (i + 1)).reads - 1)))
  /-- The reports of all checks are episodes. -/
  alternate : ∀ n, ∃ episode,
    Run.Path Episode.Edge .quiet (((List.range n).flatMap reports).map Prod.fst) episode ∧
      ((after p env hooks current n).gauge.pressed = true ↔ episode ≠ .quiet)
  published : ∀ n, Tells p hooks ((List.range n).flatMap reports) { current := current }
    (after p env hooks current n)

/-! ### What the readings call for -/

/-- The index of the first reading of each check, when the checks run `ran` actions. -/
def firstReading (ran : ℕ → ℕ) : ℕ → ℕ
  | 0 => 0
  | i + 1 => firstReading ran i + ran i + 1

/-- The reading before this one is low. -/
def wasPressed (p : PressureMonitor σ τ) (env : Surroundings σ τ) : ℕ → Bool
  | 0 => false
  | i + 1 => p.isPressed (env.reading i)

/-- By the readings alone, the checks run `ran` actions and owe `reports`. -/
def Owes (p : PressureMonitor σ τ) (env : Surroundings σ τ) (ran : ℕ → ℕ)
    (reports : ℕ → List (Report × σ)) : Prop :=
  ∀ i, Check p env (wasPressed p env (firstReading ran i)) (firstReading ran i) (ran i) (reports i)

/-- The publications that the readings call for meet handlers that return awaitables. -/
def AllAnswered (p : PressureMonitor σ τ) (env : Surroundings σ τ) (hooks : Hooks) : Prop :=
  ∀ ran reports, Owes p env ran reports →
    ∀ n, Answered env hooks 0 ((List.range n).flatMap reports).length

theorem flatMap_range_succ {α : Type} (f : ℕ → List α) (n : ℕ) :
    (List.range (n + 1)).flatMap f = (List.range n).flatMap f ++ f n := by
  rw [List.range_succ, List.flatMap_append, List.flatMap_singleton]

/-- Any readings call for something. -/
theorem exists_owes (p : PressureMonitor σ τ) (env : Surroundings σ τ) :
    ∃ ran reports, Owes p env ran reports := by
  have hcheck (was : Bool) (first : ℕ) : ∃ m reports, Check p env was first m reports := by
    obtain ⟨m, reports, hcheck, -⟩ := reports_check p env ⟨false, false⟩
      { current := .healthy, gauge := ⟨none, was⟩, reads := first }
    exact ⟨m, reports, hcheck⟩
  choose ran reports hcheck using hcheck
  obtain ⟨first, hzero, hsucc⟩ : ∃ first : ℕ → ℕ, first 0 = 0 ∧
      ∀ i, first (i + 1) = first i + ran (wasPressed p env (first i)) (first i) + 1 :=
    ⟨fun i => Nat.rec 0 (fun _ at_i => at_i + ran (wasPressed p env at_i) at_i + 1) i, rfl,
      fun _ => rfl⟩
  have hfirst (i : ℕ) :
      firstReading (fun i => ran (wasPressed p env (first i)) (first i)) i = first i := by
    induction i with
    | zero => exact hzero.symm
    | succ i ih => rw [firstReading, ih, hsucc]
  refine ⟨fun i => ran (wasPressed p env (first i)) (first i),
    fun i => reports (wasPressed p env (first i)) (first i), fun i => ?_⟩
  rw [hfirst]
  exact hcheck _ _

/-- After `i` checks that have returned, the monitor is where the readings lead. -/
structure Reached (p : PressureMonitor σ τ) (env : Surroundings σ τ) (hooks : Hooks)
    (ran : ℕ → ℕ) (reports : ℕ → List (Report × σ)) (i : ℕ) (s : Checked σ τ) : Prop where
  reads : s.reads = firstReading ran i
  pressed : s.gauge.pressed = wasPressed p env (firstReading ran i)
  announced : s.announced = publications hooks ((List.range i).flatMap reports).length
  answered : Answered env hooks 0 ((List.range i).flatMap reports).length

section
variable {ran : ℕ → ℕ} {reports : ℕ → List (Report × σ)} {i : ℕ} {s : Checked σ τ}
  {current : RuntimeState}

/-- The next check returns, or one of its publications is not answered. -/
theorem Reached.check (h : Reached p env hooks ran reports i s) (howes : Owes p env ran reports) :
    (∃ s', s.check p env hooks = .ok s' ∧ Done p env hooks (ran i) (reports i) s s' ∧
        Reached p env hooks ran reports (i + 1) s') ∨
      ((∃ r, s.check p env hooks = .error r) ∧
        ¬ Answered env hooks 0 ((List.range (i + 1)).flatMap reports).length) := by
  obtain ⟨m, reports', hcheck, htold⟩ := reports_check p env hooks s
  have howed := howes i
  rw [← h.pressed, ← h.reads] at howed
  obtain ⟨rfl, rfl⟩ := howed.unique hcheck
  have hanswered : Answered env hooks 0 ((List.range (i + 1)).flatMap reports).length ↔
      Answered env hooks s.announced (reports i).length := by
    rw [flatMap_range_succ, List.length_append, answered_add, and_iff_right h.answered,
      Nat.zero_add, h.announced]
  generalize s.check p env hooks = x at htold
  cases htold with
  | all s' hsettled htells hannounced hall =>
    refine Or.inl ⟨s', rfl, ⟨hsettled.reads, hsettled.ran, hsettled.gauge, htells⟩, ?_⟩
    have hreads : s'.reads = firstReading ran (i + 1) := by
      rw [hsettled.reads, h.reads]
      rfl
    refine ⟨hreads, ?_, ?_, hanswered.mpr hall⟩
    · rw [hsettled.gauge, h.reads]
      rfl
    · rw [hannounced, h.announced, flatMap_range_succ, List.length_append]
      unfold publications
      split <;> omega
  | raised r hnot => exact Or.inr ⟨⟨r, rfl⟩, fun hall => hnot (hanswered.mp hall)⟩

theorem Reached.zero (current : RuntimeState) :
    Reached p env hooks ran reports 0 { current := current } where
  reads := rfl
  pressed := rfl
  announced := by simp [publications]
  answered := answered_zero 0

/-- A check that returns is the next step. -/
theorem after_succ {s' : Checked σ τ}
    (h : (after p env hooks current i).check p env hooks = .ok s') :
    after p env hooks current (i + 1) = s' ∧
      (after p env hooks current i).checkOnce p env hooks = .ok (s'.gauge.status, s') := by
  have hchecked : (after p env hooks current i).checkOnce p env hooks
      = .ok (s'.gauge.status, s') := by
    rw [checkOnce, h]
    rfl
  refine ⟨?_, hchecked⟩
  rw [after, hchecked]
  rfl

/-- A check that has returned a status has not raised. -/
theorem check_of_returned {status : Option σ}
    (h : (s.checkOnce p env hooks).map Prod.fst = .ok status) (r : RaisedCheck σ τ) :
    s.check p env hooks ≠ .error r := by
  intro hraised
  rw [checkOnce, hraised] at h
  cases h

/-- The publications of episodes are answered. -/
theorem Episodes.allAnswered {ran' : ℕ → ℕ} {reports' : ℕ → List (Report × σ)}
    (h : Episodes p env hooks current ran' reports') : AllAnswered p env hooks := by
  intro ran reports howes n
  have hreached : Reached p env hooks ran reports n (after p env hooks current n) := by
    induction n with
    | zero => exact .zero current
    | succ i ih =>
      rcases ih.check howes with ⟨s', hs', -, hnext⟩ | ⟨⟨r, hr⟩, -⟩
      · rw [(after_succ hs').1]
        exact hnext
      · exact absurd hr (check_of_returned (h.returned i) r)
  exact hreached.answered

end

/-- When the publications are answered, the checks are episodes. -/
theorem exists_episodes (current : RuntimeState) (hanswered : AllAnswered p env hooks) :
    ∃ ran reports, Episodes p env hooks current ran reports := by
  obtain ⟨ran, reports, howes⟩ := exists_owes p env
  -- No check fails, since every publication that the readings call for is answered.
  have hreached (i : ℕ) : Reached p env hooks ran reports i (after p env hooks current i) := by
    induction i with
    | zero => exact .zero current
    | succ i ih =>
      rcases ih.check howes with ⟨s', hs', -, hnext⟩ | ⟨-, hnot⟩
      · rw [(after_succ hs').1]
        exact hnext
      · exact absurd (hanswered ran reports howes (i + 1)) hnot
  have hcheck (i : ℕ) : Check p env (after p env hooks current i).gauge.pressed
      (after p env hooks current i).reads (ran i) (reports i) := by
    rw [(hreached i).reads, (hreached i).pressed]
    exact howes i
  have hdone (i : ℕ) : Done p env hooks (ran i) (reports i) (after p env hooks current i)
        (after p env hooks current (i + 1)) ∧
      ((after p env hooks current i).checkOnce p env hooks).map Prod.fst
        = .ok (after p env hooks current (i + 1)).gauge.status := by
    rcases (hreached i).check howes with ⟨s', hs', hdone, -⟩ | ⟨-, hnot⟩
    · obtain ⟨hafter, hchecked⟩ := after_succ hs'
      rw [hafter, hchecked]
      exact ⟨hdone, rfl⟩
    · exact absurd (hanswered ran reports howes (i + 1)) hnot
  refine ⟨ran, reports, hcheck, fun i => (hdone i).1, fun i => ?_, fun n => ?_, fun n => ?_⟩
  · rw [(hdone i).2, (hdone i).1.reads, (hdone i).1.gauge, Nat.add_sub_cancel]
    rfl
  · induction n with
    | zero => exact ⟨.quiet, rfl, by simp [after]⟩
    | succ n ih =>
      obtain ⟨episode, hpath, hpressed⟩ := ih
      obtain ⟨episode', hpath', hpressed'⟩ := (hcheck n).path hpressed
      refine ⟨episode', ?_, ?_⟩
      · rw [flatMap_range_succ, List.map_append]
        exact Run.path_append.mpr ⟨episode, hpath, hpath'⟩
      · rw [show (after p env hooks current (n + 1)).gauge = _ from (hdone n).1.gauge]
        exact hpressed'
  · induction n with
    | zero => exact .nothing rfl
    | succ n ih =>
      rw [flatMap_range_succ]
      exact ih.append (hdone n).1.published

/-- The checks of every storage monitor and of every metrics monitor, one after the other, with
every sequence of readings and with actions that may raise: they are episodes exactly when the
publications that the readings call for meet handlers that return awaitables. -/
theorem check_episodes :
    (∀ (m : StorageMonitor) (env : Surroundings StorageStatus τ) (hooks : Hooks)
      (current : RuntimeState), (∃ ran reports, Episodes m.pressure env hooks current ran reports) ↔
        AllAnswered m.pressure env hooks) ∧
    ∀ (m : MetricsMonitor) (env : Surroundings HardwareStatus τ) (hooks : Hooks)
      (current : RuntimeState), (∃ ran reports, Episodes m.pressure env hooks current ran reports) ↔
        AllAnswered m.pressure env hooks :=
  ⟨fun _ _ _ current => ⟨fun ⟨_, _, h⟩ => h.allAnswered, exists_episodes current⟩,
    fun _ _ _ current => ⟨fun ⟨_, _, h⟩ => h.allAnswered, exists_episodes current⟩⟩

/-- A monitor that is wired to a runtime and to its bus. -/
def wired : Hooks := ⟨true, true⟩

/-- A filesystem that stays full, and a bus with a handler that takes no arguments. -/
def fullDisk : Surroundings StorageStatus Nat where
  reading _ := ⟨0, none⟩
  action _ := .ok ()
  clock n := n
  audience _ := Core.uncallable

/-- The `TypeError` of the handler ends the check before its cleanup. -/
theorem handler_prevents_cleanup :
    ¬ ∀ (m : StorageMonitor) (env : Surroundings StorageStatus Nat) (hooks : Hooks)
      (current : RuntimeState), ∃ ran reports, Episodes m.pressure env hooks current ran reports := by
  intro h
  obtain ⟨ran, reports, hepisodes⟩ := h { path := "/data", lowWaterBytes := 100, cleanup := 1 }
    fullDisk wired .healthy
  have hreturned := hepisodes.returned 0
  cases hreturned

/-! ### The parts of a poll -/

/-- A publication, as a part of a poll that goes on at `poll`. -/
def announcing (env : Surroundings σ τ) (s : Checked σ τ) (event : τ → σ → Event τ)
    (poll : PressurePoll) : Polled σ τ :=
  match s.publish env wired event with
  | .ok s' => ⟨s', some poll⟩
  | .error raised => ⟨raised.monitor, none⟩

/-- The loop has come to the action at position `k`. -/
def entering (p : PressureMonitor σ τ) (env : Surroundings σ τ) (k : ℕ) (s : Checked σ τ) :
    Polled σ τ :=
  let part := p.nextAction (env.clock s.announced) s.current s.gauge k
  let t := part.met (env.audience s.announced)
  ⟨{ s with
      current := t.current
      gauge := t.attributes
      announced := s.announced + part.published.length
      published := s.published ++ t.published }, t.poll⟩

/-- What is left to do from the action at position `k` on. -/
def leftFrom (p : PressureMonitor σ τ) (env : Surroundings σ τ) (k : ℕ) (s : Checked σ τ) :
    Except (RaisedCheck σ τ) (Checked σ τ) :=
  let s := s.runActions p env (List.range' k (p.actions - k))
  if !s.gauge.pressed then s.onRecovered p env wired
  else if 0 < p.actions then s.onExhausted p env wired
  else .ok s

section
variable (s : Checked σ τ)

theorem met_published (current : RuntimeState) (g : Gauge σ) (poll : PressurePoll) (e : Event τ)
    (audience : Audience String) :
    ({ current := current, attributes := g, poll := some poll, published := [e] } :
        Turn (Gauge σ) PressurePoll τ).met audience =
      match audience.raised e with
      | some _ => { current := current, attributes := g }
      | none => { current := current, attributes := g, poll := some poll, published := [e] } := by
  rw [Turn.met]
  cases h : audience.raised e <;> simp [h]

/-- Publishing, and what comes of it. -/
theorem announcing_eq {status : σ} (h : s.gauge.status = some status) (event : τ → σ → Event τ)
    (poll : PressurePoll) (t : Turn (Gauge σ) PressurePoll τ)
    (ht : t =
      { current := s.current
        attributes := s.gauge
        poll := some poll
        published := [event (env.clock s.announced) status] }) :
    announcing env s event poll =
      ⟨{ s with
          current := (t.met (env.audience s.announced)).current
          gauge := (t.met (env.audience s.announced)).attributes
          announced := s.announced + t.published.length
          published := s.published ++ (t.met (env.audience s.announced)).published },
        (t.met (env.audience s.announced)).poll⟩ := by
  subst ht
  rw [met_published]
  simp only [announcing, publish, h, wired, if_true]
  cases (env.audience s.announced).raised (event (env.clock s.announced) status) <;> simp

/-- After a publication that returns, the poll goes on. -/
theorem finishes_announcing (event : τ → σ → Event τ) (poll : PressurePoll)
    (f : Checked σ τ → Except (RaisedCheck σ τ) (Checked σ τ))
    (h : ∀ s', s.publish env wired event = .ok s' →
      Polled.Finishes p env (Polled.advance p env ⟨s', some poll⟩) (left (f s'))) :
    Polled.Finishes p env (announcing env s event poll) (left (s.publish env wired event >>= f)) := by
  unfold announcing
  cases hpublish : s.publish env wired event with
  | ok s' => exact .more (h s' hpublish)
  | error raised => exact .done raised.monitor

theorem runActions_of_not_pressed (h : s.gauge.pressed = false) (ks : List ℕ) :
    s.runActions p env ks = s := by
  cases ks with
  | nil => rfl
  | cons k ks => simp only [runActions, h, Bool.not_false, if_true]

theorem advance_onRecovered :
    Polled.advance p env ⟨s, some .onRecovered⟩ = ⟨s.apply wired .healthy, none⟩ := by
  simp [Polled.advance, PressureMonitor.turn, PressureMonitor.resume, Checked.apply, wired, Turn.met]

theorem advance_onExhausted :
    Polled.advance p env ⟨s, some .onExhausted⟩ = ⟨s.escalate wired, none⟩ := by
  simp [Polled.advance, PressureMonitor.turn, PressureMonitor.resume, Checked.escalate, wired,
    Turn.met]

theorem advance_acting (k : ℕ) : Polled.advance p env ⟨s, some (.acting k)⟩
    = entering p env (k + 1) ((s.act env k).read p env) := rfl

theorem finishes_onRecovered :
    Polled.Finishes p env (announcing env s p.onRecovered .onRecovered)
      (left (s.onRecovered p env wired)) := by
  refine finishes_announcing s p.onRecovered .onRecovered _ fun s' _ => ?_
  rw [advance_onRecovered]
  exact .done _

theorem finishes_onExhausted :
    Polled.Finishes p env (announcing env s p.onExhausted .onExhausted)
      (left (s.onExhausted p env wired)) := by
  refine finishes_announcing s p.onExhausted .onExhausted _ fun s' _ => ?_
  rw [advance_onExhausted]
  exact .done _

end

/-- From an action on, the parts do what the rest of the check does. The induction is on the number
of actions that are left. -/
theorem finishes_entering (n : ℕ) : ∀ (k : ℕ) (s : Checked σ τ), p.actions - k = n →
    ∀ status, s.gauge.status = some status →
      Polled.Finishes p env (entering p env k s) (left (leftFrom p env k s)) := by
  -- A reading that is not low ends the loop.
  have hover (k : ℕ) (s : Checked σ τ) (status : σ) (hstatus : s.gauge.status = some status)
      (hpressed : s.gauge.pressed = false) :
      Polled.Finishes p env (entering p env k s) (left (leftFrom p env k s)) := by
    have hentering : entering p env k s = announcing env s p.onRecovered .onRecovered := by
      refine (announcing_eq s hstatus p.onRecovered .onRecovered _ ?_).symm
      simp only [PressureMonitor.nextAction, hpressed, hstatus]
      rfl
    have hleft : leftFrom p env k s = s.onRecovered p env wired := by
      simp [leftFrom, runActions_of_not_pressed s hpressed, hpressed]
    rw [hentering, hleft]
    exact finishes_onRecovered s
  induction n with
  | zero =>
    intro k s hk status hstatus
    cases hpressed : s.gauge.pressed with
    | false => exact hover k s status hstatus hpressed
    | true =>
      -- All the actions have run.
      have hlast : ¬ k < p.actions := by omega
      have hnone : s.runActions p env (List.range' k (p.actions - k)) = s := by
        rw [hk]
        rfl
      by_cases hactions : 0 < p.actions
      · have hentering : entering p env k s = announcing env s p.onExhausted .onExhausted := by
          refine (announcing_eq s hstatus p.onExhausted .onExhausted _ ?_).symm
          simp [PressureMonitor.nextAction, hpressed, hlast, hactions, hstatus]
        have hleft : leftFrom p env k s = s.onExhausted p env wired := by
          simp [leftFrom, hnone, hpressed, hactions]
        rw [hentering, hleft]
        exact finishes_onExhausted s
      · have hentering : entering p env k s = ⟨s, none⟩ := by
          simp [entering, PressureMonitor.nextAction, hpressed, hlast, hactions, Turn.met]
        have hleft : leftFrom p env k s = .ok s := by
          simp [leftFrom, hnone, hpressed, hactions]
        rw [hentering, hleft]
        exact .done s
  | succ n ih =>
    intro k s hk status hstatus
    cases hpressed : s.gauge.pressed with
    | false => exact hover k s status hstatus hpressed
    | true =>
      -- The action runs, and the loop goes on with the reading after it.
      have hmore : k < p.actions := by omega
      have hentering : entering p env k s = ⟨s, some (.acting k)⟩ := by
        simp [entering, PressureMonitor.nextAction, hpressed, hmore, Turn.met]
      have hrest : p.actions - (k + 1) = n := by omega
      have hleft : leftFrom p env k s = leftFrom p env (k + 1) ((s.act env k).read p env) := by
        unfold leftFrom
        rw [hk, hrest, List.range'_succ, runActions, hpressed]
        rfl
      rw [hentering, hleft]
      refine .more ?_
      rw [advance_acting]
      exact ih (k + 1) _ hrest _ rfl

/-- The move to DEGRADED is awaited when there is one, and then the loop begins. -/
theorem finishes_onPressed (s : Checked σ τ) {status : σ} (hstatus : s.gauge.status = some status) :
    Polled.Finishes p env (Polled.advance p env ⟨s, some .onPressed⟩)
      (left ((s.apply wired .degraded).runAndReport p env wired)) := by
  have hleft : (s.apply wired .degraded).runAndReport p env wired
      = leftFrom p env 0 (s.apply wired .degraded) := by
    rw [runAndReport, leftFrom, List.range_eq_range', Nat.sub_zero]
  have hkept : (s.apply wired .degraded).gauge = s.gauge :=
    (kept_apply s ⟨rfl, rfl, rfl⟩ .degraded).gauge
  have hentering : Polled.Finishes p env (entering p env 0 (s.apply wired .degraded))
      (left (leftFrom p env 0 (s.apply wired .degraded))) :=
    finishes_entering p.actions 0 _ rfl status (by rw [hkept]; exact hstatus)
  rw [hleft]
  by_cases hstays : StateMachine.applyToRuntime RuntimeState.managedByPressure s.current .degraded
      = s.current
  · have hsame : s.apply wired .degraded = s := by
      simp only [Checked.apply, wired, hstays, if_true]
    rw [hsame] at hentering ⊢
    have hadvance : Polled.advance p env ⟨s, some .onPressed⟩ = entering p env 0 s := by
      simp [Polled.advance, PressureMonitor.turn, PressureMonitor.resume, hstays, entering]
    rw [hadvance]
    exact hentering
  · have hadvance : Polled.advance p env ⟨s, some .onPressed⟩
        = ⟨s.apply wired .degraded, some .degrading⟩ := by
      simp [Polled.advance, PressureMonitor.turn, PressureMonitor.resume, hstays, Checked.apply, wired,
        Turn.met]
    rw [hadvance]
    exact .more hentering

/-- The first part of a poll takes a reading. At an edge it publishes, and then it awaits. -/
theorem advance_check (s : Checked σ τ) : Polled.advance p env ⟨s, none⟩ =
    if (s.read p env).gauge.pressed && !s.gauge.pressed then
      announcing env (s.read p env) p.onPressed .onPressed
    else if !(s.read p env).gauge.pressed && s.gauge.pressed then
      announcing env (s.read p env) p.onRecovered .onRecovered
    else ⟨s.read p env, none⟩ := by
  have hpressed : (s.read p env).gauge.pressed = p.isPressed (env.reading s.reads) := rfl
  rw [announcing_eq (s.read p env) rfl p.onPressed .onPressed _ rfl,
    announcing_eq (s.read p env) rfl p.onRecovered .onRecovered _ rfl, hpressed, Polled.advance,
    PressureMonitor.turn]
  rcases p.checkOnce_cases (env.clock s.announced) (some (env.reading s.reads)) s.current
    s.gauge with ⟨hnone, -⟩ | ⟨status, hstatus, ⟨hnew, hold, heq⟩ | ⟨hnew, hold, heq⟩ | ⟨hsame, heq⟩⟩
  · cases hnone
  · cases hstatus
    simp [heq, hnew, hold, Checked.read]
  · cases hstatus
    simp [heq, hnew, hold, Checked.read]
  · cases hstatus
    simp [heq, hsame, Checked.read, Turn.met]

/-- The parts of a poll, one after the other, leave what `check_once` leaves, also when it raises. -/
theorem finishes_checkOnce (s : Checked σ τ) :
    Polled.Finishes p env (Polled.advance p env ⟨s, none⟩)
      (left ((s.checkOnce p env wired).map Prod.snd)) := by
  have hcheck : (s.checkOnce p env wired).map Prod.snd = s.check p env wired := by
    unfold checkOnce
    cases s.check p env wired <;> rfl
  rw [hcheck, advance_check]
  unfold Checked.check
  dsimp only
  by_cases hrise : ((s.read p env).gauge.pressed && !s.gauge.pressed) = true
  · rw [if_pos hrise, if_pos hrise]
    refine finishes_announcing _ p.onPressed .onPressed _ fun s' hs' => ?_
    have htold : Reports p env wired [(.pressed, env.reading s.reads)] (s.read p env)
        (Kept (s.read p env)) (.ok s') := hs' ▸ told_publish (s.read p env) .pressed rfl
    cases htold with
    | all _ hkept => exact finishes_onPressed s' (by rw [hkept.gauge]; rfl)
  · rw [if_neg hrise, if_neg hrise]
    by_cases hfall : (!(s.read p env).gauge.pressed && s.gauge.pressed) = true
    · rw [if_pos hfall, if_pos hfall]
      exact finishes_onRecovered _
    · rw [if_neg hfall, if_neg hfall]
      exact .done _

end EdgeSentinel.Proofs.Monitoring
