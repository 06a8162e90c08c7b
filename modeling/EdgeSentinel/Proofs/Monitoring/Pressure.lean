import EdgeSentinel.Proofs.Monitoring.Masking
import EdgeSentinel.Proofs.Monitoring.Settling

/-!
# `EdgeSentinel.Proofs.Monitoring.Pressure`: the runtime reflects storage and hardware

`ReflectsPressure` says that a runtime with one storage (or metrics) monitor is DEGRADED exactly
when the monitor's flag is set, when no poll and no `start` is in progress. The monitor acts
only when the flag changes. So a storage that is low at boot stays unnoticed
(`low_boot_looks_healthy`), and a poll that announces a recovery can cover a newer reading.

`reflectsPressure_of_terms` proves it for the runs in which this does not happen, or another
poll that has seen the pressure is still on its way. Both monitors are one `PressureMonitor`,
and the proof is about that.
-/

set_option autoImplicit false

namespace EdgeSentinel.Proofs.Monitoring

open EdgeSentinel.Core EdgeSentinel.Monitoring

variable {σ τ : Type}

/-- Without a poll or a `start` in progress, a HEALTHY or DEGRADED runtime is DEGRADED exactly
when the flag is set. -/
def ReflectsPressure (w : Solo (Gauge σ) PressurePoll τ) : Prop :=
  w.polls = [] → w.phase.inStart = false → w.current ∈ [.healthy, .degraded] →
    (w.current = .degraded ↔ w.attributes.pressed = true)

/-- The poll has seen the flag set, and will move the runtime on account of it. -/
def Alarmed : PressurePoll → Bool
  | .onPressed | .acting _ | .onExhausted => true
  | .degrading | .onRecovered => false

/-- A poll that has announced a recovery finds the flag clear. When the reading after an action
raises, the runtime is not HEALTHY with the flag set. -/
def Heeded (reading : Answer → Option σ) (state : RuntimeState) (g : Gauge σ) (a : Answer) :
    PressurePoll → Prop
  | .onRecovered => g.pressed = false
  | .acting _ => reading a = none → g.pressed = true → state ≠ .healthy
  | .onPressed | .degrading | .onExhausted => True

instance (reading : Answer → Option σ) (state : RuntimeState) (g : Gauge σ) (a : Answer)
    [∀ a, Decidable (reading a = none)] : ∀ point, Decidable (Heeded reading state g a point)
  | .onRecovered => inferInstanceAs (Decidable (g.pressed = false))
  | .acting _ => inferInstanceAs
      (Decidable (reading a = none → g.pressed = true → state ≠ .healthy))
  | .onPressed | .degrading | .onExhausted => isTrue trivial

/-- `start` ends with the flag clear, and a poll resumes when the flag is heeded, unless another
poll is alarmed. -/
def pressureTerms (reading : Answer → Option σ) : Terms (Gauge σ) PressurePoll where
  ready g others := g.pressed = false ∨ ∃ point ∈ others, Alarmed point = true
  timely state g others point a :=
    Heeded reading state g a point ∨ ∃ point ∈ others, Alarmed point = true

instance (reading : Answer → Option σ) (g : Gauge σ) (others : List PressurePoll) :
    Decidable ((pressureTerms reading).ready g others) :=
  inferInstanceAs (Decidable (g.pressed = false ∨ ∃ point ∈ others, Alarmed point = true))

instance (reading : Answer → Option σ) [∀ a, Decidable (reading a = none)]
    (state : RuntimeState) (g : Gauge σ) (others : List PressurePoll) (point : PressurePoll)
    (a : Answer) : Decidable ((pressureTerms reading).timely state g others point a) :=
  inferInstanceAs (Decidable
    (Heeded reading state g a point ∨ ∃ point ∈ others, Alarmed point = true))

/-- An alarmed poll mends a state that does not show the flag. With the flag clear, the polls
that come to a recovery do. -/
def Mends (g : Gauge σ) : PressurePoll → Prop
  | .onPressed => True
  | .acting _ | .onExhausted => g.pressed = true
  | .degrading | .onRecovered => g.pressed = false

def pressureJudge (p : PressureMonitor σ τ) : Judge (Gauge σ) PressurePoll where
  managed := RuntimeState.managedByPressure
  agrees state g := state = .degraded ↔ g.pressed = true
  mends _ g := Mends g
  attributesOk _ := True
  pointOk point := ∀ k, point = .acting k → k < p.actions

variable (p : PressureMonitor σ τ)

section
variable {p} {state : RuntimeState} {g : Gauge σ} {points : List PressurePoll}

theorem settled_of_mends {point : PressurePoll} (hpoint : point ∈ points) (h : Mends g point) :
    (pressureJudge p).Settled state g points :=
  fun _ => Or.inr ⟨point, hpoint, h⟩

theorem mends_of_alarmed {point : PressurePoll} (hpressed : g.pressed = true)
    (halarmed : Alarmed point = true) : Mends g point := by
  cases point with
  | onPressed => trivial
  | acting k => exact hpressed
  | onExhausted => exact hpressed
  | degrading | onRecovered => cases halarmed

/-- Where the flag is clear, nothing is needed in HEALTHY. Else an alarmed poll is. -/
theorem settled_healthy (h : g.pressed = false ∨ ∃ point ∈ points, Alarmed point = true) :
    (pressureJudge p).Settled .healthy g points := by
  intro _
  cases hpressed : g.pressed with
  | false => exact Or.inl ⟨nofun, fun htrue => by rw [hpressed] at htrue; cases htrue⟩
  | true =>
    obtain ⟨point, hpoint, halarmed⟩ := h.resolve_left (by simp [hpressed])
    exact Or.inr ⟨point, hpoint, mends_of_alarmed hpressed halarmed⟩

/-- FAILED is not managed, and no other state is left for a managed one. -/
theorem settled_escalate : (pressureJudge p).Settled (StateMachine.escalate state) g points := by
  intro hmanaged
  have hnot : StateMachine.escalate state ∉ RuntimeState.managedByPressure := by
    cases state <;> decide
  exact absurd hmanaged hnot

end

/-! ### The parts of a poll -/

/-- A managed state that the move to DEGRADED leaves is DEGRADED. -/
theorem eq_degraded_of_stays {state : RuntimeState} (h : state ∈ RuntimeState.managedByPressure)
    (hstays : StateMachine.applyToRuntime RuntimeState.managedByPressure state .degraded = state) :
    state = .degraded := by
  revert h hstays
  cases state <;> decide

theorem applyToRuntime_of_moves {state : RuntimeState}
    (h : StateMachine.applyToRuntime RuntimeState.managedByPressure state .degraded ≠ state) :
    StateMachine.applyToRuntime RuntimeState.managedByPressure state .degraded = .degraded := by
  revert h
  cases state <;> decide

/-- The move to HEALTHY ends in HEALTHY, or the state is not managed. -/
theorem applyToRuntime_healthy {state : RuntimeState}
    (h : StateMachine.applyToRuntime RuntimeState.managedByPressure state .healthy
      ∈ RuntimeState.managedByPressure) :
    StateMachine.applyToRuntime RuntimeState.managedByPressure state .healthy = .healthy := by
  revert h
  cases state <;> decide

/-- The loop of actions settles the state. Without actions the state has to be settled already. -/
theorem nextAction_settled (now : τ) (state : RuntimeState) (g : Gauge σ) (k : Nat)
    {others : List PressurePoll} {t : Turn (Gauge σ) PressurePoll τ}
    (ht : p.nextAction now state g k = t)
    (hbare : p.actions = 0 → g.pressed = true → (pressureJudge p).Settled state g others) :
    (∀ point ∈ t.poll, (pressureJudge p).pointOk point) ∧
      (pressureJudge p).Settled t.current t.attributes (t.poll.toList ++ others) := by
  rcases p.nextAction_cases now state g k with ⟨hclear, heq⟩ | ⟨hpressed, hlt, heq⟩ |
    ⟨hpressed, -, -, heq⟩ | ⟨hpressed, hnone, heq⟩
  · obtain rfl := heq.symm.trans ht
    refine ⟨?_, settled_of_mends List.mem_cons_self hclear⟩
    rintro point ⟨⟩ k' ⟨⟩
  · obtain rfl := heq.symm.trans ht
    refine ⟨?_, settled_of_mends List.mem_cons_self hpressed⟩
    rintro point ⟨⟩ k' ⟨⟩
    exact hlt
  · obtain rfl := heq.symm.trans ht
    refine ⟨?_, settled_of_mends List.mem_cons_self hpressed⟩
    rintro point ⟨⟩ k' ⟨⟩
  · obtain rfl := heq.symm.trans ht
    exact ⟨nofun, hbare hnone hpressed⟩

/-- A reading on an edge of the flag is followed by a poll that mends the state. -/
theorem pressure_checkOnce_settled (now : τ) (reading : Option σ) {state : RuntimeState}
    {g : Gauge σ} {others : List PressurePoll} (h : (pressureJudge p).Settled state g others)
    {t : Turn (Gauge σ) PressurePoll τ} (ht : p.checkOnce now reading state g = t) :
    (∀ point ∈ t.poll, (pressureJudge p).pointOk point) ∧
      (pressureJudge p).Settled t.current t.attributes (t.poll.toList ++ others) := by
  rcases p.checkOnce_cases now reading state g with ⟨-, heq⟩ | ⟨status, -, ⟨-, -, heq⟩ |
    ⟨hclear, -, heq⟩ | ⟨hflag, heq⟩⟩
  · obtain rfl := heq.symm.trans ht
    exact ⟨nofun, h⟩
  · obtain rfl := heq.symm.trans ht
    exact ⟨by rintro point ⟨⟩ k ⟨⟩, settled_of_mends List.mem_cons_self trivial⟩
  · obtain rfl := heq.symm.trans ht
    exact ⟨by rintro point ⟨⟩ k ⟨⟩, settled_of_mends List.mem_cons_self hclear⟩
  · -- The flag is as it was.
    obtain rfl := heq.symm.trans ht
    refine ⟨nofun, fun hmanaged => ?_⟩
    rcases h hmanaged with hagrees | ⟨point, hpoint, hmends⟩
    · refine Or.inl ?_
      show state = .degraded ↔ p.isPressed status = true
      rw [hflag]
      exact hagrees
    · refine Or.inr ⟨point, hpoint, ?_⟩
      show Mends ⟨some status, p.isPressed status⟩ point
      rw [hflag]
      cases point <;> exact hmends

/-- The await that is over did not mend the state, so the others do. -/
theorem settled_tail {state : RuntimeState} {g : Gauge σ} {point : PressurePoll}
    {others : List PressurePoll} (h : (pressureJudge p).Settled state g (point :: others))
    (hnot : ¬ Mends g point) : (pressureJudge p).Settled state g others := by
  intro hmanaged
  rcases h hmanaged with hagrees | ⟨point', hpoint', hmends⟩
  · exact Or.inl hagrees
  · rcases List.mem_cons.mp hpoint' with rfl | hrest
    · exact absurd hmends hnot
    · exact Or.inr ⟨point', hrest, hmends⟩

theorem pressure_resume_settled (now : τ) (reading : Answer → Option σ) (a : Answer)
    {state : RuntimeState} {g : Gauge σ} {point : PressurePoll} {others : List PressurePoll}
    (hpoint : (pressureJudge p).pointOk point)
    (htimely : (pressureTerms reading).timely state g others point a)
    (h : (pressureJudge p).Settled state g (point :: others))
    {t : Turn (Gauge σ) PressurePoll τ} (ht : p.resume now (reading a) state g point = t) :
    (∀ point ∈ t.poll, (pressureJudge p).pointOk point) ∧
      (pressureJudge p).Settled t.current t.attributes (t.poll.toList ++ others) := by
  cases point with
  | onPressed =>
    unfold PressureMonitor.resume at ht
    dsimp only at ht
    split at ht
    · -- A managed state from which DEGRADED is not asked for is DEGRADED.
      rename_i hstays
      refine nextAction_settled p now state g 0 ht fun _ hpressed hmanaged => Or.inl ?_
      exact ⟨fun _ => hpressed, fun _ => eq_degraded_of_stays hmanaged hstays⟩
    · rename_i hmoves
      subst ht
      refine ⟨by rintro point ⟨⟩ k ⟨⟩, ?_⟩
      show (pressureJudge p).Settled (StateMachine.applyToRuntime _ state .degraded) g
        (.degrading :: others)
      rw [applyToRuntime_of_moves hmoves]
      -- The flag may have been cleared by another poll since the edge.
      cases hpressed : g.pressed with
      | true => exact fun _ => Or.inl ⟨fun _ => hpressed, fun _ => rfl⟩
      | false => exact settled_of_mends List.mem_cons_self hpressed
  | degrading =>
    refine nextAction_settled p now state g 0 ht fun _ hpressed => settled_tail p h ?_
    intro (hclear : g.pressed = false)
    rw [hpressed] at hclear
    cases hclear
  | acting k =>
    have hactions : 0 < p.actions := Nat.lt_of_le_of_lt (Nat.zero_le k) (hpoint k rfl)
    unfold PressureMonitor.resume at ht
    cases hreading : reading a with
    | none =>
      -- The flag keeps its value, and nobody acts on it in this poll.
      rw [hreading] at ht
      subst ht
      refine ⟨nofun, ?_⟩
      cases hpressed : g.pressed with
      | false =>
        refine settled_tail p h fun (hmends : g.pressed = true) => ?_
        rw [hpressed] at hmends
        cases hmends
      | true =>
        rcases htimely with hheeded | ⟨point, hpoint, halarmed⟩
        · intro hmanaged
          have hdegraded : state = .degraded :=
            (List.mem_pair.mp hmanaged).resolve_left (hheeded hreading hpressed)
          exact Or.inl ⟨fun _ => hpressed, fun _ => hdegraded⟩
        · exact settled_of_mends hpoint (mends_of_alarmed hpressed halarmed)
    | some status =>
      rw [hreading] at ht
      exact nextAction_settled p now state _ (k + 1) ht fun hnone _ => absurd hnone hactions.ne'
  | onRecovered =>
    subst ht
    refine ⟨nofun, fun hmanaged => ?_⟩
    have hhealthy := applyToRuntime_healthy hmanaged
    show (pressureJudge p).agrees (StateMachine.applyToRuntime _ state .healthy) g ∨
      ∃ point ∈ others, _
    rw [hhealthy]
    exact settled_healthy htimely (show .healthy ∈ RuntimeState.managedByPressure by decide)
  | onExhausted =>
    subst ht
    exact ⟨nofun, settled_escalate⟩

theorem pressure_sound (reading : Answer → Option σ) :
    (pressureJudge p).Sound (p.routine reading) (pressureTerms reading) where
  managed state h := by
    revert h
    cases state <;> show _ ∈ RuntimeState.managedByPressure → _ <;> decide
  initial := trivial
  boot g others _ hready := settled_healthy hready
  turn now a state g point others _ hpoint hsettled t ht := by
    have ht : p.turn now (reading a) state g point = t := (met_answer _ a).symm.trans ht
    cases point with
    | none => exact ⟨trivial, pressure_checkOnce_settled p now (reading a) hsettled ht⟩
    | some point =>
      obtain ⟨hok, htimely⟩ := hpoint point rfl
      exact ⟨trivial, pressure_resume_settled p now reading a hok htimely hsettled ht⟩

/-- In every run on the terms, the runtime reflects the flag of a pressure monitor. -/
theorem reflects_of_terms {reading : Answer → Option σ} {es : List (SoloStep τ)}
    {w : Solo (Gauge σ) PressurePoll τ}
    (hrun : Run.exec (Solo.step (p.routine reading)) (Solo.new (p.routine reading)) es = some w)
    (hmet : Run.Along (Solo.step (p.routine reading)) (pressureTerms reading).Met
      (Solo.new (p.routine reading)) es) : ReflectsPressure w := by
  intro hpolls _ hmanaged
  have hsettled := Judge.settled_of_terms (pressure_sound p reading) hrun hmet
  rw [hpolls] at hsettled
  exact hsettled.agrees hmanaged

/-- In every run on the terms, the runtime reflects the storage, and the hardware. -/
theorem reflectsPressure_of_terms :
    (∀ (m : StorageMonitor) (es : List (SoloStep τ))
      (w : Solo (Gauge StorageStatus) PressurePoll τ),
      Run.exec (Solo.step m.routine) (Solo.new m.routine) es = some w →
      Run.Along (Solo.step m.routine) (pressureTerms Answer.usage).Met (Solo.new m.routine) es →
      ReflectsPressure w) ∧
    (∀ (m : MetricsMonitor) (es : List (SoloStep τ))
      (w : Solo (Gauge HardwareStatus) PressurePoll τ),
      Run.exec (Solo.step m.routine) (Solo.new m.routine) es = some w →
      Run.Along (Solo.step m.routine) (pressureTerms Answer.metrics).Met (Solo.new m.routine) es →
      ReflectsPressure w) :=
  ⟨fun m _ _ hrun hmet => reflects_of_terms m.pressure hrun hmet,
    fun m _ _ hrun hmet => reflects_of_terms m.pressure hrun hmet⟩

/-! ### Runs of a storage monitor and of a metrics monitor -/

/-- A reading of the storage with so many free bytes. -/
def free (bytes : Int) : Answer := { usage := some ⟨bytes, none⟩ }

/-- A reading of the CPU load. -/
def load (ratio : ℚ) : Answer := { metrics := some ⟨ratio, 0, none⟩ }

def fullLoad : MetricsMonitor where
  cpuHigh := some 1

/-- The first readings are fine; then the pressure comes. -/
def pressureComes (fine pressed : Answer) : List (SoloStep Unit) :=
  [.start, .initialPoll 0 () fine, .boot, .poll 1 () pressed, .resume 1 () {}, .resume 1 () {}]

theorem reflectsPressure_of_terms_pressureComes :
    (∃ w, Run.exec (Solo.step lowWater.routine) (Solo.new lowWater.routine)
        (pressureComes (free 500) (free 50)) = some w ∧ ReflectsPressure w ∧
      w.current = .degraded) ∧
    (∃ w, Run.exec (Solo.step fullLoad.routine) (Solo.new fullLoad.routine)
        (pressureComes (load 0) (load 1)) = some w ∧ ReflectsPressure w ∧
      w.current = .degraded) := by
  have hstorage : (Run.exec (Solo.step lowWater.routine) (Solo.new lowWater.routine)
      (pressureComes (free 500) (free 50))).map (fun w => w.current) = some .degraded := by
    decide +kernel
  have hmetrics : (Run.exec (Solo.step fullLoad.routine) (Solo.new fullLoad.routine)
      (pressureComes (load 0) (load 1))).map (fun w => w.current) = some .degraded := by
    decide +kernel
  obtain ⟨w, hw, hcurrent⟩ := Option.map_eq_some_iff.mp hstorage
  obtain ⟨w', hw', hcurrent'⟩ := Option.map_eq_some_iff.mp hmetrics
  exact ⟨⟨w, hw, reflectsPressure_of_terms.1 lowWater _ w hw (by decide +kernel), hcurrent⟩,
    ⟨w', hw', reflectsPressure_of_terms.2 fullLoad _ w' hw' (by decide +kernel), hcurrent'⟩⟩

/-- The pressure is there when the runtime starts. The initial poll asks for DEGRADED in
INITIALIZING and is not heard, and the next poll sees no edge. -/
def pressedBoot (pressed : Answer) : List (SoloStep Unit) :=
  [.start, .initialPoll 0 () pressed, .resume 0 () {}, .boot, .poll 1 () pressed]

/-- A run that leaves a started runtime HEALTHY with the flag set does not reflect it. -/
theorem not_reflects {o : Option (Solo (Gauge σ) PressurePoll τ)}
    (h : o.map (fun w => (w.current, w.phase, w.attributes.pressed, w.polls))
      = some (.healthy, .started, true, [])) : ∃ w, o = some w ∧ ¬ ReflectsPressure w := by
  obtain ⟨w, hw, hresult⟩ := Option.map_eq_some_iff.mp h
  simp only [Prod.mk.injEq] at hresult
  obtain ⟨hcurrent, hphase, hpressed, hpolls⟩ := hresult
  refine ⟨w, hw, fun hreflects => ?_⟩
  have hiff := hreflects hpolls (by rw [hphase]; rfl) (by rw [hcurrent]; decide)
  have hdegraded := hiff.mpr hpressed
  rw [hcurrent] at hdegraded
  cases hdegraded

theorem low_boot_looks_healthy :
    (¬ ∀ (m : StorageMonitor) (es : List (SoloStep Unit))
      (w : Solo (Gauge StorageStatus) PressurePoll Unit),
      Run.exec (Solo.step m.routine) (Solo.new m.routine) es = some w → ReflectsPressure w) ∧
    (¬ ∀ (m : MetricsMonitor) (es : List (SoloStep Unit))
      (w : Solo (Gauge HardwareStatus) PressurePoll Unit),
      Run.exec (Solo.step m.routine) (Solo.new m.routine) es = some w → ReflectsPressure w) := by
  constructor
  · intro h
    have hrun : (Run.exec (Solo.step lowWater.routine) (Solo.new lowWater.routine)
        (pressedBoot (free 50))).map
        (fun w => (w.current, w.phase, w.attributes.pressed, w.polls))
        = some (.healthy, .started, true, []) := by decide +kernel
    obtain ⟨w, hw, hnot⟩ := not_reflects hrun
    exact hnot (h lowWater _ w hw)
  · intro h
    have hrun : (Run.exec (Solo.step fullLoad.routine) (Solo.new fullLoad.routine)
        (pressedBoot (load 1))).map
        (fun w => (w.current, w.phase, w.attributes.pressed, w.polls))
        = some (.healthy, .started, true, []) := by decide +kernel
    obtain ⟨w, hw, hnot⟩ := not_reflects hrun
    exact hnot (h fullLoad _ w hw)

/-- Two polls overlap: the storage recovers, and goes low again before the recovery has been
announced. The older poll covers the newer reading. -/
example : (Run.exec (Solo.step lowWater.routine) (Solo.new lowWater.routine)
    [.start, .initialPoll 0 () (free 500), .boot, .poll 1 () (free 50), .resume 1 () {},
      .resume 1 () {}, .poll 2 () (free 500), .poll 3 () (free 50), .resume 3 () {},
      .resume 2 () {}]).map (fun w => (w.current, w.attributes.pressed, w.polls))
    = some (.healthy, true, []) := by
  decide +kernel

end EdgeSentinel.Proofs.Monitoring
