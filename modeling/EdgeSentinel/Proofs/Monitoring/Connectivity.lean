import EdgeSentinel.Proofs.Monitoring.Masking
import EdgeSentinel.Proofs.Monitoring.Settling

/-!
# `EdgeSentinel.Proofs.Monitoring.Connectivity`: the runtime reflects the network

`ReflectsNetwork` says that a runtime with one network monitor is in the state that the last
recorded status calls for, when no poll and no `start` is in progress. The monitor asks for the
state only when the highest layer changes, and it does not ask again. So what the runtime does
not take up is lost: the initial poll asks in INITIALIZING (`offline_boot_looks_healthy`), two
polls can apply their statuses in the other order, and a handler can raise between OFFLINE and
HEALTHY.

`reflectsNetwork_of_terms` proves it for the runs in which none of this happens, or another poll
with the last status is still to come.
-/

set_option autoImplicit false

namespace EdgeSentinel.Proofs.Monitoring

open EdgeSentinel.Core EdgeSentinel.Monitoring

variable {τ : Type} (m : NetworkMonitor)

/-- The state that a status calls for. -/
def calledFor (s : NetworkStatus) : RuntimeState :=
  if s.reachable = m.layers then .healthy
  else if s.reachable = [] then .offline
  else .degraded

/-- Without a poll or a `start` in progress, the state is the one that the last recorded status
calls for. -/
def ReflectsNetwork (w : Solo (Option NetworkStatus) NetworkPoll τ) : Prop :=
  w.polls = [] → w.phase.inStart = false → w.current ∈ [.healthy, .degraded, .offline] →
    ∃ s, w.attributes = some s ∧ w.current = calledFor m s

/-- A poll that resumes brings the runtime where the last status `s` calls for. Before the first
move its own status agrees with `s` as far as it is read. After the hop, a handler has raised if
and only if HEALTHY is not called for. -/
def Concurs (s : NetworkStatus) (a : Answer) : NetworkPoll → Prop
  | .onChange c => s.reachable = m.layers ∨ (c.reachable = [] ↔ s.reachable = [])
  | .hop => a.delivered = true ↔ s.reachable = m.layers

instance (s : NetworkStatus) (a : Answer) : ∀ point, Decidable (Concurs m s a point)
  | .onChange c => inferInstanceAs
      (Decidable (s.reachable = m.layers ∨ (c.reachable = [] ↔ s.reachable = [])))
  | .hop => inferInstanceAs (Decidable (a.delivered = true ↔ s.reachable = m.layers))

/-- `start` ends when every layer is reachable, and a poll concurs with the last status, unless
another poll carries that status. -/
def networkTerms : Terms (Option NetworkStatus) NetworkPoll where
  ready status others := ∃ s ∈ status, s.reachable = m.layers ∨ .onChange s ∈ others
  timely _ status others point a := ∃ s ∈ status, Concurs m s a point ∨ .onChange s ∈ others

instance (status : Option NetworkStatus) (others : List NetworkPoll) :
    Decidable ((networkTerms m).ready status others) :=
  inferInstanceAs (Decidable (∃ s ∈ status, s.reachable = m.layers ∨ .onChange s ∈ others))

instance (state : RuntimeState) (status : Option NetworkStatus) (others : List NetworkPoll)
    (point : NetworkPoll) (a : Answer) :
    Decidable ((networkTerms m).timely state status others point a) :=
  inferInstanceAs (Decidable (∃ s ∈ status, Concurs m s a point ∨ .onChange s ∈ others))

/-- A poll that carries the last status mends the state, and so does the hop to HEALTHY. -/
def networkJudge : Judge (Option NetworkStatus) NetworkPoll where
  managed := RuntimeState.managedByNetwork
  agrees state status := ∃ s, status = some s ∧ state = calledFor m s
  mends state status point := ∃ s, status = some s ∧
    (point = .onChange s ∨ (point = .hop ∧ state ≠ .offline ∧ s.reachable = m.layers))
  attributesOk status := ∀ s, status = some s → s.reachable <+: m.layers
  pointOk _ := True

/-! ### The target of a poll -/

/-- `_apply_to_runtime` asks for what the last status calls for, when its own status agrees with
it as far as it is read. -/
theorem target_eq_calledFor {s c : NetworkStatus} (hpre : s.reachable <+: m.layers)
    (h : s.reachable = m.layers ∨ (c.reachable = [] ↔ s.reachable = [])) :
    m.target (some s) c = calledFor m s := by
  have hnone : c.highestLayer = none ↔ c.reachable = [] := List.getLast?_eq_none_iff
  unfold NetworkMonitor.target calledFor
  by_cases hfull : s.reachable = m.layers
  · rw [if_pos ((isFullyConnected_iff m hpre).mpr hfull), if_pos hfull]
  · rw [if_neg (mt (isFullyConnected_iff m hpre).mp hfull), if_neg hfull]
    have hiff := h.resolve_left hfull
    by_cases hempty : s.reachable = []
    · rw [if_pos (hnone.mpr (hiff.mpr hempty)), if_pos hempty]
    · rw [if_neg fun hc => hempty (hiff.mp (hnone.mp hc)), if_neg hempty]

/-- Between managed states every move is legal, but OFFLINE to HEALTHY. -/
theorem ask_managed {state target : RuntimeState} (h : state ∈ RuntimeState.managedByNetwork)
    (htarget : target ∈ RuntimeState.managedByNetwork)
    (hhop : ¬ (target = .healthy ∧ state = .offline)) :
    StateMachine.ask state target = target := by
  revert h htarget hhop
  cases state <;> cases target <;> decide

theorem calledFor_mem (s : NetworkStatus) : calledFor m s ∈ RuntimeState.managedByNetwork := by
  unfold calledFor
  split
  · decide
  · split <;> decide

/-! ### The parts of a poll -/

/-- The poll of the last status is one of the polls. -/
theorem settled_of_onChange {state : RuntimeState} {s : NetworkStatus}
    {points : List NetworkPoll} (h : .onChange s ∈ points) :
    (networkJudge m).Settled state (some s) points :=
  fun _ => Or.inr ⟨.onChange s, h, s, rfl, Or.inl rfl⟩

theorem settled_of_agrees {state : RuntimeState} {s : NetworkStatus}
    {points : List NetworkPoll} (h : state = calledFor m s) :
    (networkJudge m).Settled state (some s) points :=
  fun _ => Or.inl ⟨s, rfl, h⟩

/-- A new status is carried by its poll, or it is the old one. -/
theorem network_checkOnce_settled (now : τ) (passes : NetworkLayer → Bool)
    {state : RuntimeState} {status : Option NetworkStatus} {others : List NetworkPoll}
    (hpre : ∀ s, status = some s → s.reachable <+: m.layers)
    (h : (networkJudge m).Settled state status others)
    {t : Turn (Option NetworkStatus) NetworkPoll τ}
    (ht : m.checkOnce now passes state status = t) :
    (∀ s, t.attributes = some s → s.reachable <+: m.layers) ∧
      (networkJudge m).Settled t.current t.attributes (t.poll.toList ++ others) := by
  have hnew : m.layers.takeWhile passes <+: m.layers := List.takeWhile_prefix passes
  rcases m.checkOnce_cases now passes state status with heq | ⟨previous, rfl, hlayer, heq⟩
  · obtain rfl := heq.symm.trans ht
    refine ⟨?_, settled_of_onChange m List.mem_cons_self⟩
    rintro s ⟨⟩
    exact hnew
  · obtain rfl := heq.symm.trans ht
    refine ⟨?_, ?_⟩
    · rintro s ⟨⟩
      exact hnew
    · rw [← eq_of_highestLayer m (hpre previous rfl) hnew hlayer]
      exact h

/-- A poll leaves the status when it resumes. -/
theorem resume_attributes (delivered : Bool) (state : RuntimeState)
    (status : Option NetworkStatus) (point : NetworkPoll) :
    (m.resume (τ := τ) delivered state status point).attributes = status := by
  cases point with
  | hop => rfl
  | onChange c =>
    rcases m.resume_cases (τ := τ) delivered state status c with ⟨-, heq⟩ | ⟨-, -, heq⟩ |
      ⟨-, -, -, heq⟩
    all_goals rw [heq]

/-- `_apply_to_runtime` brings the state to the one that is called for, or to the hop. -/
theorem network_apply_settled (delivered : Bool) {state : RuntimeState} {s c : NetworkStatus}
    {others : List NetworkPoll} (htarget : m.target (some s) c = calledFor m s)
    {t : Turn (Option NetworkStatus) NetworkPoll τ}
    (ht : m.resume delivered state (some s) (.onChange c) = t) :
    (networkJudge m).Settled t.current t.attributes (t.poll.toList ++ others) := by
  have hcases := m.resume_cases (τ := τ) delivered state (some s) c
  rw [htarget] at hcases
  rcases hcases with ⟨hstays, heq⟩ | ⟨hhealthy, rfl, heq⟩ | ⟨hmanaged, -, hhop, heq⟩
  · obtain rfl := heq.symm.trans ht
    rcases hstays with hunmanaged | hself
    · exact fun hmanaged => absurd hmanaged hunmanaged
    · exact settled_of_agrees m hself.symm
  · -- The hop: the state comes to DEGRADED first.
    obtain rfl := heq.symm.trans ht
    have hfull : s.reachable = m.layers := by
      unfold calledFor at hhealthy
      split at hhealthy
      · assumption
      · split at hhealthy <;> cases hhealthy
    have hdegraded : RuntimeState.degraded ≠ .offline := by decide
    exact fun _ => Or.inr ⟨.hop, List.mem_cons_self, s, rfl, Or.inr ⟨rfl, hdegraded, hfull⟩⟩
  · obtain rfl := heq.symm.trans ht
    exact settled_of_agrees m (ask_managed hmanaged (calledFor_mem m s) hhop)

/-- After the hop the state comes to HEALTHY, when that is called for and no handler raises. -/
theorem network_hop_settled {delivered : Bool} {state : RuntimeState} {s : NetworkStatus}
    {others : List NetworkPoll}
    (h : (networkJudge m).Settled state (some s) (.hop :: others))
    (hconcurs : delivered = true ↔ s.reachable = m.layers) :
    (networkJudge m).Settled (if delivered then StateMachine.ask state .healthy else state)
      (some s) others := by
  cases delivered with
  | false =>
    -- HEALTHY is not called for, so the hop does not settle the state.
    intro hmanaged
    rcases h hmanaged with hagrees | ⟨p, hp, s', hs', hmends⟩
    · exact Or.inl hagrees
    · cases hs'
      rcases hmends with rfl | ⟨rfl, -, hfull⟩
      · exact settled_of_onChange m ((List.mem_cons.mp hp).resolve_left nofun) hmanaged
      · exact absurd (hconcurs.mpr hfull) nofun
  | true =>
    have hfull := hconcurs.mp rfl
    have hcalled : calledFor m s = .healthy := by rw [calledFor, if_pos hfull]
    by_cases hoffline : state = .offline
    · -- Another poll has moved the state to OFFLINE: HEALTHY is refused.
      subst hoffline
      rcases h (show .offline ∈ RuntimeState.managedByNetwork by decide) with
        ⟨s', hs', hagrees⟩ | ⟨p, hp, s', hs', hmends⟩
      · cases hs'
        rw [hcalled] at hagrees
        cases hagrees
      · cases hs'
        rcases hmends with rfl | ⟨rfl, hne, -⟩
        · exact settled_of_onChange m ((List.mem_cons.mp hp).resolve_left nofun)
        · exact absurd rfl hne
    · rcases ask_eq_or state .healthy with heq | heq
      · rw [if_pos rfl, heq]
        exact settled_of_agrees m hcalled.symm
      · rw [if_pos rfl]
        intro hmanaged
        rw [heq] at hmanaged
        have hhealthy : StateMachine.ask state .healthy = .healthy :=
          ask_managed hmanaged (by decide) fun hhop => hoffline hhop.2
        exact Or.inl ⟨s, rfl, hhealthy.trans hcalled.symm⟩

theorem network_sound : (networkJudge m).Sound (m.routine (τ := τ)) (networkTerms m) where
  managed _ h := h
  initial := nofun
  boot status others _ hready := by
    obtain ⟨s, rfl, hfull | hcarried⟩ := hready
    · exact settled_of_agrees m (by rw [calledFor, if_pos hfull])
    · exact settled_of_onChange m hcarried
  turn now a state status point others hpre hpoint hsettled t ht := by
    have ht : m.turn now a state status point = t := (met_answer _ a).symm.trans ht
    cases point with
    | none =>
      obtain ⟨hpre', hsettled'⟩ := network_checkOnce_settled m now a.passes hpre hsettled ht
      exact ⟨hpre', fun _ _ => trivial, hsettled'⟩
    | some p =>
      obtain ⟨-, s, rfl, htimely⟩ := hpoint p rfl
      have hkept : t.attributes = some s := by
        rw [← ht]
        exact resume_attributes m a.delivered state (some s) p
      refine ⟨by rw [hkept]; exact hpre, fun _ _ => trivial, ?_⟩
      rcases htimely with hconcurs | hcarried
      · cases p with
        | onChange c =>
          have htarget := target_eq_calledFor m (hpre s rfl) hconcurs
          exact network_apply_settled m a.delivered htarget ht
        | hop =>
          rw [← ht]
          exact network_hop_settled m hsettled hconcurs
      · rw [hkept]
        exact settled_of_onChange m (List.mem_append_right _ hcarried)

/-- In every run on the terms, the runtime reflects the network. -/
theorem reflectsNetwork_of_terms (m : NetworkMonitor) (es : List (SoloStep τ))
    (w : Solo (Option NetworkStatus) NetworkPoll τ)
    (hrun : Run.exec (Solo.step m.routine) (Solo.new m.routine) es = some w)
    (hmet : Run.Along (Solo.step m.routine) (networkTerms m).Met (Solo.new m.routine) es) :
    ReflectsNetwork m w := by
  intro hpolls _ hmanaged
  have hsettled := Judge.settled_of_terms (network_sound m) hrun hmet
  rw [hpolls] at hsettled
  exact hsettled.agrees hmanaged

/-! ### Runs of a monitor of the link and of the internet -/

/-- The checks up to a layer pass. -/
def upTo : Option NetworkLayer → Answer
  | none => {}
  | some .internet => { passes := fun _ => true }
  | some layer => { passes := fun l => l = layer }

/-- The runtime starts with a full network. Then everything is lost and comes back. -/
def outage : List (SoloStep Unit) :=
  [.start, .initialPoll 0 () (upTo (some .internet)), .resume 0 () {}, .boot,
    .poll 1 () (upTo none), .resume 1 () {},
    .poll 2 () (upTo (some .internet)), .resume 2 () {}, .resume 2 () {}]

theorem reflectsNetwork_of_terms_outage :
    ∃ w, Run.exec (Solo.step linkAndInternet.routine) (Solo.new linkAndInternet.routine) outage
        = some w ∧ ReflectsNetwork linkAndInternet w ∧ w.current = .healthy := by
  have hrun : (Run.exec (Solo.step linkAndInternet.routine)
      (Solo.new linkAndInternet.routine) outage).map (fun w => w.current) = some .healthy := by
    decide
  obtain ⟨w, hw, hcurrent⟩ := Option.map_eq_some_iff.mp hrun
  exact ⟨w, hw, reflectsNetwork_of_terms linkAndInternet outage w hw (by decide), hcurrent⟩

/-- No layer is reachable when the runtime starts. The initial poll asks for OFFLINE in
INITIALIZING and is not heard. `start` then enters HEALTHY, and the next poll sees no change. -/
theorem offline_boot_looks_healthy :
    ¬ ∀ (m : NetworkMonitor) (es : List (SoloStep Unit))
      (w : Solo (Option NetworkStatus) NetworkPoll Unit),
      Run.exec (Solo.step m.routine) (Solo.new m.routine) es = some w → ReflectsNetwork m w := by
  intro h
  have hrun : (Run.exec (Solo.step linkAndInternet.routine)
      (Solo.new linkAndInternet.routine) [.start, .initialPoll 0 () (upTo none),
        .resume 0 () {}, .boot, .poll 1 () (upTo none)]).map
      (fun w => (w.current, w.phase, w.attributes, w.polls))
      = some (.healthy, .started, some ⟨[]⟩, []) := by decide
  obtain ⟨w, hw, hresult⟩ := Option.map_eq_some_iff.mp hrun
  simp only [Prod.mk.injEq] at hresult
  obtain ⟨hcurrent, hphase, hattributes, hpolls⟩ := hresult
  obtain ⟨s, hs, hcalled⟩ := h linkAndInternet _ w hw hpolls (by rw [hphase]; rfl)
    (by rw [hcurrent]; decide)
  rw [hattributes] at hs
  cases hs
  rw [hcurrent] at hcalled
  cases hcalled

/-- Two polls overlap, and the older one applies its status last: the network is lost, and the
runtime is DEGRADED. -/
example : (Run.exec (Solo.step linkAndInternet.routine) (Solo.new linkAndInternet.routine)
    [.start, .initialPoll 0 () (upTo (some .internet)), .resume 0 () {}, .boot,
      .poll 1 () (upTo (some .link)), .poll 2 () (upTo none), .resume 2 () {},
      .resume 1 () {}]).map (fun w => (w.current, w.attributes, w.polls))
    = some (.degraded, some ⟨[]⟩, []) := by
  decide

end EdgeSentinel.Proofs.Monitoring
