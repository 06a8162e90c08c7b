import EdgeSentinel.Proofs.Monitoring.Polls
import Mathlib.Data.List.Nodup

/-!
# `EdgeSentinel.Proofs.Monitoring.Masking`: monitors that share a runtime mask each other

A monitor moves the state on its own edges. When it recovers it asks for HEALTHY, whatever
the other monitors have seen last; and a monitor that stays unhealthy is silent. So a
recovery can cover an unhealthy monitor (`recovery_masks_network`).

`unmasked_of_run` proves that nothing else can. In every run without such a recovery
(`Fleet.masks`), a HEALTHY state without a poll going on means that the last poll of every
monitor was healthy. The invariant is `Watched`: in HEALTHY, an unhealthy monitor is about
to report.
-/

set_option autoImplicit false

namespace EdgeSentinel.Monitoring

open EdgeSentinel.Core

namespace Member

/-- The member is about to report that it is unhealthy. -/
def isAlarming : Member → Bool
  | network m status (some (.onChange _)) => !m.isFullyConnected status
  | network _ _ _ => false
  | storage _ _ poll => poll = some .onPressed
  | metrics _ _ poll => poll = some .onPressed

/-- The last poll of the member was unhealthy, and the member is not about to report it. -/
def isMuted (m : Member) : Bool := !m.isHealthy && !m.isAlarming

/-- The next part of the member's poll moves the state to HEALTHY. -/
def recovers (state : RuntimeState) (a : Answer) : Member → Bool
  | network m status (some (.onChange _)) => m.isFullyConnected status && state = .degraded
  | network _ _ (some .hop) => a.delivered && decide (.healthy ∈ state.transitions)
  | network _ _ none => false
  | storage _ _ poll => decide (poll = some .onRecovered) && state = .degraded
  | metrics _ _ poll => decide (poll = some .onRecovered) && state = .degraded

end Member

/-- The next part of the poll moves the state to HEALTHY, while another member is muted. -/
def Fleet.masks {τ : Type} (w : Fleet τ) (e : Advance τ) : Bool :=
  w.members[e.position]?.any (·.recovers w.current e.answer) &&
    w.members.zipIdx.any fun entry => entry.2 != e.position && entry.1.isMuted

end EdgeSentinel.Monitoring

namespace EdgeSentinel.Proofs.Monitoring

open EdgeSentinel.Core EdgeSentinel.Monitoring

variable {τ : Type}

/-- What one part of a poll keeps, where `state` is the runtime state before it, `t` the
member after it, and `m` the member before it. -/
structure Keeps (state : RuntimeState) (a : Answer) (m : Member) (t : MemberTurn τ) : Prop where
  /-- In HEALTHY the member is not muted. -/
  reports : (state = .healthy → m.isMuted = false) → t.current = .healthy →
    t.member.isMuted = false
  /-- Only a recovery moves the state to HEALTHY. -/
  moves : state ≠ .healthy → t.current = .healthy → m.recovers state a = true

/-! ### Pressure monitors -/

/-- What the await of a poll says about the gauge. -/
def PressureOk {σ : Type} (g : Gauge σ) (poll : Option PressurePoll) : Prop :=
  (poll = some .onRecovered → g.pressed = false) ∧ ∀ k, poll = some (.acting k) → g.pressed = true

/-- No move of a pressure monitor to DEGRADED or to FAILED ends in HEALTHY. -/
theorem applyToRuntime_degraded_ne (state : RuntimeState) :
    StateMachine.applyToRuntime RuntimeState.managedByPressure state .degraded ≠ .healthy := by
  cases state <;> decide

theorem escalate_ne (state : RuntimeState) : StateMachine.escalate state ≠ .healthy := by
  cases state <;> decide

/-- A move to HEALTHY comes from DEGRADED. -/
theorem eq_degraded_of_applyToRuntime {state : RuntimeState} (hne : state ≠ .healthy)
    (h : StateMachine.applyToRuntime RuntimeState.managedByPressure state .healthy = .healthy) :
    state = .degraded := by
  cases state <;> revert hne h <;> decide

section
variable {σ : Type} (p : PressureMonitor σ τ)

/-- The loop of actions leaves the gauge and the state. -/
theorem nextAction_spec (now : τ) (state : RuntimeState) (g : Gauge σ) (k : Nat) :
    (p.nextAction now state g k).current = state ∧
      (p.nextAction now state g k).attributes = g ∧
        PressureOk (p.nextAction now state g k).attributes (p.nextAction now state g k).poll := by
  rcases p.nextAction_cases now state g k with ⟨hclear, heq⟩ | ⟨hpressed, -, heq⟩ |
    ⟨-, -, -, heq⟩ | ⟨-, -, heq⟩
  · rw [heq]
    exact ⟨rfl, rfl, fun _ => hclear, nofun⟩
  · rw [heq]
    exact ⟨rfl, rfl, nofun, fun _ _ => hpressed⟩
  · rw [heq]
    exact ⟨rfl, rfl, nofun, nofun⟩
  · rw [heq]
    exact ⟨rfl, rfl, nofun, nofun⟩

/-- One part of a poll of a pressure monitor. -/
theorem pressure_turn_spec (now : τ) (reading : Option σ) (state : RuntimeState) {g : Gauge σ}
    {poll : Option PressurePoll} (h : PressureOk g poll) :
    PressureOk (p.turn now reading state g poll).attributes
        (p.turn now reading state g poll).poll ∧
      ((state = .healthy → g.pressed = false ∨ poll = some .onPressed) →
        (p.turn now reading state g poll).current = .healthy →
          (p.turn now reading state g poll).attributes.pressed = false ∨
            (p.turn now reading state g poll).poll = some .onPressed) ∧
      (state ≠ .healthy → (p.turn now reading state g poll).current = .healthy →
        poll = some .onRecovered ∧ state = .degraded) := by
  unfold PressureMonitor.turn
  cases poll with
  | none =>
    dsimp only
    rcases p.checkOnce_cases now reading state g with ⟨-, heq⟩ | ⟨status, -, ⟨-, -, heq⟩ |
      ⟨hclear, -, heq⟩ | ⟨hsame, heq⟩⟩
    · rw [heq]
      exact ⟨h, fun hquiet => hquiet, fun hne heq => absurd heq hne⟩
    · rw [heq]
      exact ⟨by simp [PressureOk], fun _ _ => Or.inr rfl, fun hne heq => absurd heq hne⟩
    · rw [heq]
      exact ⟨by simp [PressureOk, hclear], fun _ _ => Or.inl hclear, fun hne heq => absurd heq hne⟩
    · -- Without an edge the gauge was as it is now.
      rw [heq, hsame]
      exact ⟨by simp [PressureOk], fun hquiet heq => by simpa using hquiet heq,
        fun hne heq => absurd heq hne⟩
  | some poll =>
    cases poll with
    | onPressed =>
      -- The report of the pressure itself: HEALTHY is left.
      have hne := applyToRuntime_degraded_ne state
      unfold PressureMonitor.resume
      dsimp only
      split
      · rename_i hstays
        obtain ⟨hcurrent, -, hok⟩ := nextAction_spec p now state g 0
        rw [hstays, ← hcurrent] at hne
        exact ⟨hok, fun _ heq => absurd heq hne, fun _ heq => absurd heq hne⟩
      · exact ⟨by simp [PressureOk], fun _ heq => absurd heq hne, fun _ heq => absurd heq hne⟩
    | degrading =>
      obtain ⟨hcurrent, hgauge, hok⟩ := nextAction_spec p now state g 0
      refine ⟨hok, fun hquiet heq => ?_, fun hne heq => absurd (hcurrent ▸ heq) hne⟩
      have hclear : g.pressed = false := by simpa using hquiet (hcurrent ▸ heq)
      left
      show (p.nextAction now state g 0).attributes.pressed = false
      rw [hgauge]
      exact hclear
    | acting k =>
      have hpressed := h.2 k rfl
      -- While actions are awaited the gauge is pressed, so the state is not HEALTHY.
      have hstate : (state = .healthy → g.pressed = false ∨
          some (PressurePoll.acting k) = some PressurePoll.onPressed) → state ≠ .healthy := by
        intro hquiet heq
        simpa [hpressed] using hquiet heq
      unfold PressureMonitor.resume
      cases reading with
      | none =>
        exact ⟨by simp [PressureOk], fun hquiet heq => absurd heq (hstate hquiet),
          fun hne heq => absurd heq hne⟩
      | some status =>
        obtain ⟨hcurrent, -, hok⟩ := nextAction_spec p now state
          ⟨some status, p.isPressed status⟩ (k + 1)
        refine ⟨hok, fun hquiet heq => ?_, fun hne heq => ?_⟩
        · exact absurd (hcurrent ▸ heq) (hstate hquiet)
        · exact absurd (hcurrent ▸ heq) hne
    | onRecovered =>
      refine ⟨by simp [PressureMonitor.resume, PressureOk], fun _ _ => Or.inl (h.1 rfl), ?_⟩
      intro hne heq
      exact ⟨rfl, eq_degraded_of_applyToRuntime hne heq⟩
    | onExhausted =>
      have hne := escalate_ne state
      exact ⟨by simp [PressureMonitor.resume, PressureOk], fun _ heq => absurd heq hne,
        fun _ heq => absurd heq hne⟩

end

/-! ### Network monitors -/

/-- A prefix of a list without duplicates that ends as the list does is the whole list. -/
theorem eq_of_prefix_of_getLast? {α : Type} {l l' : List α} (hl : l.Nodup) (h : l' <+: l)
    (hlast : l'.getLast? = l.getLast?) : l' = l := by
  obtain ⟨rest, rfl⟩ := h
  cases hrest : rest.getLast? with
  | none =>
    rw [List.getLast?_eq_none_iff] at hrest
    rw [hrest, List.append_nil]
  | some x =>
    rw [List.getLast?_append, hrest] at hlast
    have hmem : x ∈ l' := List.mem_of_getLast? hlast
    have hmem' : x ∈ rest := List.mem_of_getLast? hrest
    exact absurd hmem' (List.disjoint_of_nodup_append hl hmem)

/-- What the await of a poll says about the status. -/
structure NetworkOk (m : NetworkMonitor) (status : Option NetworkStatus)
    (poll : Option NetworkPoll) : Prop where
  isPrefix : ∀ s, status = some s → s.reachable <+: m.layers
  onChange : ∀ s, poll = some (.onChange s) → status = some s
  hop : poll = some .hop → m.isFullyConnected status = true

section
variable (m : NetworkMonitor)

theorem nodup_layers : m.layers.Nodup :=
  List.Nodup.filter m.checks (by decide)

/-- A monitor is fully connected when every configured layer is reachable. -/
theorem isFullyConnected_iff {s : NetworkStatus} (h : s.reachable <+: m.layers) :
    m.isFullyConnected (some s) = true ↔ s.reachable = m.layers := by
  have hlen : m.isFullyConnected (some s) = true ↔ s.reachable.length = m.layers.length := by
    simp [NetworkMonitor.isFullyConnected]
  rw [hlen]
  exact ⟨h.eq_of_length, fun heq => by rw [heq]⟩

/-- A status with the highest layer of another one is the same status. -/
theorem eq_of_highestLayer {s s' : NetworkStatus} (h : s.reachable <+: m.layers)
    (h' : s'.reachable <+: m.layers) (hlayer : s.highestLayer = s'.highestLayer) : s = s' := by
  have hreachable : s.reachable = s'.reachable := by
    rcases List.prefix_or_prefix_of_prefix h h' with hle | hle
    · exact eq_of_prefix_of_getLast? (h'.sublist.nodup (nodup_layers m)) hle hlayer
    · exact (eq_of_prefix_of_getLast? (h.sublist.nodup (nodup_layers m)) hle hlayer.symm).symm
  cases s
  cases s'
  exact congrArg NetworkStatus.mk hreachable

/-- The highest layer tells a fully connected status from any other. -/
theorem isFullyConnected_congr {s s' : NetworkStatus} (h : s.reachable <+: m.layers)
    (h' : s'.reachable <+: m.layers) (hlayer : s.highestLayer = s'.highestLayer)
    (hfull : m.isFullyConnected (some s) = true) : m.isFullyConnected (some s') = true := by
  rw [← eq_of_highestLayer m h h' hlayer]
  exact hfull

/-- A move to HEALTHY that takes effect is legal. -/
theorem mem_transitions_of_ask {state : RuntimeState} (hne : state ≠ .healthy)
    (h : StateMachine.ask state .healthy = .healthy) : .healthy ∈ state.transitions := by
  cases state <;> revert hne h <;> decide

/-- A move of an unhealthy network does not end in HEALTHY. -/
theorem ask_ne_healthy {state target : RuntimeState}
    (hmanaged : state ∈ RuntimeState.managedByNetwork)
    (htarget : target = .offline ∨ target = .degraded) :
    StateMachine.ask state target ≠ .healthy := by
  rcases htarget with rfl | rfl <;> cases state <;> revert hmanaged <;> decide

theorem target_of_full {status : Option NetworkStatus} (s : NetworkStatus)
    (h : m.isFullyConnected status = true) : m.target status s = .healthy := by
  rw [NetworkMonitor.target, if_pos h]

theorem target_of_not_full {status : Option NetworkStatus} (s : NetworkStatus)
    (h : m.isFullyConnected status = false) :
    m.target status s = .offline ∨ m.target status s = .degraded := by
  rw [NetworkMonitor.target, h, if_neg (by simp)]
  split
  · exact Or.inl rfl
  · exact Or.inr rfl

theorem network_checkOnce_spec (now : τ) (passes : NetworkLayer → Bool) (state : RuntimeState)
    {status : Option NetworkStatus} (h : NetworkOk m status none) :
    NetworkOk m (m.checkOnce now passes state status).attributes
        (m.checkOnce now passes state status).poll ∧
      (m.checkOnce now passes state status).current = state ∧
      (m.isFullyConnected status = true →
        m.isFullyConnected (m.checkOnce now passes state status).attributes = true ∨
          ∃ s, (m.checkOnce now passes state status).poll = some (.onChange s)) := by
  have hpre : m.layers.takeWhile passes <+: m.layers := List.takeWhile_prefix passes
  -- The highest layer has changed, or it is the same as at the last poll.
  rcases m.checkOnce_cases now passes state status with heq | ⟨previous, rfl, hlayer, heq⟩
  · rw [heq]
    refine ⟨⟨?_, ?_, ?_⟩, rfl, fun _ => Or.inr ⟨_, rfl⟩⟩
    · rintro s ⟨⟩
      exact hpre
    · rintro s ⟨⟩
      rfl
    · intro hhop
      cases hhop
  · rw [heq]
    refine ⟨⟨?_, ?_, ?_⟩, rfl, fun hfull => Or.inl ?_⟩
    · rintro s ⟨⟩
      exact hpre
    · rintro s ⟨⟩
    · intro hhop
      cases hhop
    · exact isFullyConnected_congr m (h.isPrefix previous rfl) hpre hlayer hfull

theorem isMuted_of_full {status : Option NetworkStatus} (h : m.isFullyConnected status = true)
    (poll : Option NetworkPoll) : (Member.network m status poll).isMuted = false := by
  simp [Member.isMuted, Member.isHealthy, h]

theorem isMuted_of_onChange (status : Option NetworkStatus) (s : NetworkStatus) :
    (Member.network m status (some (.onChange s))).isMuted = false := by
  simp [Member.isMuted, Member.isHealthy, Member.isAlarming]

/-- The move of a poll that has published its change. -/
theorem network_resume_spec (delivered : Bool) {state : RuntimeState}
    {status : Option NetworkStatus} {s : NetworkStatus}
    {t : Turn (Option NetworkStatus) NetworkPoll τ}
    (ht : m.resume delivered state status (.onChange s) = t)
    (hpre : ∀ s, status = some s → s.reachable <+: m.layers) :
    NetworkOk m t.attributes t.poll ∧ t.attributes = status ∧
      (t.current = .healthy →
        m.isFullyConnected status = true ∧ (state ≠ .healthy → state = .degraded)) := by
  have hover : NetworkOk m status none := ⟨hpre, by simp, by simp⟩
  have hfull (htarget : m.target status s = .healthy) : m.isFullyConnected status = true := by
    by_contra hnot
    rcases target_of_not_full m s (Bool.eq_false_iff.mpr hnot) with hoffline | hdegraded
    · rw [hoffline] at htarget
      cases htarget
    · rw [hdegraded] at htarget
      cases htarget
  rcases m.resume_cases (τ := τ) delivered state status s with ⟨hstays, heq⟩ |
    ⟨hhealthy, rfl, heq⟩ | ⟨hmanaged, -, hhop, heq⟩
  · obtain rfl := heq.symm.trans ht
    refine ⟨hover, rfl, fun hhealthy => ?_⟩
    obtain rfl : state = .healthy := hhealthy
    rcases hstays with hunmanaged | hself
    · exact absurd (by decide) hunmanaged
    · exact ⟨hfull hself, fun hne => absurd rfl hne⟩
  · -- The hop: the state comes to DEGRADED first.
    obtain rfl := heq.symm.trans ht
    refine ⟨⟨hpre, by simp, fun _ => hfull hhealthy⟩, rfl, fun hcurrent => ?_⟩
    cases hcurrent
  · obtain rfl := heq.symm.trans ht
    refine ⟨hover, rfl, fun hcurrent => ?_⟩
    cases hconnected : m.isFullyConnected status with
    | false =>
      -- The target is OFFLINE or DEGRADED.
      exact absurd hcurrent (ask_ne_healthy hmanaged (target_of_not_full m s hconnected))
    | true =>
      rw [target_of_full m s hconnected] at hhop
      refine ⟨rfl, fun hne => ?_⟩
      cases state <;> simp_all [RuntimeState.managedByNetwork]

/-- One part of a poll of a network monitor. -/
theorem network_turn_spec (now : τ) (a : Answer) (state : RuntimeState)
    {status : Option NetworkStatus} {poll : Option NetworkPoll} (h : NetworkOk m status poll) :
    NetworkOk m (m.turn now a state status poll).attributes
        (m.turn now a state status poll).poll ∧
      Keeps state a (.network m status poll)
        ((Member.network m status poll).turn now a state) := by
  rw [turn_network]
  cases poll with
  | none =>
    obtain ⟨hok, hcurrent, hreport⟩ := network_checkOnce_spec m now a.passes state h
    refine ⟨hok, fun hquiet heq => ?_, fun hne heq => absurd (hcurrent ▸ heq) hne⟩
    have hfull : m.isFullyConnected status = true := by
      simpa [Member.isMuted, Member.isHealthy, Member.isAlarming] using hquiet (hcurrent ▸ heq)
    -- A status that is not full any more is about to be reported.
    rcases hreport hfull with hfull' | ⟨s, hpoll⟩
    · exact isMuted_of_full m hfull' _
    · show (Member.network m _ (m.checkOnce now a.passes state status).poll).isMuted = false
      rw [hpoll]
      exact isMuted_of_onChange m _ s
  | some poll =>
    cases poll with
    | onChange s =>
      -- The state is HEALTHY afterwards only when the status is full.
      obtain ⟨hok, hattributes, hmoves⟩ := network_resume_spec m a.delivered rfl h.isPrefix
      refine ⟨hok, fun _ heq => ?_, fun hne heq => ?_⟩
      · show (Member.network m (m.resume a.delivered state status (.onChange s)).attributes
          _).isMuted = false
        rw [hattributes]
        exact isMuted_of_full m (hmoves heq).1 _
      · obtain ⟨hfull, hstate⟩ := hmoves heq
        simp [Member.recovers, hfull, hstate hne]
    | hop =>
      have hfull := h.hop rfl
      refine ⟨⟨h.isPrefix, by simp [NetworkMonitor.turn, NetworkMonitor.resume],
        by simp [NetworkMonitor.turn, NetworkMonitor.resume]⟩,
        fun _ _ => isMuted_of_full m hfull _, fun hne heq => ?_⟩
      have heq' : (if a.delivered then StateMachine.ask state .healthy else state) = .healthy := heq
      cases hdelivered : a.delivered with
      | false =>
        rw [hdelivered, if_neg (by simp)] at heq'
        exact absurd heq' hne
      | true =>
        rw [hdelivered, if_pos rfl] at heq'
        simp [Member.recovers, hdelivered, mem_transitions_of_ask hne heq']

end

/-! ### The fleet -/

/-- What the await of a member's poll says about its attributes. -/
def MemberOk : Member → Prop
  | .network m status poll => NetworkOk m status poll
  | .storage _ g poll => PressureOk g poll
  | .metrics _ g poll => PressureOk g poll

theorem isMuted_storage (m : StorageMonitor) (g : Gauge StorageStatus)
    (poll : Option PressurePoll) :
    (Member.storage m g poll).isMuted = false ↔ g.pressed = false ∨ poll = some .onPressed := by
  cases hg : g.pressed <;> simp [Member.isMuted, Member.isHealthy, Member.isAlarming, hg]

theorem isMuted_metrics (m : MetricsMonitor) (g : Gauge HardwareStatus)
    (poll : Option PressurePoll) :
    (Member.metrics m g poll).isMuted = false ↔ g.pressed = false ∨ poll = some .onPressed := by
  cases hg : g.pressed <;> simp [Member.isMuted, Member.isHealthy, Member.isAlarming, hg]

/-- One part of a poll of a member. -/
theorem member_turn_spec (now : τ) (a : Answer) (state : RuntimeState) {m : Member}
    (h : MemberOk m) :
    MemberOk (m.turn now a state).member ∧ Keeps state a m (m.turn now a state) := by
  cases m with
  | network m status poll =>
    have hspec := network_turn_spec m now a state h
    rw [turn_network] at hspec ⊢
    exact hspec
  | storage m g poll =>
    rw [turn_storage]
    obtain ⟨hok, hreports, hmoves⟩ := pressure_turn_spec (τ := τ) m.pressure now a.usage state h
    refine ⟨hok, fun hquiet heq => ?_, fun hne heq => ?_⟩
    · exact (isMuted_storage m _ _).mpr
        (hreports (fun hstate => (isMuted_storage m g poll).mp (hquiet hstate)) heq)
    · simpa [Member.recovers] using hmoves hne heq
  | metrics m g poll =>
    rw [turn_metrics]
    obtain ⟨hok, hreports, hmoves⟩ := pressure_turn_spec (τ := τ) m.pressure now a.metrics state h
    refine ⟨hok, fun hquiet heq => ?_, fun hne heq => ?_⟩
    · exact (isMuted_metrics m _ _).mpr
        (hreports (fun hstate => (isMuted_metrics m g poll).mp (hquiet hstate)) heq)
    · simpa [Member.recovers] using hmoves hne heq

/-- In HEALTHY no member is muted, and the polls are as their awaits say. -/
structure Watched (w : Fleet τ) : Prop where
  ok : ∀ m ∈ w.members, MemberOk m
  reports : w.current = .healthy → ∀ m ∈ w.members, m.isMuted = false

/-- After a part of a poll a member is the one that made it, or it is as it was. -/
theorem mem_advanced {w : Fleet τ} {e : Advance τ} {m m' : Member}
    (hget : w.members[e.position]? = some m) (h : m' ∈ (w.advanced e m).members) :
    m' = (m.turn e.now e.answer w.current).member ∨
      ∃ j, j ≠ e.position ∧ w.members[j]? = some m' := by
  obtain ⟨j, hj⟩ := List.mem_iff_getElem?.mp h
  have hset : (w.members.set e.position (m.turn e.now e.answer w.current).member)[j]?
      = some m' := hj
  by_cases hje : e.position = j
  · subst hje
    rw [List.getElem?_set_self (List.getElem?_eq_some_iff.mp hget).1] at hset
    exact Or.inl (Option.some.inj hset).symm
  · rw [List.getElem?_set_ne hje] at hset
    exact Or.inr ⟨j, Ne.symm hje, hset⟩

/-- When a recovery masks nobody, the other members are not muted. -/
theorem not_muted_of_masks {w : Fleet τ} {e : Advance τ} {m m' : Member} {j : Nat}
    (hget : w.members[e.position]? = some m) (hmasks : w.masks e = false)
    (hrecovers : m.recovers w.current e.answer = true) (hne : j ≠ e.position)
    (hget' : w.members[j]? = some m') : m'.isMuted = false := by
  have hall : (w.members.zipIdx.any fun entry => entry.2 != e.position && entry.1.isMuted)
      = false := by
    simpa [Fleet.masks, hget, hrecovers] using hmasks
  rw [List.any_eq_false] at hall
  have hmem : (m', j) ∈ w.members.zipIdx := List.mem_zipIdx_iff_getElem?.mpr hget'
  simpa [hne] using hall (m', j) hmem

/-- A part of a poll that does not mask a member keeps `Watched`. -/
theorem Watched.step {w w' : Fleet τ} {e : Advance τ} (h : Watched w)
    (hstep : w.step e = some w') (hmasks : w.masks e = false) : Watched w' := by
  obtain ⟨m, hget, rfl⟩ := Option.map_eq_some_iff.mp hstep
  have hmem : m ∈ w.members := List.mem_of_getElem? hget
  obtain ⟨hok, hkeeps⟩ := member_turn_spec e.now e.answer w.current (h.ok m hmem)
  constructor
  · intro m' hm'
    rcases mem_advanced hget hm' with rfl | ⟨j, -, hj⟩
    · exact hok
    · exact h.ok m' (List.mem_of_getElem? hj)
  · intro hhealthy m' hm'
    rcases mem_advanced hget hm' with rfl | ⟨j, hne, hj⟩
    · exact hkeeps.reports (fun heq => h.reports heq m hmem) hhealthy
    · by_cases heq : w.current = .healthy
      · exact h.reports heq m' (List.mem_of_getElem? hj)
      · -- A recovery: it masks nobody.
        exact not_muted_of_masks hget hmasks (hkeeps.moves heq hhealthy) hne hj

/-- The monitor has made one poll, and it was healthy. -/
def SawHealthy : Member → Prop
  | .network m status poll => status = some ⟨m.layers⟩ ∧ poll = none
  | .storage m g poll => (∃ usage, m.isLow usage = false ∧ g = ⟨some usage, false⟩) ∧ poll = none
  | .metrics m g poll => (∃ status, m.isHigh status = false ∧ g = ⟨some status, false⟩) ∧ poll = none

/-- A HEALTHY runtime whose monitors all saw a healthy first poll. -/
structure Initial (w : Fleet τ) : Prop where
  healthy : w.current = .healthy
  polled : ∀ m ∈ w.members, SawHealthy m

/-- When no poll is going on and the state is HEALTHY, the last poll of every monitor was
healthy. -/
def Unmasked (w : Fleet τ) : Prop :=
  (∀ m ∈ w.members, m.isPolling = false) → w.current = .healthy →
    ∀ m ∈ w.members, m.isHealthy = true

/-- No recovery masks a muted member. -/
def NoMask (w : Fleet τ) (e : Advance τ) (_ : Fleet τ) : Prop := w.masks e = false

instance (w : Fleet τ) (e : Advance τ) (w' : Fleet τ) : Decidable (NoMask w e w') :=
  inferInstanceAs (Decidable (w.masks e = false))

theorem SawHealthy.ok {m : Member} (h : SawHealthy m) : MemberOk m ∧ m.isMuted = false := by
  cases m with
  | network m status poll =>
    obtain ⟨rfl, rfl⟩ := h
    refine ⟨⟨?_, by simp, by simp⟩, isMuted_of_full m ?_ none⟩
    · rintro s ⟨⟩
      exact List.prefix_refl _
    · exact (isFullyConnected_iff m (List.prefix_refl _)).mpr rfl
  | storage m g poll =>
    obtain ⟨⟨usage, -, rfl⟩, rfl⟩ := h
    exact ⟨⟨by simp, by simp⟩, (isMuted_storage m _ none).mpr (Or.inl rfl)⟩
  | metrics m g poll =>
    obtain ⟨⟨status, -, rfl⟩, rfl⟩ := h
    exact ⟨⟨by simp, by simp⟩, (isMuted_metrics m _ none).mpr (Or.inl rfl)⟩

theorem Initial.watched {w : Fleet τ} (h : Initial w) : Watched w where
  ok m hm := (h.polled m hm).ok.1
  reports _ m hm := (h.polled m hm).ok.2

/-- Only a member with a poll going on is about to report. -/
theorem isHealthy_of_not_muted {m : Member} (hpolling : m.isPolling = false)
    (hmuted : m.isMuted = false) : m.isHealthy = true := by
  cases m with
  | network m status poll =>
    cases poll with
    | none => simpa [Member.isMuted, Member.isAlarming] using hmuted
    | some poll => cases hpolling
  | storage m g poll =>
    cases poll with
    | none => simpa [Member.isMuted, Member.isAlarming] using hmuted
    | some poll => cases hpolling
  | metrics m g poll =>
    cases poll with
    | none => simpa [Member.isMuted, Member.isAlarming] using hmuted
    | some poll => cases hpolling

theorem Watched.unmasked {w : Fleet τ} (h : Watched w) : Unmasked w := by
  intro hidle hhealthy m hm
  exact isHealthy_of_not_muted (hidle m hm) (h.reports hhealthy m hm)

/-- In every run without a recovery that masks a muted member, the monitors do not mask each
other. -/
theorem unmasked_of_run {w t : Fleet τ} {es : List (Advance τ)} (hinit : Initial w)
    (hrun : Run.exec Fleet.step w es = some t) (hmask : Run.Along Fleet.step NoMask w es) :
    Unmasked t := by
  have hwatched : Watched t :=
    Run.exec_invariant Watched (fun _ _ _ h hstep hmasks => h.step hstep hmasks) es w t
      hinit.watched hrun hmask
  exact hwatched.unmasked

/-- A recovery ends the poll in HEALTHY. -/
theorem turn_of_recovers (now : τ) {a : Answer} {state : RuntimeState} {m : Member}
    (h : m.recovers state a = true) :
    (m.turn now a state).current = .healthy ∧ (m.turn now a state).member.isPolling = false := by
  cases m with
  | network m status poll =>
    rw [turn_network]
    cases poll with
    | none => cases h
    | some poll =>
      cases poll with
      | onChange s =>
        obtain ⟨hfull, rfl⟩ : m.isFullyConnected status = true ∧ state = .degraded := by
          simpa [Member.recovers] using h
        simp only [NetworkMonitor.turn, NetworkMonitor.resume,
          target_of_full m s hfull]
        exact ⟨rfl, rfl⟩
      | hop =>
        obtain ⟨hdelivered, hmem⟩ : a.delivered = true ∧ .healthy ∈ state.transitions := by
          simpa [Member.recovers] using h
        have hask : StateMachine.ask state .healthy = .healthy := by
          rw [StateMachine.ask, StateMachine.transition_of_mem hmem]
        refine ⟨?_, rfl⟩
        show (if a.delivered then StateMachine.ask state .healthy else state) = .healthy
        rw [if_pos hdelivered, hask]
  | storage m g poll =>
    obtain ⟨rfl, rfl⟩ : poll = some .onRecovered ∧ state = .degraded := by
      simpa [Member.recovers] using h
    rw [turn_storage]
    exact ⟨rfl, rfl⟩
  | metrics m g poll =>
    obtain ⟨rfl, rfl⟩ : poll = some .onRecovered ∧ state = .degraded := by
      simpa [Member.recovers] using h
    rw [turn_metrics]
    exact ⟨rfl, rfl⟩

/-- The condition of `unmasked_of_run` is sharp: a recovery that masks a member while no
other poll is going on breaks the property. -/
theorem not_unmasked_of_masks {w w' : Fleet τ} {e : Advance τ} (hstep : w.step e = some w')
    (hmasks : w.masks e = true)
    (hothers : ∀ j m, j ≠ e.position → w.members[j]? = some m → m.isPolling = false) :
    ¬ Unmasked w' := by
  obtain ⟨m, hget, rfl⟩ := Option.map_eq_some_iff.mp hstep
  obtain ⟨hrecovers, m', j, hget', hne, hmuted⟩ : m.recovers w.current e.answer = true ∧
      ∃ m' j, w.members[j]? = some m' ∧ j ≠ e.position ∧ m'.isMuted = true := by
    simpa [Fleet.masks, hget, List.mem_zipIdx_iff_getElem?] using hmasks
  obtain ⟨hhealthy, hidle⟩ := turn_of_recovers e.now hrecovers
  intro hunmasked
  have hall : ∀ m'' ∈ (w.advanced e m).members, m''.isPolling = false := by
    intro m'' hm''
    rcases mem_advanced hget hm'' with rfl | ⟨i, hne', hi⟩
    · exact hidle
    · exact hothers i m'' hne' hi
  have hmem : m' ∈ (w.advanced e m).members := by
    refine List.mem_iff_getElem?.mpr ⟨j, ?_⟩
    show (w.members.set e.position _)[j]? = some m'
    rw [List.getElem?_set_ne (Ne.symm hne), hget']
  have hpolled := hunmasked hall hhealthy m' hmem
  simp [Member.isMuted, hpolled] at hmuted

/-! ### A network monitor and a storage monitor -/

/-- A monitor of the link and of the internet. -/
def linkAndInternet : NetworkMonitor where
  checks layer := layer = .link || layer = .internet
  checks_nonempty := ⟨.link, by decide⟩

def lowWater : StorageMonitor where
  path := "/data"
  lowWaterBytes := 100

/-- The two monitors after healthy first polls. -/
def bothHealthy : Fleet Unit where
  current := .healthy
  members := [.network linkAndInternet (some ⟨[.link, .internet]⟩) none,
    .storage lowWater ⟨some ⟨500, none⟩, false⟩ none]

theorem initial_bothHealthy : Initial bothHealthy where
  healthy := rfl
  polled m hm := by
    simp only [bothHealthy, List.mem_cons, List.not_mem_nil, or_false] at hm
    rcases hm with rfl | rfl
    · exact ⟨by decide, rfl⟩
    · exact ⟨⟨⟨500, none⟩, by decide, rfl⟩, rfl⟩

/-- The internet is lost and comes back, each with the move that follows. -/
def networkOnly : List (Advance Unit) :=
  [⟨0, { passes := fun layer => layer = .link }, ()⟩, ⟨0, {}, ()⟩,
    ⟨0, { passes := fun _ => true }, ()⟩, ⟨0, {}, ()⟩]

/-- The internet is lost; then storage goes low and recovers. -/
def storageRecovers : List (Advance Unit) :=
  [⟨0, { passes := fun layer => layer = .link }, ()⟩, ⟨0, {}, ()⟩,
    ⟨1, { usage := some ⟨50, none⟩ }, ()⟩, ⟨1, {}, ()⟩,
    ⟨1, { usage := some ⟨500, none⟩ }, ()⟩, ⟨1, {}, ()⟩]

theorem unmasked_of_run_networkOnly :
    ∃ t, Run.exec Fleet.step bothHealthy networkOnly = some t ∧ Unmasked t := by
  have hmask : Run.Along Fleet.step NoMask bothHealthy networkOnly := by decide
  exact ⟨_, rfl, unmasked_of_run initial_bothHealthy rfl hmask⟩

/-- The recovery of the storage makes the runtime HEALTHY while the internet is lost. -/
theorem recovery_masks_network :
    ¬ ∀ (w t : Fleet Unit) (es : List (Advance Unit)), Initial w →
      Run.exec Fleet.step w es = some t → Unmasked t := by
  intro h
  have hrun : (Run.exec Fleet.step bothHealthy storageRecovers).map (fun t =>
      (t.current, t.members.all (fun m => !m.isPolling), t.members.all (·.isHealthy)))
      = some (.healthy, true, false) := by decide
  obtain ⟨t, hexec, ht⟩ := Option.map_eq_some_iff.mp hrun
  obtain ⟨hhealthy, hidle, hpolled⟩ : t.current = .healthy ∧
      t.members.all (fun m => !m.isPolling) = true ∧ t.members.all (·.isHealthy) = false := by
    simpa only [Prod.mk.injEq] using ht
  have hunmasked := h bothHealthy t storageRecovers initial_bothHealthy hexec
  have hall : t.members.all (·.isHealthy) = true := by
    refine List.all_eq_true.mpr (hunmasked (fun m hm => ?_) hhealthy)
    simpa using List.all_eq_true.mp hidle m hm
  rw [hall] at hpolled
  cases hpolled

end EdgeSentinel.Proofs.Monitoring
