import EdgeSentinel.Monitoring.Solo
import EdgeSentinel.Proofs.Core.Publication

/-!
# `EdgeSentinel.Proofs.Monitoring.Polls`: what comes of the publications of a poll

An exception of `publish` would end a poll. None comes from handlers that return awaitables, as
those of an `Answer` do, so there a part of a poll is what `Monitors.lean` says
(`met_answer`, `turn_network` and the others).
-/

set_option autoImplicit false

namespace EdgeSentinel.Proofs.Monitoring

open EdgeSentinel.Core
open EdgeSentinel.Monitoring

variable {α β τ : Type}

/-- A publication that meets awaitables changes nothing. -/
theorem met_of_awaitables (t : Turn α β τ) {audience : Audience String}
    (h : audience.Awaitables) : t.met audience = t := by
  have hall : (t.published.all fun e => (audience.raised e).isNone) = true := by
    rw [List.all_eq_true]
    intro e _
    rw [(Core.raised_eq_none_iff audience e).mpr h]
    rfl
  rw [Turn.met, if_pos hall]

@[simp] theorem met_answer (t : Turn α β τ) (a : Answer) : t.met a.audience = t :=
  met_of_awaitables t a.awaitables

section
variable (now : τ) (a : Answer) (state : RuntimeState)

theorem turn_network (m : NetworkMonitor) (status : Option NetworkStatus)
    (poll : Option NetworkPoll) :
    (Member.network m status poll).turn now a state =
      let t := m.turn now a state status poll
      ⟨t.current, .network m t.attributes t.poll, t.published⟩ := by
  simp only [Member.turn, met_answer]

theorem turn_storage (m : StorageMonitor) (g : Gauge StorageStatus) (poll : Option PressurePoll) :
    (Member.storage m g poll).turn now a state =
      let t := m.pressure.turn now a.usage state g poll
      ⟨t.current, .storage m t.attributes t.poll, t.published⟩ := by
  simp only [Member.turn, met_answer]

theorem turn_metrics (m : MetricsMonitor) (g : Gauge HardwareStatus) (poll : Option PressurePoll) :
    (Member.metrics m g poll).turn now a state =
      let t := m.pressure.turn now a.metrics state g poll
      ⟨t.current, .metrics m t.attributes t.poll, t.published⟩ := by
  simp only [Member.turn, met_answer]

end

end EdgeSentinel.Proofs.Monitoring
