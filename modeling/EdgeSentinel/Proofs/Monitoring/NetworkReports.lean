import EdgeSentinel.Monitoring.NetworkChecks
import EdgeSentinel.Proofs.Monitoring.Masking
import Mathlib.Data.List.Destutter

/-!
# `EdgeSentinel.Proofs.Monitoring.NetworkReports`: what the events of a network monitor tell

A poll keeps the layers that passed, and compares only the highest of them with the poll before.
That is enough. The layers that passed are a prefix of the configured ones, so the highest layer
determines all of them (`eq_of_highestLayer`), and `readStatus` reads the status off an event.

`network_changes_told` is the result for every sequence of polls: each poll calls the checks from the
lowest layer up to the first that fails, one event is published for each change of the status,
and the last event tells the status of the monitor.
-/

set_option autoImplicit false

namespace EdgeSentinel.Proofs.Monitoring

open EdgeSentinel.Core EdgeSentinel.Monitoring

variable {τ : Type} {m : NetworkMonitor}

/-! ### One poll -/

/-- What a poll finds. -/
def found (m : NetworkMonitor) (check : NetworkLayer → CheckEnd) : NetworkStatus :=
  ⟨m.layers.takeWhile fun layer => (check layer).ok⟩

/-- The loop keeps the configured layers that pass, and it calls one check more if there is one. -/
theorem probe_eq (m : NetworkMonitor) (check : NetworkLayer → CheckEnd)
    (order : List NetworkLayer) :
    let reachable := (order.filter m.checks).takeWhile fun layer => (check layer).ok
    m.probe check order = ((order.filter m.checks).take (reachable.length + 1), reachable) := by
  induction order with
  | nil => rfl
  | cons layer order ih =>
    unfold NetworkMonitor.probe
    cases hconfigured : m.checks layer with
    | false => simpa [hconfigured] using ih
    | true =>
      cases hok : (check layer).ok with
      | false => simp [hconfigured, hok]
      | true =>
        simp only [Bool.not_true, Bool.false_eq_true, if_false, if_true]
        rw [ih]
        simp [hconfigured, hok]

theorem value_injective {layer layer' : NetworkLayer} (h : layer.value = layer'.value) :
    layer = layer' := by
  cases layer <;> cases layer' <;> simp [NetworkLayer.value] at h ⊢

theorem isPrefix_found (m : NetworkMonitor) (check : NetworkLayer → CheckEnd) :
    (found m check).reachable <+: m.layers :=
  List.takeWhile_prefix _

/-! ### Reading an event -/

/-- The status that a `network_status_changed` event of the monitor tells: the configured layers up
to the one it names. -/
def readStatus (m : NetworkMonitor) (e : Event τ) : NetworkStatus :=
  match e.metadata.lookup "current_layer" with
  | some (.str value) => ⟨m.layers.takeWhile (fun layer => layer.value ≠ value) ++
      (m.layers.find? fun layer => layer.value = value).toList⟩
  | _ => {}

/-- The event of a status is read as this status. -/
theorem readStatus_statusChanged (now : τ) {status : NetworkStatus}
    (h : status.reachable <+: m.layers) : readStatus m (m.statusChanged now status) = status := by
  obtain ⟨reachable⟩ := status
  have hlookup : (m.statusChanged now ⟨reachable⟩).metadata.lookup "current_layer"
      = some ((NetworkStatus.highestLayer ⟨reachable⟩).elim .null fun layer => .str layer.value) :=
    rfl
  unfold readStatus
  rw [hlookup]
  rcases List.eq_nil_or_concat' reachable with rfl | ⟨below, top, rfl⟩
  · rfl
  · obtain ⟨rest, hlayers⟩ := h
    have hlayers : m.layers = below ++ top :: rest := by simpa using hlayers.symm
    have htop : NetworkStatus.highestLayer ⟨below ++ [top]⟩ = some top := by
      simp [NetworkStatus.highestLayer]
    -- The layers below the top do not have its name.
    have hbelow : ∀ layer ∈ below, layer.value ≠ top.value := by
      intro layer hmem heq
      have hnodup := nodup_layers m
      rw [hlayers, List.nodup_append] at hnodup
      exact hnodup.2.2 layer hmem top (by simp) (value_injective heq)
    have htake : (below ++ top :: rest).takeWhile (fun layer => layer.value ≠ top.value)
        = below := by
      rw [List.takeWhile_append_of_pos (by simpa using hbelow)]
      simp
    have hfind : ((below ++ top :: rest).find? fun layer => layer.value = top.value)
        = some top := by
      rw [List.find?_append, List.find?_eq_none.mpr (by simpa using hbelow)]
      simp
    rw [htop, hlayers]
    show NetworkStatus.mk (List.takeWhile (fun layer => layer.value ≠ top.value) _ ++
      (List.find? (fun layer => layer.value = top.value) _).toList) = _
    rw [htake, hfind]
    rfl

/-! ### The parts of a poll -/

/-- The rest of a poll from an await on, when nothing else happens. The hop is the last await. -/
def finish (m : NetworkMonitor) (delivered : Bool)
    (t : Turn (Option NetworkStatus) NetworkPoll τ) : Turn (Option NetworkStatus) NetworkPoll τ :=
  let next (t : Turn (Option NetworkStatus) NetworkPoll τ) :=
    t.poll.elim t fun poll => m.resume delivered t.current t.attributes poll
  next (next t)

/-- The check of a monitor that is wired to a runtime is the check that is cut at its awaits, also
when its publication raises. -/
theorem checkOnce_eq_finish (m : NetworkMonitor) (env : NetworkSurroundings τ)
    (s : NetworkChecked τ) :
    let t := m.checkOnce (env.clock s.published.length) (fun layer => (env.check s.polls layer).ok)
      s.current s.status
    let s' := s.checkOnce m env ⟨true, true⟩
    s'.status = t.attributes ∧ s'.published = s.published ++ t.published ∧
      s'.current
        = (finish m (env.delivered s.polls) (t.met (env.audience s.published.length))).current := by
  have hprobe : (m.probe (env.check s.polls) layerOrder).2
      = m.layers.takeWhile fun layer => (env.check s.polls layer).ok := by
    rw [probe_eq]
    rfl
  unfold NetworkChecked.checkOnce NetworkMonitor.checkOnce
  dsimp only
  rw [hprobe]
  split
  · -- The event, and then the runtime state, which the hop moves twice.
    simp only [NetworkChecked.raises, NetworkChecked.publish, NetworkChecked.applyToRuntime, Turn.met,
      List.all_cons, List.all_nil, Bool.and_true, Bool.true_and, if_true]
    cases (env.audience s.published.length).raised (m.statusChanged (env.clock s.published.length)
      ⟨m.layers.takeWhile fun layer => (env.check s.polls layer).ok⟩) with
    | some e => exact ⟨rfl, rfl, rfl⟩
    | none =>
      simp only [finish, Option.elim, NetworkMonitor.resume, Option.isSome_none, Option.isNone_none,
        Bool.false_eq_true, if_false, if_true]
      split
      · exact ⟨rfl, rfl, rfl⟩
      · split
        · exact ⟨rfl, rfl, rfl⟩
        · split
          · cases env.delivered s.polls <;> exact ⟨rfl, rfl, rfl⟩
          · exact ⟨rfl, rfl, rfl⟩
  · exact ⟨rfl, (List.append_nil _).symm, rfl⟩

/-! ### Every sequence of polls -/

/-- The list without an entry that repeats the one before it, with one more entry. -/
theorem destutter_concat {α : Type} [DecidableEq α] (l : List α) (a : α) :
    (l ++ [a]).destutter (· ≠ ·)
      = if l.getLast? = some a then l.destutter (· ≠ ·) else l.destutter (· ≠ ·) ++ [a] := by
  cases l with
  | nil => rfl
  | cons first l =>
    rw [List.cons_append, List.destutter_cons', List.destutter_cons']
    induction l generalizing first with
    | nil => by_cases h : first = a <;> simp [List.destutter', h]
    | cons second l ih =>
      by_cases h : first = second
      · subst h
        simpa [List.destutter'] using ih first
      · have hnext := ih second
        simp only [List.cons_append, List.destutter', ne_eq, h, not_false_eq_true, if_true]
        rw [hnext]
        split <;> simp_all

/-- What the first `n` polls find. -/
def statuses (m : NetworkMonitor) (env : NetworkSurroundings τ) (n : ℕ) : List NetworkStatus :=
  (List.range n).map fun i => found m (env.check i)

theorem statuses_succ (m : NetworkMonitor) (env : NetworkSurroundings τ) (n : ℕ) :
    statuses m env (n + 1) = statuses m env n ++ [found m (env.check n)] := by
  simp [statuses, List.range_succ]

/-- The calls of the first `n` polls: each calls the checks of the configured layers up to the first
that fails. -/
def calls (m : NetworkMonitor) (env : NetworkSurroundings τ) (n : ℕ) : List (ℕ × NetworkLayer) :=
  (List.range n).flatMap fun i =>
    (m.layers.take ((found m (env.check i)).reachable.length + 1)).map (i, ·)

/-- The events of the changes among some statuses. -/
def changeEvents (m : NetworkMonitor) (env : NetworkSurroundings τ)
    (statuses : List NetworkStatus) : List (Event τ) :=
  ((statuses.destutter (· ≠ ·)).zipIdx).map fun change =>
    m.statusChanged (env.clock change.2) change.1

/-- The monitor after `n` polls. -/
structure Accounted (m : NetworkMonitor) (env : NetworkSurroundings τ) (hooks : Hooks) (n : ℕ)
    (s : NetworkChecked τ) : Prop where
  polls : s.polls = n
  status : s.status = (statuses m env n).getLast?
  called : s.called = calls m env n
  published : hooks.events = true → s.published = changeEvents m env (statuses m env n)

section
variable {env : NetworkSurroundings τ} {hooks : Hooks} {n : ℕ} {s : NetworkChecked τ}

/-- The move of the runtime leaves the rest. -/
theorem Accounted.applyToRuntime (h : Accounted m env hooks n s) (current : NetworkStatus)
    (poll : ℕ) : Accounted m env hooks n (s.applyToRuntime m env current poll) := by
  obtain ⟨hpolls, hstatus, hcalled, hpublished⟩ := h
  unfold NetworkChecked.applyToRuntime
  dsimp only
  split
  · exact ⟨hpolls, hstatus, hcalled, hpublished⟩
  · split
    · exact ⟨hpolls, hstatus, hcalled, hpublished⟩
    · split <;> exact ⟨hpolls, hstatus, hcalled, hpublished⟩

/-- The highest layer changes exactly when the status does. -/
theorem changes_iff (m : NetworkMonitor) (env : NetworkSurroundings τ) (n : ℕ) :
    ((statuses m env n).getLast?.all fun previous =>
        previous.highestLayer ≠ (found m (env.check n)).highestLayer) = true ↔
      (statuses m env n).getLast? ≠ some (found m (env.check n)) := by
  cases hlast : (statuses m env n).getLast? with
  | none => simp
  | some previous =>
    have hmem : previous ∈ statuses m env n := List.mem_of_getLast? hlast
    obtain ⟨i, -, rfl⟩ := List.mem_map.mp hmem
    have hiff : (found m (env.check i)).highestLayer = (found m (env.check n)).highestLayer ↔
        found m (env.check i) = found m (env.check n) :=
      ⟨eq_of_highestLayer m (isPrefix_found m _) (isPrefix_found m _), fun heq => by rw [heq]⟩
    simp [hiff]

/-- One more poll. -/
theorem Accounted.checkOnce (h : Accounted m env hooks n s) :
    Accounted m env hooks (n + 1) (s.checkOnce m env hooks) := by
  obtain ⟨hpolls, hstatus, hcalled, hpublished⟩ := h
  subst hpolls
  have hprobe : m.probe (env.check s.polls) layerOrder
      = (m.layers.take ((found m (env.check s.polls)).reachable.length + 1),
        (found m (env.check s.polls)).reachable) := probe_eq m _ layerOrder
  have hcalls : s.called ++ (m.layers.take
      ((found m (env.check s.polls)).reachable.length + 1)).map (s.polls, ·)
        = calls m env (s.polls + 1) := by
    simp [hcalled, calls, List.range_succ]
  have hlast : some (found m (env.check s.polls)) = (statuses m env (s.polls + 1)).getLast? := by
    simp [statuses_succ]
  have hchanges := changes_iff m env s.polls
  rw [← hstatus] at hchanges
  unfold NetworkChecked.checkOnce
  rw [hprobe]
  dsimp only
  split
  · -- The status has changed, and the event is published before the runtime is told.
    rename_i hchanged
    have hne := hchanges.mp hchanged
    rw [hstatus] at hne
    have hpublish : Accounted m env hooks (s.polls + 1) (NetworkChecked.publish m env hooks
        (found m (env.check s.polls))
        { s with
          status := some (found m (env.check s.polls))
          polls := s.polls + 1
          called := s.called ++ (m.layers.take
            ((found m (env.check s.polls)).reachable.length + 1)).map (s.polls, ·) }) := by
      unfold NetworkChecked.publish
      split
      · rename_i hevents
        refine ⟨rfl, hlast, hcalls, fun _ => ?_⟩
        have hpublished := hpublished hevents
        have hlength : s.published.length
            = ((statuses m env s.polls).destutter (· ≠ ·)).length := by
          rw [hpublished]
          simp [changeEvents]
        rw [hlength, hpublished]
        unfold changeEvents
        rw [statuses_succ, destutter_concat, if_neg hne, List.zipIdx_append]
        simp
      · rename_i hevents
        exact ⟨rfl, hlast, hcalls, fun h => absurd h hevents⟩
    split
    · exact hpublish
    · split
      · exact hpublish.applyToRuntime _ _
      · exact hpublish
  · rename_i hsame
    -- An equal status is no change, and nothing is published.
    have hrepeats : (statuses m env s.polls).getLast? = some (found m (env.check s.polls)) := by
      rw [← hstatus]
      by_contra hne
      exact hsame (hchanges.mpr hne)
    refine ⟨rfl, hlast, hcalls, fun hevents => ?_⟩
    show s.published = _
    rw [hpublished hevents]
    unfold changeEvents
    rw [statuses_succ, destutter_concat, if_pos hrepeats]

theorem reported_after (m : NetworkMonitor) (env : NetworkSurroundings τ) (hooks : Hooks)
    (current : RuntimeState) (n : ℕ) :
    Accounted m env hooks n (NetworkChecked.after m env hooks current n) := by
  induction n with
  | zero => exact ⟨rfl, rfl, rfl, fun _ => rfl⟩
  | succ n ih => exact ih.checkOnce

/-- The last entry is never dropped as a repetition. -/
theorem getLast?_destutter {α : Type} [DecidableEq α] (l : List α) :
    (l.destutter (· ≠ ·)).getLast? = l.getLast? := by
  induction l using List.reverseRecOn with
  | nil => rfl
  | append_singleton l a ih =>
    rw [destutter_concat]
    split
    · rename_i h
      rw [ih, h]
      simp
    · simp

end

/-- The events of a network monitor tell its status. Take any sequence of polls, in which every
check may pass, fail or raise.

* The status is what the last poll has found: the longest prefix of the configured layers whose
  checks pass.
* Each poll calls the checks of the configured layers in order, up to the first that fails.
* One event is published for each change of the status, although only the highest layers are
  compared, and the last event is read as the status. -/
theorem network_changes_told (m : NetworkMonitor) (env : NetworkSurroundings τ) (hooks : Hooks)
    (current : RuntimeState) (n : ℕ) :
    let s := NetworkChecked.after m env hooks current n
    s.status = (statuses m env n).getLast? ∧ s.called = calls m env n ∧
      (hooks.events = true → s.published = changeEvents m env (statuses m env n) ∧
        s.published.getLast?.map (readStatus m) = s.status) := by
  have h := reported_after m env hooks current n
  refine ⟨h.status, h.called, fun hevents => ⟨h.published hevents, ?_⟩⟩
  have hmembers : ∀ status ∈ statuses m env n, status.reachable <+: m.layers := by
    intro status hmem
    obtain ⟨i, -, rfl⟩ := List.mem_map.mp hmem
    exact isPrefix_found m _
  rw [h.published hevents, h.status, ← getLast?_destutter (statuses m env n)]
  unfold changeEvents
  rw [List.getLast?_map, Option.map_map]
  rcases List.eq_nil_or_concat' ((statuses m env n).destutter (· ≠ ·)) with hnil | ⟨init, last, hlast⟩
  · rw [hnil]
    rfl
  · have hmem : last ∈ statuses m env n := by
      refine (List.destutter_sublist (· ≠ ·) (statuses m env n)).subset ?_
      rw [hlast]
      simp
    rw [hlast, List.zipIdx_append]
    simp [readStatus_statusChanged _ (hmembers last hmem)]

/-- A monitor of all layers. -/
def allLayers : NetworkMonitor where
  checks _ := true
  checks_nonempty := ⟨.link, rfl⟩

/-- From the second poll on, the DNS check raises. -/
def dnsOutage : NetworkSurroundings ℕ where
  check poll layer := if poll ≠ 0 ∧ layer = .dns then .raised "timed out" else .returned true
  delivered _ := true
  clock k := k

/-- After three polls the last event tells that the gateway is the highest layer. -/
theorem network_changes_told_dnsOutage :
    (NetworkChecked.after allLayers dnsOutage ⟨true, true⟩ .healthy 3).published.getLast?.map
      (readStatus allLayers) = some ⟨[.link, .gateway]⟩ := by
  obtain ⟨hstatus, -, hevents⟩ := network_changes_told allLayers dnsOutage ⟨true, true⟩ .healthy 3
  rw [(hevents rfl).2, hstatus]
  rfl

end EdgeSentinel.Proofs.Monitoring
