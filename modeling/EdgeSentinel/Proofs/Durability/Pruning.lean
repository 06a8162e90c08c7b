import EdgeSentinel.Durability.Pruning
import EdgeSentinel.Proofs.Durability.Finality
import EdgeSentinel.Library.Keyed

/-!
# `EdgeSentinel.Proofs.Durability.Pruning`: pruning is not observed

A pruned journal has fewer rows than one that is never pruned, and the rows that it lacks are
COMPLETED. No execution reads such a row again, and no start replays it. So the process with
pruning does what the process without it does (`prune_unobservable`).

`Thinned` relates the two tables, and `Shadows` the two processes. The first operation of a call is
an INSERT, which a row that is gone could let through. This needs that no UUID is drawn twice.
-/

set_option autoImplicit false

namespace EdgeSentinel.Proofs.Durability

open Coroutine EdgeSentinel.Durability

variable {π ρ : Type}

/-! ### The tables -/

/-- The rows of `rows` without those of `gone`, which are COMPLETED. -/
structure Thinned (gone : List IntentId) (rows thin : List IntentRow) : Prop where
  eq : thin = rows.filter fun row => row.id ∉ gone
  completed : ∀ row ∈ rows, row.id ∈ gone → row.status = .completed
  present : ∀ id ∈ gone, id ∈ rows.map (·.id)

namespace Thinned

variable {gone : List IntentId} {rows thin : List IntentRow}

theorem refl (rows : List IntentRow) : Thinned [] rows rows :=
  ⟨(List.filter_eq_self.mpr (by simp)).symm, by simp, by simp⟩

/-- The other rows are found as before. -/
theorem loadIntent (h : Thinned gone rows thin) {id : IntentId} (hid : id ∉ gone) :
    Durability.loadIntent thin id = Durability.loadIntent rows id := by
  rw [h.eq, Durability.loadIntent, Durability.loadIntent, List.find?_filter]
  congr 1
  funext row
  by_cases hrow : row.id = id
  · simp [hrow, hid]
  · simp [hrow]

/-- A row that is gone is not found. -/
theorem loadIntent_of_mem (h : Thinned gone rows thin) {id : IntentId} (hid : id ∈ gone) :
    Durability.loadIntent thin id = none := by
  rw [h.eq, Durability.loadIntent, List.find?_eq_none]
  intro row hrow
  have hnot := (List.mem_filter.mp hrow).2
  simp only [decide_eq_true_eq] at hnot ⊢
  rintro rfl
  exact hnot hid

/-- The unfinished rows are the same. -/
theorem pending (h : Thinned gone rows thin) (codec : JsonCodec π) :
    IntentJournal.pending codec thin = IntentJournal.pending codec rows := by
  rw [IntentJournal.pending, IntentJournal.pending, loadIntentsByStatus, loadIntentsByStatus, h.eq,
    List.filter_filter]
  congr 1
  refine List.filter_congr fun row hrow => ?_
  by_cases hid : row.id ∈ gone
  · simp [h.completed row hrow hid]
  · simp [hid]

theorem append (h : Thinned gone rows thin) {row : IntentRow} (hid : row.id ∉ gone) :
    Thinned gone (rows ++ [row]) (thin ++ [row]) := by
  refine ⟨by simp [h.eq, hid], fun row' hrow' hgone => ?_, fun id hgone => ?_⟩
  · rcases List.mem_append.mp hrow' with hrow' | hrow'
    · exact h.completed row' hrow' hgone
    · obtain rfl := List.mem_singleton.mp hrow'
      exact absurd hgone hid
  · rw [List.map_append]
    exact List.mem_append_left _ (h.present id hgone)

theorem updateIntent (h : Thinned gone rows thin) {id : IntentId} (hid : id ∉ gone)
    (status : IntentStatus) (attempts : Nat) (lastError : Option String) (now : String) :
    Thinned gone (Durability.updateIntent rows id status attempts lastError now)
      (Durability.updateIntent thin id status attempts lastError now) := by
  have hkeep : ∀ row : IntentRow,
      (if row.id = id then row.update status attempts lastError now else row).id = row.id := by
    intro row
    split <;> rfl
  refine ⟨?_, fun row hrow hgone => ?_, fun id' hgone => ?_⟩
  · rw [h.eq, Durability.updateIntent, Durability.updateIntent, List.filter_map]
    congr 1
    refine List.filter_congr fun row _ => ?_
    simp only [Function.comp_apply, hkeep]
  · obtain ⟨row, hmem, rfl⟩ := List.mem_map.mp hrow
    rw [hkeep] at hgone
    rw [if_neg fun heq : row.id = id => hid (heq ▸ hgone)]
    exact h.completed row hmem hgone
  · rw [map_id_updateIntent]
    exact h.present id' hgone

/-- A DELETE of completed rows. -/
theorem pruneCompletedIntents (h : Thinned gone rows thin) (hnodup : (rows.map (·.id)).Nodup)
    (olderThan : String) :
    ∃ gone', Thinned gone' rows (Durability.pruneCompletedIntents thin olderThan).2 := by
  let deleted (row : IntentRow) : Bool := row.status = .completed && row.updatedAt < olderThan
  refine ⟨gone ++ (rows.filter deleted).map (·.id), ?_, fun row hrow hgone => ?_,
    fun id hgone => ?_⟩
  · show thin.filter (fun row => !deleted row) = _
    rw [h.eq, List.filter_filter]
    refine List.filter_congr fun row hrow => ?_
    -- The ids are distinct, so a row that has the id of a deleted one is the deleted one.
    have hiff : row.id ∈ (rows.filter deleted).map (·.id) ↔ deleted row = true := by
      constructor
      · intro hmem
        obtain ⟨row', hrow', heq⟩ := List.mem_map.mp hmem
        obtain ⟨hmem', hdeleted⟩ := List.mem_filter.mp hrow'
        rwa [Keyed.eq_of_key_eq hnodup hrow hmem' heq.symm]
      · exact fun hdeleted => List.mem_map.mpr ⟨row, List.mem_filter.mpr ⟨hrow, hdeleted⟩, rfl⟩
    simp only [List.mem_append, hiff]
    cases deleted row <;> simp
  · rcases List.mem_append.mp hgone with hgone | hgone
    · exact h.completed row hrow hgone
    · obtain ⟨row', hrow', heq⟩ := List.mem_map.mp hgone
      obtain ⟨hmem', hdeleted⟩ := List.mem_filter.mp hrow'
      obtain rfl := Keyed.eq_of_key_eq hnodup hrow hmem' heq.symm
      simp only [deleted, Bool.and_eq_true, decide_eq_true_eq] at hdeleted
      exact hdeleted.1
  · rcases List.mem_append.mp hgone with hgone | hgone
    · exact h.present id hgone
    · exact ((List.filter_sublist).map _).subset hgone

end Thinned

/-! ### The stores -/

/-- The stores differ in the rows that are gone. -/
structure Alike (gone : List IntentId) (t s : Store π) : Prop where
  thinned : Thinned gone t.intents s.intents
  history : s.history = t.history
  published : s.published = t.published

namespace Alike

variable {gone : List IntentId} {s t : Store π}

theorem log (h : Alike gone t s) (id : IntentId) (entry : Entry π) :
    Alike gone (t.log id entry) (s.log id entry) :=
  ⟨h.thinned, by simp [h.history], h.published⟩

/-- An operation on a row that is not gone. -/
theorem perform (h : Alike gone t s) (o : Op π) (x : Answer ρ) (hid : o.id ∉ gone) :
    (s.perform o x).1 = (t.perform o x).1 ∧ Alike gone (t.perform o x).2 (s.perform o x).2 := by
  have hload := h.thinned.loadIntent hid
  cases o with
  | insertIntent id operation payload =>
    simp only [Op.id] at hid hload
    simp only [Store.perform, insertIntent, hload]
    cases loadIntent t.intents id with
    | some row => exact ⟨rfl, h⟩
    | none =>
      have happend : Alike gone { t with intents := t.intents ++ [.new id operation payload x.now] }
          { s with intents := s.intents ++ [.new id operation payload x.now] } :=
        ⟨h.thinned.append hid, h.history, h.published⟩
      exact ⟨rfl, happend.log id _⟩
  | updateIntent id status attempts lastError =>
    exact ⟨rfl, h.thinned.updateIntent hid status attempts lastError x.now, h.history, h.published⟩
  | loadIntent id => exact ⟨hload, h⟩
  | call id payload =>
    refine ⟨rfl, ?_⟩
    simp only [Store.perform, Op.id] at hload ⊢
    rw [hload]
    exact h.log id _
  | outcome id payload =>
    refine ⟨rfl, ?_⟩
    simp only [Store.perform, Op.id] at hload ⊢
    rw [hload]
    exact h.log id _
  | publish id type component severity metadata =>
    exact ⟨rfl, h.thinned, h.history, by simp [Store.perform, h.published]⟩

theorem publish (h : Alike gone t s) {id : IntentId} {type component : String}
    {severity : Core.Severity} {metadata : List (String × Core.MetadataValue)} (x : Answer ρ) :
    Alike gone (t.perform (.publish id type component severity metadata) x).2
      (s.perform (.publish id type component severity metadata) x).2 :=
  ⟨h.thinned, h.history, by simp [Store.perform, h.published]⟩

end Alike

/-! ### The processes -/

/-- The UUID of an event that is a call. -/
def Event.drawn? : Event π ρ → Option IntentId
  | .call id _ _ => some id
  | _ => none

/-- A process `t` that does not prune its journal, and the store `σ` of one that does and is the same
otherwise. The UUIDs in use are among `drawn`. -/
structure Shadows (cfg : Config π) (drawn : List IntentId) (t : System π ρ) (σ : Store π) : Prop where
  executingDrawn : ∀ id, t.executing id ≠ none → id ∈ drawn
  storedDrawn : ∀ id, loadIntent t.store.intents id ≠ none → id ∈ drawn
  alike : ∃ gone, Alike gone t.store σ

namespace Shadows

variable {cfg : Config π} {drawn : List IntentId} {t : System π ρ} {σ : Store π}

theorem put (h : Shadows cfg drawn t σ) {id : IntentId} (hid : id ∈ drawn) (p : Execution π ρ ρ) :
    Shadows cfg drawn (t.put id p) σ := by
  refine ⟨fun id' hex => ?_, h.storedDrawn, h.alike⟩
  by_cases heq : id' = id
  · exact heq ▸ hid
  · exact h.executingDrawn id' (by simpa [System.put, heq] using hex)

/-- An execution finds the same answer in both stores. -/
theorem perform (h : Shadows cfg drawn t σ) (hfinality : Finality cfg t) {id : IntentId} {o : Op π}
    {k : o.Ret ρ → Execution π ρ ρ} (hask : t.executing id = some (.ask o k)) (x : Answer ρ) :
    (σ.perform o x).1 = (t.store.perform o x).1 ∧
      Shadows cfg drawn { t with store := (t.store.perform o x).2 } (σ.perform o x).2 := by
  obtain ⟨hallowed, hkey, -⟩ := hfinality.heeds id _ hask
  obtain rfl : o.id = id := hkey
  obtain ⟨gone, halike⟩ := h.alike
  have hdrawn : o.id ∈ drawn := h.executingDrawn o.id (by simp [hask])
  have hstored : ∀ id', loadIntent (t.store.perform o x).2.intents id' ≠ none → id' ∈ drawn := by
    intro id' hrow
    by_cases hid : id' = o.id
    · exact hid ▸ hdrawn
    · have hcell := (cells π ρ).view_perform_of_ne o x t.store id' hid
      exact h.storedDrawn id' fun hnone => hrow ((congrArg Cell.row hcell).trans hnone)
  have hanswers : (σ.perform o x).1 = (t.store.perform o x).1 ∧
      Alike gone (t.store.perform o x).2 (σ.perform o x).2 := by
    by_cases hgone : o.id ∈ gone
    · -- The row is COMPLETED, so the execution only publishes.
      obtain ⟨row, hrow, heq⟩ := List.mem_map.mp (halike.thinned.present o.id hgone)
      have hload : loadIntent t.store.intents o.id = some row :=
        heq ▸ loadIntent_of_mem hfinality.kept.nodup hrow
      have hfinal : IsFinal (t.store.cell o.id) :=
        ⟨row, hload, .inl (halike.thinned.completed row hrow (heq ▸ hgone))⟩
      obtain ⟨_, _, _, _, _, rfl⟩ := hallowed hfinal
      exact ⟨rfl, halike.publish x⟩
    · exact halike.perform o x hgone
  exact ⟨hanswers.1, h.executingDrawn, hstored, gone, hanswers.2⟩

theorem advance (h : Shadows cfg drawn t σ) (hfinality : Finality cfg t) (id : IntentId)
    (x : Answer ρ) : ∃ σ', ({ t with store := σ } : System π ρ).advance id x
        = { t.advance id x with store := σ' } ∧ Shadows cfg drawn (t.advance id x) σ' := by
  cases hask : t.executing id with
  | none =>
    exact ⟨σ, by simp [System.advance, hask], by simpa [System.advance, hask] using h⟩
  | some p =>
    cases p with
    | done a => exact ⟨σ, by simp [System.advance, hask], by simpa [System.advance, hask] using h⟩
    | fail e => exact ⟨σ, by simp [System.advance, hask], by simpa [System.advance, hask] using h⟩
    | ask o k =>
      obtain ⟨hanswer, hshadows⟩ := h.perform hfinality hask x
      have hid : id ∈ drawn := h.executingDrawn id (by simp [hask])
      refine ⟨(σ.perform o x).2, ?_, ?_⟩
      · simp only [System.advance, hask, hanswer]
        rfl
      · simp only [System.advance, hask]
        exact hshadows.put hid _

theorem replay (h : Shadows cfg drawn t σ) {intent : Intent π} (hid : intent.id ∈ drawn)
    (queue : List (Intent π)) (now : String) :
    ∃ σ', ({ t with store := σ } : System π ρ).replay cfg intent queue now
        = { t.replay cfg intent queue now with store := σ' } ∧
      Shadows cfg drawn (t.replay cfg intent queue now) σ' := by
  unfold System.replay
  cases cfg.registry intent.operation with
  | none =>
    obtain ⟨gone, halike⟩ := h.alike
    exact ⟨_, rfl, h.executingDrawn, h.storedDrawn, gone, halike.publish _⟩
  | some op =>
    have hmode : Shadows cfg drawn { t with mode := .replaying (some intent.id) queue } σ :=
      ⟨h.executingDrawn, h.storedDrawn, h.alike⟩
    exact ⟨σ, rfl, hmode.put hid _⟩

/-- What the process with pruning can do, the one without can do. -/
theorem enabled (h : Shadows cfg drawn t σ) {e : Event π ρ} (hfresh : ∀ id ∈ Event.drawn? e, id ∉ drawn)
    (hen : System.Enabled cfg { t with store := σ } e) : t.Enabled cfg e := by
  cases e with
  | call id operation arguments =>
    obtain ⟨hup, hregistered, -, hidle⟩ := hen
    refine ⟨hup, hregistered, ?_, hidle⟩
    by_contra hrow
    exact hfresh id rfl (h.storedDrawn id hrow)
  | _ => exact hen

/-- One step. -/
theorem step (h : Shadows cfg drawn t σ) (hfinality : Finality cfg t) {e : Event π ρ}
    {s' : System π ρ} (hfresh : ∀ id ∈ Event.drawn? e, id ∉ drawn)
    (hstep : Durability.step cfg { t with store := σ } e = some s') :
    ∃ t' σ', Durability.step cfg t e = some t' ∧ s' = { t' with store := σ' } ∧
      Shadows cfg (drawn ++ (Event.drawn? e).toList) t' σ' := by
  obtain ⟨hen, rfl⟩ := Run.guarded_eq_some.mp hstep
  have hen' := h.enabled hfresh hen
  have ht : Durability.step cfg t e = some (t.next cfg e) := Run.guarded_eq_some.mpr ⟨hen', rfl⟩
  have hdrawn : Shadows cfg (drawn ++ (Event.drawn? e).toList) t σ :=
    ⟨fun id hex => List.mem_append_left _ (h.executingDrawn id hex),
      fun id hrow => List.mem_append_left _ (h.storedDrawn id hrow), h.alike⟩
  suffices hnext : ∃ σ', System.next cfg { t with store := σ } e = { t.next cfg e with store := σ' } ∧
      Shadows cfg (drawn ++ (Event.drawn? e).toList) (t.next cfg e) σ' by
    obtain ⟨σ', heq, hshadows⟩ := hnext
    exact ⟨_, σ', ht, heq, hshadows⟩
  cases e with
  | call id operation arguments =>
    simp only [System.next]
    cases cfg.registry operation with
    | none => exact ⟨σ, rfl, hdrawn⟩
    | some op => exact ⟨σ, rfl, hdrawn.put (by simp [Event.drawn?]) _⟩
  | advance id x => exact hdrawn.advance hfinality id x
  | crash => exact ⟨σ, rfl, fun id hex => absurd rfl hex, hdrawn.storedDrawn, hdrawn.alike⟩
  | start =>
    obtain ⟨gone, halike⟩ := h.alike
    refine ⟨σ, ?_, hdrawn.executingDrawn, hdrawn.storedDrawn, hdrawn.alike⟩
    simp only [System.next, halike.thinned.pending]
  | replay now =>
    obtain ⟨current, intent, queue, hmode, -⟩ := hfinality.kept.replaysNext_cases hen'
    obtain ⟨row, hrow, -, -⟩ := (hfinality.kept.queued current _ hmode).1 intent (by simp)
    have hid := hdrawn.storedDrawn intent.id (by rw [show loadIntent _ _ = _ from hrow]; simp)
    simp only [System.next, hmode]
    exact hdrawn.replay hid queue now
  | ready => exact ⟨σ, rfl, hdrawn.executingDrawn, hdrawn.storedDrawn, hdrawn.alike⟩

theorem prune (h : Shadows cfg drawn t σ) (hfinality : Finality cfg t) (olderThan : String) :
    Shadows cfg drawn t (σ.pruneCompleted olderThan) := by
  obtain ⟨gone, halike⟩ := h.alike
  obtain ⟨gone', hthinned⟩ :=
    halike.thinned.pruneCompletedIntents hfinality.kept.nodup olderThan
  exact ⟨h.executingDrawn, h.storedDrawn, gone', hthinned, halike.history, halike.published⟩

end Shadows

/-- The process without pruning, after the same run. -/
theorem shadows_of_run (cfg : Config π) {es : List (PruneEvent π ρ)} {s : System π ρ}
    (hrun : Run.exec (pruneStep cfg) {} es = some s)
    (hdrawn : (es.filterMap PruneEvent.drawn?).Nodup) :
    ∃ t σ, Run.exec (step cfg) {} (es.filterMap PruneEvent.step?) = some t ∧
      s = { t with store := σ } ∧ Shadows cfg (es.filterMap PruneEvent.drawn?) t σ := by
  refine Run.exec_history_of_step (fun past s => (past.filterMap PruneEvent.drawn?).Nodup →
    ∃ t σ, Run.exec (step cfg) {} (past.filterMap PruneEvent.step?) = some t ∧
      s = { t with store := σ } ∧ Shadows cfg (past.filterMap PruneEvent.drawn?) t σ)
    (fun past s e s' ih hstep hnodup => ?_) (fun _ => ?_) hrun hdrawn
  · rw [List.filterMap_append] at hnodup ⊢
    rw [List.filterMap_append]
    obtain ⟨t, σ, ht, rfl, hshadows⟩ := ih hnodup.of_append_left
    have hfinality := Finality.of_run ht
    cases e with
    | prune olderThan =>
      simp only [pruneStep] at hstep
      split at hstep
      · cases hstep
        refine ⟨t, σ.pruneCompleted olderThan, ?_, rfl, ?_⟩
        · exact (congrArg (Run.exec (step cfg) {}) (List.append_nil _)).trans ht
        · show Shadows cfg (past.filterMap PruneEvent.drawn? ++ []) t _
          rw [List.append_nil]
          exact hshadows.prune hfinality olderThan
      · cases hstep
    | step e =>
      have hlast : [PruneEvent.step e].filterMap PruneEvent.drawn? = (Event.drawn? e).toList := by
        cases e <;> rfl
      rw [hlast] at hnodup ⊢
      have hfresh : ∀ id ∈ Event.drawn? e, id ∉ past.filterMap PruneEvent.drawn? := by
        intro id hid hmem
        exact List.disjoint_of_nodup_append hnodup hmem (Option.mem_toList.mpr hid)
      obtain ⟨t', σ', ht', heq, hshadows'⟩ := hshadows.step hfinality hfresh hstep
      exact ⟨t', σ', Run.exec_snoc ht ht', heq, hshadows'⟩
  · exact ⟨{}, {}, rfl, rfl, fun _ hex => absurd rfl hex, fun _ hrow => absurd rfl hrow, [],
      Thinned.refl _, rfl, rfl⟩

/-- Pruning is not observed. Take any run of calls, steps of executions, crashes, restarts, replays
and prunings, in which no UUID is drawn twice. The same run without the prunings is possible, and it
ends with the same executions, the same invocations and outcomes of every intent, the same events on
the bus, and the same replay set for the next start. The tables differ only in COMPLETED rows that
the prunings have deleted. -/
theorem prune_unobservable (cfg : Config π) (es : List (PruneEvent π ρ)) (s : System π ρ)
    (hrun : Run.exec (pruneStep cfg) {} es = some s)
    (hdrawn : (es.filterMap PruneEvent.drawn?).Nodup) :
    ∃ t, Run.exec (step cfg) {} (es.filterMap PruneEvent.step?) = some t ∧
      s.executing = t.executing ∧ s.mode = t.mode ∧
      s.store.history = t.store.history ∧ s.store.published = t.store.published ∧
      IntentJournal.pending cfg.codec s.store.intents
        = IntentJournal.pending cfg.codec t.store.intents ∧
      ∀ id, loadIntent s.store.intents id = loadIntent t.store.intents id ∨
        loadIntent s.store.intents id = none ∧
          ∃ row, loadIntent t.store.intents id = some row ∧ row.status = .completed := by
  obtain ⟨t, σ, ht, rfl, -, -, gone, halike⟩ := shadows_of_run cfg hrun hdrawn
  refine ⟨t, ht, rfl, rfl, halike.history, halike.published, halike.thinned.pending cfg.codec,
    fun id => ?_⟩
  by_cases hid : id ∈ gone
  · obtain ⟨row, hrow, rfl⟩ := List.mem_map.mp (halike.thinned.present id hid)
    exact .inr ⟨halike.thinned.loadIntent_of_mem hid, row,
      loadIntent_of_mem (Finality.of_run ht).kept.nodup hrow,
      halike.thinned.completed row hrow hid⟩
  · exact .inl (halike.thinned.loadIntent hid)

/-- A call that completes, a pruning, and a second call that a crash cuts short. -/
def prunedCalls : List (PruneEvent Nat Unit) :=
  completedCall.map .step ++ [.prune "2024", .step (.call "b" "publish_reading" 0)] ++
    List.replicate 6 (.step (.advance "b" ⟨"", .ok ()⟩)) ++ [.step .crash]

/-- The first call leaves no row, and the second one is still to be replayed. -/
theorem prune_unobservable_prunedCalls : ∃ s t,
    Run.exec (pruneStep publishOnce) {} prunedCalls = some s ∧
      Run.exec (step publishOnce) {} (prunedCalls.filterMap PruneEvent.step?) = some t ∧
      s.store.intents.map (·.id) = ["b"] ∧ t.store.intents.map (·.id) = ["a", "b"] ∧
      s.store.history = t.store.history := by
  have hrun : (Run.exec (pruneStep publishOnce) {} prunedCalls).map
      (fun s => s.store.intents.map (·.id)) = some ["b"] := by
    decide +kernel
  have hplain : (Run.exec (step publishOnce) {} (prunedCalls.filterMap PruneEvent.step?)).map
      (fun s => s.store.intents.map (·.id)) = some ["a", "b"] := by
    rfl
  obtain ⟨s, hs, hids⟩ := Option.map_eq_some_iff.mp hrun
  obtain ⟨t, ht, -, -, hhistory, -⟩ := prune_unobservable publishOnce prunedCalls s hs (by decide)
  rw [ht] at hplain
  exact ⟨s, t, hs, ht, hids, Option.some.inj hplain, hhistory⟩

end EdgeSentinel.Proofs.Durability
