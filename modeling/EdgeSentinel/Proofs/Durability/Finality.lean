import EdgeSentinel.Proofs.Durability.AtLeastOnce

/-!
# `EdgeSentinel.Proofs.Durability.Finality`: what a finished intent and a process life fix

A mark COMPLETED or FAILED is the last thing that an execution writes. What follows it is an
event on the bus. No later start reads the intent into the replay set, so its row and its
history stay as they are (`final_intent_stays`). `LeavesFinal` says this of one operation, and
`Finality` carries it along a run.

An intent gets at most one attempt in the life of a process: the call that recorded it, or its
one place in the replay set. So the stored attempts count at most the process starts
(`attempts_le_starts`). `Lives` is the invariant. An intent that waits in the replay set has an
attempt fewer than there were starts.
-/

set_option autoImplicit false

namespace EdgeSentinel.Proofs.Durability

open Coroutine EdgeSentinel.Durability

variable {π ρ : Type}

/-! ### Finished intents -/

/-- The intent is finished. -/
def IsFinal (c : Cell π) : Prop :=
  ∃ row, c.row = some row ∧ (row.status = .completed ∨ row.status = .failed)

/-- About a finished intent only events are published. -/
def LeavesFinal (c : Cell π) (o : Op π) : Prop :=
  IsFinal c → ∃ id type component severity metadata,
    o = .publish id type component severity metadata

/-- An unfinished intent admits every operation. -/
theorem leavesFinal_of_open {c : Cell π}
    (hopen : ∀ row, c.row = some row → row.status ∈ [IntentStatus.pending, IntentStatus.inProgress])
    (o : Op π) : LeavesFinal c o := by
  rintro ⟨row, hrow, hfinal⟩
  have hstatus := hopen row hrow
  rcases hfinal with hfinal | hfinal <;> simp [hfinal] at hstatus

/-- An event on the bus changes no intent. -/
theorem heeds_publish {id : IntentId} {c : Cell π} {type component : String}
    {severity : Core.Severity} {metadata : List (String × Core.MetadataValue)}
    {post : Except DurableError Unit → Cell π → Prop} (hpost : post (.ok ()) c) :
    Heeds (cells π ρ) id LeavesFinal post
      (Op.ask (.publish id type component severity metadata)) c :=
  Heeds.perform (fun _ => ⟨_, _, _, _, _, rfl⟩) rfl fun _ => hpost

/-- After its final mark an execution only publishes, and there is nothing to say about the
cell at its end. -/
theorem heeds_execute {cfg : Config π} {op : Operation} {intent : Intent π} {c : Cell π}
    (hready : Ready cfg intent c) (operation : String) :
    Heeds (cells π ρ) intent.id LeavesFinal (fun _ _ => True)
      (execute cfg operation op intent) c := by
  obtain ⟨row, h⟩ := c
  obtain ⟨row, rfl, rfl, hstatus⟩ := hready
  -- Up to the final mark the row is PENDING or IN_PROGRESS.
  let Open : Cell π → Prop := fun c =>
    ∀ row, c.row = some row → row.status ∈ [IntentStatus.pending, IntentStatus.inProgress]
  have hadmits : ∀ c, Open c → ∀ o, LeavesFinal c o := fun _ => leavesFinal_of_open
  have hmarked : ∀ now h, Open ⟨some (attempted row now), h⟩ := by
    intro now h row' hrow'
    cases hrow'
    simp [attempted, IntentRow.update]
  unfold execute
  refine Heeds.bind (Safe.heeds hadmits (safe_markInProgress rfl ?_ fun now => ?_))
  · intro row' hrow'
    cases hrow'
    exact hstatus
  refine Heeds.bind (heeds_publish ?_)
  refine Heeds.bind (Heeds.perform (hadmits _ (hmarked now h) _) rfl fun _ => ?_)
  refine Heeds.bind (Heeds.perform (hadmits _ (hmarked now _) _) rfl fun x => ?_)
  obtain ⟨_, result⟩ := x
  cases result with
  | ok value =>
    refine Heeds.bind (Safe.heeds hadmits (safe_mark rfl (hmarked now _) fun _ => ?_))
    exact Heeds.bind (heeds_publish trivial)
  | error exc =>
    show Heeds (cells π ρ) row.id LeavesFinal _
      (if op.exhausted (row.attempts + 1) = true then _ else _) _
    split
    · refine Heeds.bind (Safe.heeds hadmits (safe_mark rfl (hmarked now _) fun _ => ?_))
      exact Heeds.bind (heeds_publish trivial)
    · refine Heeds.bind (Safe.heeds hadmits (safe_mark rfl (hmarked now _) fun _ => ?_))
      exact Heeds.bind (heeds_publish trivial)

/-- A durable call on the cell of its fresh id, up to its first attempt. -/
theorem heeds_wrapper {cfg : Config π} {operation : String} {op : Operation} (started : Bool)
    {id : IntentId} (arguments : π) {c : Cell π} {allowed : Cell π → Op π → Prop}
    {post : Except DurableError ρ → Cell π → Prop} (hrow : c.row = none)
    (hfail : ∀ e, post (.error e) c) (hfresh : ∀ o, allowed c o)
    (hnew : ∀ text now o, allowed ⟨some (.new id operation text now),
      c.history ++ [.recorded operation text]⟩ o)
    (hexecute : ∀ text now, Heeds (cells π ρ) id allowed post
      (execute cfg operation op (rowToIntent cfg.codec (.new id operation text now)))
      ⟨some (.new id operation text now), c.history ++ [.recorded operation text]⟩) :
    Heeds (cells π ρ) id allowed post (wrapper cfg operation op started id arguments) c := by
  obtain ⟨row, h⟩ := c
  subst hrow
  unfold wrapper
  cases started with
  | false => exact hfail _
  | true =>
    refine Heeds.bind ?_
    unfold IntentJournal.record IntentJournal.get
    cases cfg.codec.dumps arguments with
    | error cause => exact hfail _
    | ok serialized =>
      refine Heeds.bind (Heeds.perform (hfresh _) rfl fun x => ?_)
      refine Heeds.bind (Heeds.bind (Heeds.perform (hnew serialized x.now _) rfl fun _ => ?_))
      exact hexecute serialized x.now

/-- What a run keeps beside the invariant of the executions: they leave finished intents. -/
structure Finality (cfg : Config π) (s : System π ρ) : Prop where
  kept : SystemInv cfg (KeptCell cfg) (KeptCell cfg) s
  heeds : ∀ id p, s.executing id = some p →
    Heeds (cells π ρ) id LeavesFinal (fun _ _ => True) p (s.store.cell id)

namespace Finality

variable {cfg : Config π} {s s' : System π ρ} {e : Event π ρ}

theorem put {id : IntentId} {p : Execution π ρ ρ}
    (h : ∀ id' p', id' ≠ id → s.executing id' = some p' →
      Heeds (cells π ρ) id' LeavesFinal (fun _ _ => True) p' (s.store.cell id'))
    (hp : Heeds (cells π ρ) id LeavesFinal (fun _ _ => True) p (s.store.cell id)) :
    ∀ id' p', (s.put id p).executing id' = some p' →
      Heeds (cells π ρ) id' LeavesFinal (fun _ _ => True) p' (s.store.cell id') := by
  intro id' p' hex
  by_cases hid : id' = id
  · subst hid
    simp only [System.put, Function.update_self] at hex
    split at hex
    · cases hex
    · cases hex
      exact hp
  · exact h id' p' hid (by simpa [System.put, hid] using hex)

/-- The next operation of an execution is one that leaves the finished intents. -/
theorem advance (h : Finality cfg s) {id : IntentId} {x : Answer ρ} :
    (∀ id' p', (s.advance id x).executing id' = some p' →
      Heeds (cells π ρ) id' LeavesFinal (fun _ _ => True) p'
        ((s.advance id x).store.cell id')) ∧
      ∀ id', IsFinal (s.store.cell id') →
        (s.advance id x).store.cell id' = s.store.cell id' := by
  unfold System.advance
  split
  · rename_i o k hask
    have hself := h.heeds id _ hask
    have hallowed := hself.1
    have hkey : o.id = id := hself.2.1
    subst hkey
    have hother : ∀ id', id' ≠ o.id → (s.store.perform o x).2.cell id' = s.store.cell id' :=
      fun id' hne => (cells π ρ).view_perform_of_ne o x s.store id' hne
    constructor
    · refine put (s := { s with store := (s.store.perform o x).2 }) (fun id' p' hne hex => ?_)
        (Heeds.perform_self hself x)
      exact Heeds.perform_of_ne (D := cells π ρ) hne (h.heeds id' p' hex) x
    · intro id' hfinal
      by_cases hid : id' = o.id
      · subst hid
        obtain ⟨_, _, _, _, _, rfl⟩ := hallowed hfinal
        rfl
      · exact hother id' hid
  · exact ⟨h.heeds, fun _ _ => rfl⟩

/-- One step keeps the invariant, and it keeps the cell of every finished intent. -/
theorem step (h : Finality cfg s) (hstep : step cfg s e = some s') :
    Finality cfg s' ∧ ∀ id, IsFinal (s.store.cell id) → s'.store.cell id = s.store.cell id := by
  have hkept : SystemInv cfg (KeptCell cfg) (KeptCell cfg) s' :=
    h.kept.step (upholds_kept ρ cfg) hstep fun _ => h.kept.inv_cell (upholds_kept ρ cfg)
  obtain ⟨hen, rfl⟩ := Run.guarded_eq_some.mp hstep
  cases e with
  | call id operation arguments =>
    obtain ⟨-, hregistered, hrow, -⟩ := hen
    obtain ⟨op, hop⟩ := Option.isSome_iff_exists.mp hregistered
    have hnext : s.next cfg (.call id operation arguments)
        = s.put id (wrapper cfg operation op s.mode.isStarted id arguments) := by
      simp only [System.next, hop]
    refine ⟨⟨hkept, ?_⟩, fun _ _ => by rw [hnext]; rfl⟩
    rw [hnext]
    have hrow : (s.store.cell id).row = none := hrow
    have hopen : ∀ text now row, some (IntentRow.new id operation text now) = some row →
        row.status ∈ [IntentStatus.pending, IntentStatus.inProgress] := by
      rintro text now row ⟨⟩
      simp [IntentRow.new]
    refine put (fun id' p' _ => h.heeds id' p') (heeds_wrapper _ arguments hrow ?_ ?_ ?_ ?_)
    · exact fun _ => trivial
    · exact leavesFinal_of_open (by simp [hrow])
    · exact fun text now => leavesFinal_of_open (hopen text now)
    · exact fun text now => heeds_execute ⟨_, rfl, rfl, hopen text now _ rfl⟩ operation
  | advance id x => exact ⟨⟨hkept, h.advance.1⟩, h.advance.2⟩
  | crash => exact ⟨⟨hkept, fun _ _ hex => by cases hex⟩, fun _ _ => rfl⟩
  | start => exact ⟨⟨hkept, h.heeds⟩, fun _ _ => rfl⟩
  | replay now =>
    -- The queue holds intents that are not final, so the execution may write its row.
    obtain ⟨current, intent, queue, hmode, hnone⟩ := h.kept.replaysNext_cases hen
    have hready := (h.kept.queued current _ hmode).1 intent (by simp)
    have hnext : s.next cfg (.replay now) = s.replay cfg intent queue now := by
      simp only [System.next, hmode]
    have hcells : ∀ id, (s.replay cfg intent queue now).store.cell id = s.store.cell id := by
      intro id
      unfold System.replay
      split <;> rfl
    refine ⟨⟨hkept, ?_⟩, fun id _ => by rw [hnext, hcells]⟩
    rw [hnext]
    unfold System.replay
    split
    · exact h.heeds
    · exact put (s := { s with mode := .replaying (some intent.id) queue })
        (fun id' p' _ => h.heeds id' p') (heeds_execute hready _)
  | ready => exact ⟨⟨hkept, h.heeds⟩, fun _ _ => rfl⟩

/-- The invariant holds in every reachable state. -/
theorem of_run {es : List (Event π ρ)} (hrun : Run.exec (Durability.step cfg) {} es = some s) :
    Finality cfg s :=
  Run.exec_invariant_of_step (Finality cfg) (fun _ _ _ h hstep => (h.step hstep).1) es {} s
    ⟨SystemInv.start (upholds_kept ρ cfg), fun _ _ hex => by cases hex⟩ hrun

end Finality

/-- A finished intent stays as it is. In every run of calls, steps of executions, crashes,
restarts and replays that goes on after its row is COMPLETED or FAILED, the row is not written
again, and its function is not invoked again. -/
theorem final_intent_stays (cfg : Config π) (es es' : List (Event π ρ)) (s s' : System π ρ)
    (hrun : Run.exec (step cfg) {} es = some s) (hrun' : Run.exec (step cfg) s es' = some s')
    (id : IntentId) (row : IntentRow) (hrow : loadIntent s.store.intents id = some row)
    (hfinal : row.status = .completed ∨ row.status = .failed) :
    loadIntent s'.store.intents id = some row ∧ s'.store.history id = s.store.history id := by
  have hcell : Finality cfg s' ∧ s'.store.cell id = s.store.cell id := by
    refine Run.exec_invariant_of_step
      (fun t => Finality cfg t ∧ t.store.cell id = s.store.cell id) ?_ es' s s'
      ⟨Finality.of_run hrun, rfl⟩ hrun'
    rintro t e t' ⟨ht, hsame⟩ hstep
    obtain ⟨ht', hleaves⟩ := ht.step hstep
    have hfinal' : IsFinal (t.store.cell id) := by
      rw [hsame]
      exact ⟨row, hrow, hfinal⟩
    exact ⟨ht', (hleaves id hfinal').trans hsame⟩
  obtain ⟨hrows, hhistory⟩ := Cell.mk.inj hcell.2
  exact ⟨hrows.trans hrow, hhistory⟩

/-- A call of the durable operation that completes. -/
def completedCall : List (Event Nat Unit) :=
  [.start, .ready, .call "a" "publish_reading" 0] ++
    List.replicate 10 (.advance "a" ⟨"", .ok ()⟩)

/-- The completed call is not replayed after a crash. -/
theorem final_intent_stays_completedCall : ∃ s s',
    Run.exec (step publishOnce) {} completedCall = some s ∧
      Run.exec (step publishOnce) s [.crash, .start, .ready] = some s' ∧
        loadIntent s'.store.intents "a" = some (reading .completed 1 none) ∧
          s'.store.history "a" = s.store.history "a" := by
  have hrun : (Run.exec (step publishOnce) {} completedCall).map (fun s => s.store.intents)
      = some [reading .completed 1 none] := by
    rfl
  obtain ⟨s, hs, hrows⟩ := Option.map_eq_some_iff.mp hrun
  have hrow : loadIntent s.store.intents "a" = some (reading .completed 1 none) := by
    rw [hrows]
    rfl
  have hlater : ((Run.exec (step publishOnce) {} completedCall).bind fun s =>
      Run.exec (step publishOnce) s [.crash, .start, .ready]).isSome := by
    rfl
  rw [hs] at hlater
  obtain ⟨s', hs'⟩ := Option.isSome_iff_exists.mp hlater
  have hs' : Run.exec (step publishOnce) s [.crash, .start, .ready] = some s' := hs'
  exact ⟨s, s', hs, hs', final_intent_stays publishOnce completedCall [.crash, .start, .ready] s s'
    hs hs' "a" _ hrow (.inl rfl)⟩

/-! ### Process lives -/

/-- The event is the start of a process. -/
def Event.isStart : Event π ρ → Bool
  | .start => true
  | _ => false

/-- The stored attempts are at most `n`. -/
def AttemptsLe (n : Nat) (c : Cell π) : Prop := ∀ row, c.row = some row → row.attempts ≤ n

/-- One more attempt stays within the bound. -/
theorem safe_execute_attemptsLe {cfg : Config π} {op : Operation} {intent : Intent π} {c : Cell π}
    {n : Nat} (hready : Ready cfg intent c) (hlt : ∀ row, c.row = some row → row.attempts < n)
    (operation : String) :
    Safe (cells π ρ) intent.id (AttemptsLe n) (fun _ => AttemptsLe n)
      (execute cfg operation op intent) c := by
  obtain ⟨row, h⟩ := c
  obtain ⟨row, rfl, rfl, -⟩ := hready
  have hlt : row.attempts < n := hlt row rfl
  have hmarked : ∀ now h, AttemptsLe n (⟨some (attempted row now), h⟩ : Cell π) := by
    rintro now h row' ⟨⟩
    exact hlt
  refine safe_execute (fun _ h => h) ?_ (fun now => hmarked now _) (fun now => hmarked now _)
    (fun now _ => hmarked now _) ?_ operation
  · rintro row' ⟨⟩
    exact hlt.le
  · rintro now now' result row' ⟨⟩
    -- The final mark writes the attempts back as it read them.
    cases result <;> exact hlt

/-- What a run keeps after `n` starts of the process. -/
structure Lives (cfg : Config π) (n : Nat) (s : System π ρ) : Prop where
  kept : SystemInv cfg (KeptCell cfg) (KeptCell cfg) s
  safe : ∀ id p, s.executing id = some p →
    Safe (cells π ρ) id (AttemptsLe n) (fun _ => AttemptsLe n) p (s.store.cell id)
  idle : ∀ id, s.executing id = none → AttemptsLe n (s.store.cell id)
  queued : ∀ current queue, s.mode = .replaying current queue → ∀ intent ∈ queue,
    ∀ row, (s.store.cell intent.id).row = some row → row.attempts < n
  up : s.mode.isUp = true → 1 ≤ n

namespace Lives

variable {cfg : Config π} {n : Nat} {s s' : System π ρ} {e : Event π ρ}

theorem cell (h : Lives cfg n s) (id : IntentId) : AttemptsLe n (s.store.cell id) := by
  cases hp : s.executing id with
  | none => exact h.idle id hp
  | some p => exact Safe.inv_of_post (fun _ c (hc : AttemptsLe n c) => hc) (h.safe id p hp)

/-- A call records a row without attempts and makes the first one. -/
theorem call (h : Lives cfg n s) {id : IntentId} {operation : String} {arguments : π}
    (hen : s.Enabled cfg (.call id operation arguments))
    (hkept : SystemInv cfg (KeptCell cfg) (KeptCell cfg)
      (s.next cfg (.call id operation arguments))) :
    Lives cfg n (s.next cfg (.call id operation arguments)) := by
  obtain ⟨hup, hregistered, hrow, -⟩ := hen
  obtain ⟨op, hop⟩ := Option.isSome_iff_exists.mp hregistered
  have hnext : s.next cfg (.call id operation arguments)
      = s.put id (wrapper cfg operation op s.mode.isStarted id arguments) := by
    simp only [System.next, hop]
  have hrow : (s.store.cell id).row = none := hrow
  have hnone : ∀ h, AttemptsLe n (⟨none, h⟩ : Cell π) := fun _ _ hr => by cases hr
  have hnew : ∀ text now h,
      AttemptsLe n (⟨some (.new id operation text now), h⟩ : Cell π) := by
    rintro text now h row ⟨⟩
    exact Nat.zero_le n
  have hsafe : Safe (cells π ρ) id (AttemptsLe n) (fun _ => AttemptsLe n)
      (wrapper cfg operation op s.mode.isStarted id arguments) (s.store.cell id) := by
    refine Heeds.safe (heeds_wrapper _ arguments hrow ?_ ?_ ?_ ?_)
    · exact fun _ => h.cell id
    · exact fun _ => h.cell id
    · exact fun text now _ => hnew text now _
    · intro text now
      refine Safe.heeds (fun _ h _ => h) (safe_execute_attemptsLe ?_ ?_ operation)
      · exact ⟨_, rfl, rfl, by simp [IntentRow.new]⟩
      · rintro row ⟨⟩
        exact h.up hup
  obtain ⟨hsafe', hidle'⟩ := SystemInv.put_keeps  (fun id' p' _ => h.safe id' p')
    (fun id' _ => h.idle id') hsafe
  rw [hnext] at hkept ⊢
  exact ⟨hkept, hsafe', hidle', h.queued, h.up⟩

/-- The next operation of an execution. The waiting intents are not executing. -/
theorem advance (h : Lives cfg n s) {id : IntentId} {x : Answer ρ}
    (hkept : SystemInv cfg (KeptCell cfg) (KeptCell cfg) (s.advance id x)) :
    Lives cfg n (s.advance id x) := by
  revert hkept
  unfold System.advance
  split
  · rename_i o k hask
    intro hkept
    have hself := h.safe id _ hask
    have hkey : o.id = id := hself.2.1
    subst hkey
    have hother : ∀ id', id' ≠ o.id → (s.store.perform o x).2.cell id' = s.store.cell id' :=
      fun id' hne => (cells π ρ).view_perform_of_ne o x s.store id' hne
    obtain ⟨hsafe', hidle'⟩ :=
      SystemInv.put_keeps (s := { s with store := (s.store.perform o x).2 })
        (fun id' p' hne hex =>
          Safe.perform_of_ne (D := cells π ρ) hne (h.safe id' p' hex) x)
        (fun id' hne hex => by
          show AttemptsLe n ((s.store.perform o x).2.cell id')
          rw [hother id' hne]
          exact h.idle id' hex)
        (Safe.perform_self hself x)
    refine ⟨hkept, hsafe', hidle', fun current queue hmode intent hmem => ?_, h.up⟩
    -- The loop awaits the advancing intent, and it is not in the queue.
    obtain ⟨-, -, hnot⟩ := h.kept.queued current queue hmode
    have hcurrent := h.kept.awaited current queue hmode o.id (by rw [hask]; simp)
    have hne : intent.id ≠ o.id := fun heq =>
      hnot o.id hcurrent (List.mem_map.mpr ⟨intent, hmem, heq⟩)
    show ∀ row, ((s.store.perform o x).2.cell intent.id).row = some row → _
    rw [hother _ hne]
    exact h.queued current queue hmode intent hmem
  · exact fun _ => h

/-- A start counts as one more life, so every intent has an attempt left in it. -/
theorem start (h : Lives cfg n s) (hen : s.Enabled cfg .start)
    (hkept : SystemInv cfg (KeptCell cfg) (KeptCell cfg) (s.next cfg .start)) :
    Lives cfg (n + 1) (s.next cfg .start) where
  kept := hkept
  safe id p hex := by
    have hdown : s.mode = .down := by
      have hup : s.mode.isUp = false := hen
      cases hmode : s.mode <;> simp [hmode, Mode.isUp] at hup ⊢
    rw [show (s.next cfg .start).executing id = none from h.kept.down hdown id] at hex
    cases hex
  idle id _ row hrow := Nat.le_succ_of_le (h.cell id row hrow)
  queued _ _ _ intent _ row hrow := Nat.lt_succ_of_le (h.cell intent.id row hrow)
  up _ := Nat.le_add_left 1 n

/-- The next intent of the replay set uses the attempt that it had left. -/
theorem replay (h : Lives cfg n s) {now : String} (hen : s.Enabled cfg (.replay now))
    (hkept : SystemInv cfg (KeptCell cfg) (KeptCell cfg) (s.next cfg (.replay now))) :
    Lives cfg n (s.next cfg (.replay now)) := by
  obtain ⟨current, intent, queue, hmode, hnone⟩ := h.kept.replaysNext_cases hen
  have hready := (h.kept.queued current _ hmode).1 intent (by simp)
  have hlt := h.queued current _ hmode
  have hup : 1 ≤ n := h.up (by rw [hmode]; rfl)
  have hnext : s.next cfg (.replay now) = s.replay cfg intent queue now := by
    simp only [System.next, hmode]
  rw [hnext] at hkept ⊢
  have hqueue : ∀ intent' ∈ queue, ∀ row, (s.store.cell intent'.id).row = some row →
      row.attempts < n := fun intent' hmem => hlt intent' (List.mem_cons_of_mem _ hmem)
  revert hkept
  unfold System.replay
  split
  · intro hkept
    refine ⟨hkept, h.safe, h.idle, fun current' queue' hmode' => ?_, fun _ => hup⟩
    cases hmode'
    exact hqueue
  · intro hkept
    obtain ⟨hsafe', hidle'⟩ :=
      SystemInv.put_keeps (s := { s with mode := .replaying (some intent.id) queue })
        (fun id p _ hp => h.safe id p hp) (fun id _ hn => h.idle id hn)
        (safe_execute_attemptsLe hready (hlt intent (by simp)) intent.operation)
    refine ⟨hkept, hsafe', hidle', fun current' queue' hmode' => ?_, fun _ => hup⟩
    cases hmode'
    exact hqueue

/-- Before the first start there are no rows. -/
theorem begin : Lives cfg 0 ({} : System π ρ) where
  kept := SystemInv.start (upholds_kept ρ cfg)
  safe _ _ hex := by cases hex
  idle _ _ _ hrow := by cases hrow
  queued _ _ hmode := by cases hmode
  up hup := by cases hup

/-- A crash leaves the rows as they stand. -/
theorem crash (h : Lives cfg n s)
    (hkept : SystemInv cfg (KeptCell cfg) (KeptCell cfg) (s.next cfg .crash)) :
    Lives cfg n (s.next cfg .crash) where
  kept := hkept
  safe _ _ hex := by cases hex
  idle id _ := h.cell id
  queued _ _ hmode := by cases hmode
  up hup := by cases hup

/-- The loop of `replay_pending` was running until it ended. -/
theorem ready (h : Lives cfg n s) (hen : s.Enabled cfg .ready)
    (hkept : SystemInv cfg (KeptCell cfg) (KeptCell cfg) (s.next cfg .ready)) :
    Lives cfg n (s.next cfg .ready) where
  kept := hkept
  safe := h.safe
  idle := h.idle
  queued _ _ hmode := by cases hmode
  up _ := by
    refine h.up ?_
    have hdone : s.replayedAll = true := hen
    unfold System.replayedAll at hdone
    split at hdone
    · rename_i hmode
      rw [hmode]
      rfl
    · cases hdone

/-- One step of the process. -/
theorem step (h : Lives cfg n s) (hstep : step cfg s e = some s') :
    Lives cfg (n + if Event.isStart e then 1 else 0) s' := by
  have hkept : SystemInv cfg (KeptCell cfg) (KeptCell cfg) s' :=
    h.kept.step (upholds_kept ρ cfg) hstep fun _ => h.kept.inv_cell (upholds_kept ρ cfg)
  obtain ⟨hen, rfl⟩ := Run.guarded_eq_some.mp hstep
  cases e with
  | call id operation arguments => exact h.call hen hkept
  | advance id x => exact h.advance hkept
  | crash => exact h.crash hkept
  | start => exact h.start hen hkept
  | replay now => exact h.replay hen hkept
  | ready => exact h.ready hen hkept

end Lives

/-- An intent gets at most one attempt in the life of a process. In every run of calls, steps
of executions, crashes, restarts and replays, its function was invoked at most as often as its
row has attempts, and its row has at most as many attempts as processes were started. -/
theorem attempts_le_starts (cfg : Config π) (es : List (Event π ρ)) (s : System π ρ)
    (hrun : Run.exec (step cfg) {} es = some s) (id : IntentId) (row : IntentRow)
    (hrow : loadIntent s.store.intents id = some row) :
    (invocations (s.store.history id)).length ≤ row.attempts ∧
      row.attempts ≤ es.countP Event.isStart := by
  have hlives : Lives cfg (es.countP Event.isStart) s := by
    refine Run.exec_history_of_step (fun past t => Lives cfg (past.countP Event.isStart) t)
      (fun past t e t' ht hstep => ?_) Lives.begin hrun
    have hnext := ht.step hstep
    rw [List.countP_append, List.countP_singleton]
    exact hnext
  have hcell := keptCell_of_run hrun id
  unfold KeptCell at hcell
  have hrow' : (s.store.cell id).row = some row := hrow
  rw [hrow'] at hcell
  exact ⟨hcell.count, hlives.cell id row hrow⟩

/-- The crashed call, and the start that replays it: two starts, two attempts. -/
theorem attempts_le_starts_crashedCall : ∃ s,
    Run.exec (step publishOnce) {} (crashedCall ++ [.start, .replay ""] ++
      List.replicate 4 (.advance "a" ⟨"", .ok ()⟩)) = some s ∧
      (invocations (s.store.history "a")).length ≤ 2 ∧
        (reading .inProgress 2 none).attempts ≤ 2 := by
  have hrun : (Run.exec (step publishOnce) {} (crashedCall ++ [.start, .replay ""] ++
      List.replicate 4 (.advance "a" ⟨"", .ok ()⟩))).map (fun s => s.store.intents)
      = some [reading .inProgress 2 none] := by
    rfl
  obtain ⟨s, hs, hrows⟩ := Option.map_eq_some_iff.mp hrun
  have hrow : loadIntent s.store.intents "a" = some (reading .inProgress 2 none) := by
    rw [hrows]
    rfl
  exact ⟨s, hs, attempts_le_starts publishOnce _ s hs "a" _ hrow⟩

end EdgeSentinel.Proofs.Durability
