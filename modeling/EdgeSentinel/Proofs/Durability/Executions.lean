import EdgeSentinel.Durability.Operations

/-!
# `EdgeSentinel.Proofs.Durability.Executions`: what an execution does to its intent

An execution works on the cell of its own intent. So a property of every intent can be
proved on one cell, along the text of `execute`, and it then holds in every state of a
process that interleaves executions and crashes.

* `safe_execute` is the rule for `execute`: the property holds of the row before and after
  the IN_PROGRESS mark, of the entries that the function adds, and of the final mark.
* `Upholds` collects what has to be proved on one cell. `inv` holds of the cell at every
  moment, and `idle` of a cell whose intent is not executing.
* `SystemInv.of_run` is the run theorem. A crash leaves any cell as it stands, so its guard has
  to give `idle` of every cell at each crash.
-/

set_option autoImplicit false

namespace EdgeSentinel.Proofs.Durability

open Coroutine EdgeSentinel.Durability

variable {π ρ : Type}

/-! ### The methods of the journal on a cell -/

section
variable {id : IntentId} {inv : Cell π → Prop} {codec : JsonCodec π} {c : Cell π}

theorem safe_loadIntent {post : Except DurableError (Option IntentRow) → Cell π → Prop}
    (hinv : inv c) (hpost : post (.ok c.row) c) :
    Safe (cells π ρ) id inv post (Op.ask (.loadIntent id)) c :=
  Safe.perform hinv rfl fun _ => hpost

theorem safe_updateIntent {status : IntentStatus} {attempts : Nat} {lastError : Option String}
    {row : IntentRow} {post : Except DurableError Unit → Cell π → Prop} (hrow : c.row = some row)
    (hinv : inv c)
    (hpost : ∀ now, post (.ok ()) { c with row := some (row.update status attempts lastError now) }) :
    Safe (cells π ρ) id inv post (Op.ask (.updateIntent id status attempts lastError)) c := by
  refine Safe.perform hinv rfl fun x => ?_
  have hact : (Cell.act (.updateIntent id status attempts lastError) x c).2
      = { c with row := some (row.update status attempts lastError x.now) } := by
    simp [Cell.act, hrow]
  exact hact ▸ hpost x.now

/-- `get` and `_require` read the stored row. -/
theorem safe_require {row : IntentRow} {post : Except DurableError (Intent π) → Cell π → Prop}
    (hrow : c.row = some row) (hinv : inv c) (hpost : post (.ok (rowToIntent codec row)) c) :
    Safe (cells π ρ) id inv post (IntentJournal.require codec id) c := by
  unfold IntentJournal.require IntentJournal.get
  refine Safe.bind (Safe.bind (safe_loadIntent hinv ?_))
  rw [hrow]
  exact hpost

/-- A mark after the first reads the row and writes it back with a new status. -/
theorem safe_mark {row : IntentRow} {status : IntentStatus} {lastError : Option String}
    {post : Except DurableError Unit → Cell π → Prop} (hrow : c.row = some row) (hinv : inv c)
    (hpost : ∀ now,
      post (.ok ()) { c with row := some (row.update status row.attempts lastError now) }) :
    Safe (cells π ρ) id inv post (do
      let current ← IntentJournal.require codec id
      Op.ask (.updateIntent id status current.attempts lastError)) c := by
  refine Safe.bind (safe_require hrow hinv ?_)
  exact safe_updateIntent hrow hinv hpost

/-- The row after `mark_in_progress`. -/
def attempted (row : IntentRow) (now : String) : IntentRow :=
  row.update .inProgress (row.attempts + 1) row.lastError now

theorem safe_markInProgress {row : IntentRow}
    {post : Except DurableError (Intent π) → Cell π → Prop} (hrow : c.row = some row)
    (hinv : inv c)
    (hpost : ∀ now, post (.ok { rowToIntent codec row with
        status := .inProgress, attempts := row.attempts + 1 })
      { c with row := some (attempted row now) }) :
    Safe (cells π ρ) id inv post (IntentJournal.markInProgress codec id) c := by
  unfold IntentJournal.markInProgress
  refine Safe.bind (safe_require hrow hinv ?_)
  exact Safe.bind (safe_updateIntent hrow hinv hpost)

end

/-! ### One attempt -/

/-- The row after the mark that follows the function. -/
def settled (op : Operation) (row : IntentRow) (result : Except String ρ) (now : String) :
    IntentRow :=
  match result with
  | .ok _ => row.update .completed row.attempts none now
  | .error e =>
    row.update (if op.exhausted row.attempts then .failed else .pending) row.attempts (some e) now

/-- The rule for `execute`. The hypotheses follow the row through one attempt: as it is
found, IN_PROGRESS before the function, during it and after it, and settled. -/
theorem safe_execute {cfg : Config π} {op : Operation} {intent : Intent π} {row : IntentRow}
    {h : List (Entry π)} {inv idle : Cell π → Prop} (hidle : ∀ c, idle c → inv c)
    (hfound : inv ⟨some row, h⟩)
    (hmarked : ∀ now, inv ⟨some (attempted row now), h⟩)
    (hcalled : ∀ now, inv ⟨some (attempted row now),
      h ++ [.invoked intent.payload (some (attempted row now))]⟩)
    (hended : ∀ now (result : Except String ρ), inv ⟨some (attempted row now),
      h ++ [.invoked intent.payload (some (attempted row now))] ++
        [.ended intent.payload result (some (attempted row now))]⟩)
    (hsettled : ∀ now now' (result : Except String ρ),
      idle ⟨some (settled op (attempted row now) result now'),
        h ++ [.invoked intent.payload (some (attempted row now))] ++
          [.ended intent.payload result (some (attempted row now))]⟩) (operation : String) :
    Safe (cells π ρ) intent.id inv (fun _ => idle) (execute cfg operation op intent)
      ⟨some row, h⟩ := by
  unfold execute
  refine Safe.bind (safe_markInProgress rfl hfound fun now => ?_)
  -- The started event, the call, and the end of the function.
  refine Safe.bind (Safe.perform (hmarked now) rfl fun _ => ?_)
  refine Safe.bind (Safe.perform (hmarked now) rfl fun _ => ?_)
  refine Safe.bind (Safe.perform (hcalled now) rfl fun x => ?_)
  obtain ⟨_, result⟩ := x
  have hmoment := hended now result
  have hfinal := fun now' => hsettled now now' result
  cases result with
  | ok value =>
    refine Safe.bind (safe_mark rfl hmoment fun now' => ?_)
    exact Safe.bind (Safe.perform (hidle _ (hfinal now')) rfl fun _ => hfinal now')
  | error exc =>
    show Safe (cells π ρ) intent.id inv (fun _ => idle)
      (if op.exhausted (row.attempts + 1) = true then _ else _) _
    by_cases hexhausted : op.exhausted (row.attempts + 1) = true
    · have hattempts : op.exhausted (attempted row now).attempts = true := hexhausted
      simp only [settled, hattempts, if_true] at hfinal
      rw [if_pos hexhausted]
      refine Safe.bind (safe_mark rfl hmoment fun now' => ?_)
      exact Safe.bind (Safe.perform (hidle _ (hfinal now')) rfl fun _ => hfinal now')
    · have hattempts : ¬ op.exhausted (attempted row now).attempts = true := hexhausted
      simp only [settled, if_neg hattempts] at hfinal
      rw [if_neg hexhausted]
      refine Safe.bind (safe_mark rfl hmoment fun now' => ?_)
      exact Safe.bind (Safe.perform (hidle _ (hfinal now')) rfl fun _ => hfinal now')

/-! ### From one cell to every run -/

/-- What an intent of the replay set says about its cell. -/
def Ready (cfg : Config π) (intent : Intent π) (c : Cell π) : Prop :=
  ∃ row, c.row = some row ∧ intent = rowToIntent cfg.codec row ∧
    row.status ∈ [IntentStatus.pending, IntentStatus.inProgress]

/-- The proof obligations of a property of each intent, on the cell of one intent. -/
structure Upholds (ρ : Type) (cfg : Config π) (inv idle : IntentId → Cell π → Prop) : Prop where
  inv_of_idle : ∀ id c, idle id c → inv id c
  fresh : ∀ id, idle id ⟨none, []⟩
  recorded : ∀ id operation payload now, (cfg.registry operation).isSome → ∀ h,
    idle id ⟨none, h⟩ → idle id ⟨some (.new id operation payload now),
      h ++ [.recorded operation payload]⟩
  execute : ∀ op intent c, cfg.registry intent.operation = some op → Ready cfg intent c →
    idle intent.id c → Safe (cells π ρ) intent.id (inv intent.id) (fun _ => idle intent.id)
      (execute cfg intent.operation op intent) c

/-- A durable call is safe on the empty cell of its fresh id. -/
theorem Upholds.safe_wrapper {cfg : Config π} {inv idle : IntentId → Cell π → Prop}
    (hup : Upholds ρ cfg inv idle) {operation : String} {op : Operation}
    (hop : cfg.registry operation = some op) (started : Bool) {id : IntentId} (arguments : π)
    {c : Cell π} (hrow : c.row = none) (hidle : idle id c) :
    Safe (cells π ρ) id (inv id) (fun _ => idle id)
      (wrapper cfg operation op started id arguments) c := by
  obtain ⟨row, h⟩ := c
  subst hrow
  unfold wrapper
  cases started with
  | false => exact hidle
  | true =>
    refine Safe.bind ?_
    unfold IntentJournal.record IntentJournal.get
    cases cfg.codec.dumps arguments with
    | error cause => exact hidle
    | ok serialized =>
      refine Safe.bind (Safe.perform (hup.inv_of_idle _ _ hidle) rfl fun x => ?_)
      have hnew := hup.recorded id operation serialized x.now (by simp [hop]) h hidle
      show Safe (cells π ρ) id (inv id) _ _ ⟨some (.new id operation serialized x.now), _⟩
      refine Safe.bind (Safe.bind (safe_loadIntent (hup.inv_of_idle _ _ hnew) ?_))
      exact hup.execute op (rowToIntent cfg.codec (.new id operation serialized x.now)) _ hop
        ⟨_, rfl, rfl, by simp [IntentRow.new]⟩ hnew

/-- The invariant of the whole process: executions are safe on their cells, the other cells
are idle, and the intents still to be replayed are distinct, not executing, and as the
journal holds them. -/
structure SystemInv (cfg : Config π) (inv idle : IntentId → Cell π → Prop) (s : System π ρ) :
    Prop where
  nodup : (s.store.intents.map (·.id)).Nodup
  safe : ∀ id p, s.executing id = some p →
    Safe (cells π ρ) id (inv id) (fun _ => idle id) p (s.store.cell id)
  idle : ∀ id, s.executing id = none → idle id (s.store.cell id)
  down : s.mode = .down → ∀ id, s.executing id = none
  awaited : ∀ current queue, s.mode = .replaying current queue →
    ∀ id, s.executing id ≠ none → current = some id
  queued : ∀ current queue, s.mode = .replaying current queue →
    (∀ intent ∈ queue, Ready cfg intent (s.store.cell intent.id)) ∧
      (queue.map (·.id)).Nodup ∧ ∀ id ∈ current, id ∉ queue.map (·.id)

/-- A crash finds every cell idle. -/
def CrashesIdle (idle : IntentId → Cell π → Prop) (s : System π ρ) (e : Event π ρ)
    (_ : System π ρ) : Prop :=
  e.isCrash = true → ∀ id, idle id (s.store.cell id)

namespace SystemInv

variable {cfg : Config π} {inv idle : IntentId → Cell π → Prop} {s : System π ρ}

theorem start (hup : Upholds ρ cfg inv idle) :
    SystemInv cfg inv idle ({} : System π ρ) where
  nodup := List.nodup_nil
  safe _ _ h := by cases h
  idle id _ := hup.fresh id
  down _ _ := rfl
  awaited _ _ h := by cases h
  queued _ _ h := by cases h

/-- At every moment `inv` holds of every cell. -/
theorem inv_cell (hup : Upholds ρ cfg inv idle) (h : SystemInv cfg inv idle s)
    (id : IntentId) : inv id (s.store.cell id) := by
  cases hp : s.executing id with
  | none => exact hup.inv_of_idle _ _ (h.idle id hp)
  | some p => exact Safe.inv_of_post (fun _ => hup.inv_of_idle id) (h.safe id p hp)

/-- Going on with a safe execution keeps the executions safe and the other cells idle. -/
theorem put_keeps {id : IntentId} {p : Execution π ρ ρ}
    (hsafe : ∀ id' p', id' ≠ id → s.executing id' = some p' →
      Safe (cells π ρ) id' (inv id') (fun _ => idle id') p' (s.store.cell id'))
    (hidle : ∀ id', id' ≠ id → s.executing id' = none → idle id' (s.store.cell id'))
    (hp : Safe (cells π ρ) id (inv id) (fun _ => idle id) p (s.store.cell id)) :
    (∀ id' p', (s.put id p).executing id' = some p' →
        Safe (cells π ρ) id' (inv id') (fun _ => idle id') p' (s.store.cell id')) ∧
      ∀ id', (s.put id p).executing id' = none → idle id' (s.store.cell id') := by
  have hput : ∀ id', id' ≠ id → (s.put id p).executing id' = s.executing id' := by
    intro id' hne
    simp [System.put, hne]
  have hself : (s.put id p).executing id = if p.isFinished then none else some p := by
    simp [System.put]
  constructor
  · intro id' p' h
    -- The stored execution is the one that was put, or an old one on its old cell.
    by_cases hid : id' = id
    · subst hid
      rw [hself] at h
      split at h
      · cases h
      · cases h
        exact hp
    · exact hsafe id' p' hid (hput id' hid ▸ h)
  · intro id' h
    by_cases hid : id' = id
    · subst hid
      rw [hself] at h
      -- The execution has ended, so its postcondition is at hand.
      cases p with
      | done a => exact hp
      | fail e => exact hp
      | ask o k => cases h
    · exact hidle id' hid (hput id' hid ▸ h)

/-- A durable call starts on a fresh id. Outside the started mode it fails at once. -/
theorem call (hup : Upholds ρ cfg inv idle) (h : SystemInv cfg inv idle s) {id : IntentId}
    {operation : String} {arguments : π}
    (hen : s.Enabled cfg (.call id operation arguments)) :
    SystemInv cfg inv idle (s.next cfg (.call id operation arguments)) := by
  obtain ⟨hup', hregistered, hrow, hnone⟩ := hen
  obtain ⟨op, hop⟩ := Option.isSome_iff_exists.mp hregistered
  have hnone : s.executing id = none := by simpa using hnone
  have hnext : s.next cfg (.call id operation arguments)
      = s.put id (wrapper cfg operation op s.mode.isStarted id arguments) := by
    simp only [System.next, hop]
  have hcell : (s.store.cell id).row = none := hrow
  obtain ⟨hsafe, hidle⟩ := put_keeps (fun id' p' _ hp' => h.safe id' p' hp')
    (fun id' _ hn => h.idle id' hn)
    (hup.safe_wrapper hop s.mode.isStarted arguments hcell (h.idle id hnone))
  rw [hnext]
  have hmode : (s.put id (wrapper cfg operation op s.mode.isStarted id arguments)).mode
      = s.mode := rfl
  refine ⟨h.nodup, hsafe, hidle, ?_, ?_, h.queued⟩
  · intro hdown
    rw [hmode] at hdown
    simp [hdown, Mode.isUp] at hup'
  · intro current queue hrep id' hex
    rw [hmode] at hrep
    -- While the process replays, `is_started` is false and the call is over.
    have hfail : wrapper (ρ := ρ) cfg operation op s.mode.isStarted id arguments
        = Prog.fail (.runtimeNotStarted operation) := by
      rw [hrep]
      rfl
    refine h.awaited current queue hrep id' fun hn => hex ?_
    by_cases hid : id' = id
    · simp [System.put, hfail, Prog.isFinished, hid]
    · simp [System.put, hid, hn]

/-- The next operation of an execution changes the cell of its own intent only. -/
theorem advance (h : SystemInv cfg inv idle s) {id : IntentId} {x : Answer ρ} :
    SystemInv cfg inv idle (s.advance id x) := by
  unfold System.advance
  split
  · rename_i o k hask
    have hsafe := h.safe id _ hask
    have hkey : (cells π ρ).key o = id := hsafe.2.1
    have hother : ∀ id', id' ≠ id → ((s.store.perform o x).2).cell id' = s.store.cell id' :=
      fun id' hne => (cells π ρ).view_perform_of_ne o x s.store id' (by rwa [hkey])
    obtain ⟨hsafe', hidle'⟩ := put_keeps (s := { s with store := (s.store.perform o x).2 })
      (fun id' p' hne hp' =>
        Safe.perform_of_ne (D := cells π ρ) (by rwa [hkey]) (h.safe id' p' hp') x)
      (fun id' hne hn => by
        show idle id' ((s.store.perform o x).2.cell id')
        rw [hother id' hne]
        exact h.idle id' hn)
      (Safe.perform_self hsafe x)
    refine ⟨s.store.nodup_perform o x h.nodup, hsafe', hidle', ?_, ?_, ?_⟩
    · intro hdown
      rw [h.down hdown id] at hask
      cases hask
    · intro current queue hrep id' hex
      by_cases hid : id' = id
      · subst hid
        exact h.awaited current queue hrep id' (by rw [hask]; simp)
      · exact h.awaited current queue hrep id' (by simpa [System.put, hid] using hex)
    · intro current queue hrep
      obtain ⟨hready, hnodup, hnot⟩ := h.queued current queue hrep
      refine ⟨fun intent hmem => ?_, hnodup, hnot⟩
      -- The advancing intent is the awaited one, which is not in the queue.
      have hcurrent := h.awaited current queue hrep id (by rw [hask]; simp)
      have hne : intent.id ≠ id := by
        intro heq
        exact hnot id hcurrent (List.mem_map.mpr ⟨intent, hmem, heq⟩)
      show Ready cfg intent ((s.store.perform o x).2.cell intent.id)
      rw [hother _ hne]
      exact hready intent hmem
  · exact h

/-- A crash drops the executions. Their cells stay as they are. -/
theorem crash (h : SystemInv cfg inv idle s) (hidle : ∀ id, idle id (s.store.cell id)) :
    SystemInv cfg inv idle (s.next cfg .crash) where
  nodup := h.nodup
  safe _ _ hp := by cases hp
  idle id _ := hidle id
  down _ _ := rfl
  awaited _ _ hrep := by cases hrep
  queued _ _ hrep := by cases hrep

/-- A start reads the replay set. -/
theorem readPending (h : SystemInv cfg inv idle s) (hen : s.Enabled cfg .start) :
    SystemInv cfg inv idle (s.next cfg .start) := by
  have hdown : s.mode = .down := by
    have hup : s.mode.isUp = false := hen
    cases hmode : s.mode <;> simp [hmode, Mode.isUp] at hup ⊢
  have hnone := h.down hdown
  have hids : (IntentJournal.pending cfg.codec s.store.intents).map (·.id)
      = (loadIntentsByStatus s.store.intents [.pending, .inProgress]).map (·.id) := by
    simp [IntentJournal.pending, rowToIntent]
  refine ⟨h.nodup, h.safe, h.idle, fun hmode => (by cases hmode), ?_, ?_⟩
  · intro current queue _ id hex
    exact absurd (hnone id) hex
  · intro current queue hrep
    obtain ⟨rfl, rfl⟩ : none = current ∧
        IntentJournal.pending cfg.codec s.store.intents = queue := by
      simpa [System.next] using hrep
    -- The intents are read off the rows, whose ids are distinct.
    refine ⟨fun intent hmem => ?_, ?_, fun _ hc => (by cases hc)⟩
    · obtain ⟨row, hrow, rfl⟩ := List.mem_map.mp hmem
      obtain ⟨hrows, hstatus⟩ := List.mem_filter.mp hrow
      exact ⟨row, loadIntent_of_mem h.nodup hrows, rfl, by simpa using hstatus⟩
    · rw [hids]
      exact h.nodup.sublist (List.Sublist.map _ List.filter_sublist)

/-- The head of the replay loop: no execution is left, and an intent is next. -/
theorem replaysNext_cases (h : SystemInv cfg inv idle s) (hnext : s.replaysNext = true) :
    ∃ current intent queue, s.mode = .replaying current (intent :: queue) ∧
      ∀ id, s.executing id = none := by
  unfold System.replaysNext at hnext
  split at hnext
  · rename_i current intent queue hmode
    refine ⟨current, intent, queue, hmode, fun id => ?_⟩
    by_contra hex
    -- The loop goes on only when the intent it awaits has ended.
    have hcurrent := h.awaited current _ hmode id hex
    simp [hcurrent, System.replayAwaits, hex] at hnext
  · cases hnext

/-- The replay loop executes the next intent, or leaves it when it is not registered. -/
theorem replay (hup : Upholds ρ cfg inv idle) (h : SystemInv cfg inv idle s) {now : String}
    (hen : s.Enabled cfg (.replay now)) :
    SystemInv cfg inv idle (s.next cfg (.replay now)) := by
  obtain ⟨current, intent, queue, hmode, hnone⟩ := h.replaysNext_cases hen
  obtain ⟨hready, hnodup, -⟩ := h.queued current _ hmode
  obtain ⟨hfresh, hnodup⟩ := List.nodup_cons.mp hnodup
  have hqueue : ∀ intent' ∈ queue, Ready cfg intent' (s.store.cell intent'.id) :=
    fun intent' hmem => hready intent' (List.mem_cons_of_mem _ hmem)
  have hnext : s.next cfg (.replay now) = s.replay cfg intent queue now := by
    simp only [System.next, hmode]
  rw [hnext]
  unfold System.replay
  split
  · -- The event does not touch the journal.
    refine ⟨h.nodup, h.safe, h.idle, fun hm => (by cases hm), ?_, ?_⟩
    · intro _ _ _ id hex
      exact absurd (hnone id) hex
    · intro current' queue' hrep
      cases hrep
      exact ⟨hqueue, hnodup, fun _ hc => (by cases hc)⟩
  · rename_i op hop
    have hsafe := hup.execute op intent _ hop (hready intent (by simp))
      (h.idle intent.id (hnone intent.id))
    obtain ⟨hsafe', hidle'⟩ :=
      put_keeps (s := { s with mode := .replaying (some intent.id) queue })
        (fun id p _ hp => h.safe id p hp) (fun id _ hn => h.idle id hn) hsafe
    refine ⟨h.nodup, hsafe', hidle', fun hm => (by cases hm), ?_, ?_⟩
    · intro current' queue' hrep id hex
      cases hrep
      by_contra hid
      have hne : id ≠ intent.id := fun heq => hid (by rw [heq])
      exact hex (by simp [System.put, hne, hnone id])
    · intro current' queue' hrep
      cases hrep
      refine ⟨hqueue, hnodup, fun id hc => ?_⟩
      cases hc
      exact hfresh

/-- The loop of `replay_pending` ends. -/
theorem ready (h : SystemInv cfg inv idle s) :
    SystemInv cfg inv idle (s.next cfg .ready) where
  nodup := h.nodup
  safe := h.safe
  idle := h.idle
  down hmode := by cases hmode
  awaited _ _ hrep := by cases hrep
  queued _ _ hrep := by cases hrep

/-- One step of the process keeps the invariant, when a crash finds every cell idle. -/
theorem step (hup : Upholds ρ cfg inv idle) {e : Event π ρ} {s' : System π ρ}
    (h : SystemInv cfg inv idle s) (hstep : step cfg s e = some s')
    (hcrash : CrashesIdle idle s e s') : SystemInv cfg inv idle s' := by
  obtain ⟨hen, rfl⟩ := Run.guarded_eq_some.mp hstep
  cases e with
  | call id operation arguments => exact h.call hup hen
  | advance id x => exact h.advance
  | crash => exact h.crash (hcrash rfl)
  | start => exact h.readPending hen
  | replay now => exact h.replay hup hen
  | ready => exact h.ready

/-- The invariant holds at the end of every run whose steps meet a guard by which the crashes
find every cell idle. -/
theorem of_run {guard : System π ρ → Event π ρ → System π ρ → Prop}
    (hup : Upholds ρ cfg inv idle)
    (hcrash : ∀ t e t', SystemInv cfg inv idle t → guard t e t' → CrashesIdle idle t e t')
    {es : List (Event π ρ)} (hrun : Run.exec (Durability.step cfg) {} es = some s)
    (hguard : Run.Along (Durability.step cfg) guard {} es) : SystemInv cfg inv idle s :=
  Run.exec_invariant (SystemInv cfg inv idle)
    (fun t e t' ht hstep hg => ht.step hup hstep (hcrash t e t' ht hg)) es _ s
    (SystemInv.start hup) hrun hguard

end SystemInv

end EdgeSentinel.Proofs.Durability
