import EdgeSentinel.Durability.Table
import EdgeSentinel.Library.Keyed

/-!
# `EdgeSentinel.Proofs.Durability.ReplaySet`: what `pending` returns

`recordings` reads a log: it lists the recorded intents in the order of their recording, each
with the status in which its last mark left it. It knows nothing of rows, rowids and pruning.
`pending` returns the unfinished ones of this list (`pending_eq_unfinished`).

`Holds` carries it. The rows are a part of the recordings, in their order, and only completed
ones may be missing.
-/

set_option autoImplicit false

namespace EdgeSentinel.Proofs.Durability

open Coroutine
open EdgeSentinel.Durability

variable {π : Type}

/-! ### Reading the log -/

/-- A recorded intent, and where its last mark left it. -/
structure Recording (π : Type) where
  id : IntentId
  operation : String
  payload : π
  status : IntentStatus

/-- The status of an intent after a log, from `status` on. There is none when the id is recorded
anew, which takes a UUID that repeats after a pruning. -/
def standing (id : IntentId) : IntentStatus → List (LogEntry π) → Option IntentStatus
  | status, [] => some status
  | status, .recorded id' _ _ :: log => if id' = id then none else standing id status log
  | status, .marked id' status' :: log => standing id (if id' = id then status' else status) log

/-- The recorded intents, in the order of their recording. -/
def recordings : List (LogEntry π) → List (Recording π)
  | [] => []
  | .recorded id operation payload :: log =>
    match standing id .pending log with
    | some status => ⟨id, operation, payload, status⟩ :: recordings log
    | none => recordings log
  | .marked .. :: log => recordings log

/-- PENDING or IN_PROGRESS. -/
def Unfinished (status : IntentStatus) : Bool := status ∈ [IntentStatus.pending, .inProgress]

/-- The recorded intents that their last mark left PENDING or IN_PROGRESS. -/
def unfinished (log : List (LogEntry π)) : List (Recording π) :=
  (recordings log).filter fun r => Unfinished r.status

theorem standing_recorded {id id' : IntentId} {operation : String} {payload : π}
    (log : List (LogEntry π)) : ∀ status, standing id status (log ++ [.recorded id' operation payload])
      = if id' = id then none else standing id status log := by
  induction log with
  | nil => intro status; rfl
  | cons e log ih =>
    intro status
    cases e with
    | recorded id'' _ _ =>
      simp only [List.cons_append, standing, ih]
      split <;> split <;> rfl
    | marked id'' status' => exact ih _

theorem standing_marked {id id' : IntentId} {status' : IntentStatus} (log : List (LogEntry π)) :
    ∀ status, standing id status (log ++ [.marked id' status'])
      = (standing id status log).map fun s => if id' = id then status' else s := by
  induction log with
  | nil => intro status; rfl
  | cons e log ih =>
    intro status
    cases e with
    | recorded id'' _ _ =>
      simp only [List.cons_append, standing, ih]
      split <;> rfl
    | marked id'' status'' => exact ih _

/-- A new recording comes last, in place of an older one with its id. -/
theorem recordings_recorded {id : IntentId} {operation : String} {payload : π}
    (log : List (LogEntry π)) :
    recordings (log ++ [.recorded id operation payload])
      = (recordings log).filter (·.id ≠ id) ++ [⟨id, operation, payload, .pending⟩] := by
  induction log with
  | nil => rfl
  | cons e log ih =>
    cases e with
    | recorded id' operation' payload' =>
      simp only [List.cons_append, recordings, standing_recorded]
      -- A recording of the same id takes the place of the older one.
      by_cases h : id = id'
      · rw [if_pos h, ih]
        cases standing id' .pending log with
        | none => rfl
        | some status => simp [h]
      · rw [if_neg h]
        have hne : ¬ id' = id := fun heq => h heq.symm
        cases standing id' .pending log with
        | none => exact ih
        | some status => simp [ih, hne]
    | marked id' status => exact ih

/-- A mark changes the status of its recording. -/
theorem recordings_marked {id : IntentId} {status : IntentStatus} (log : List (LogEntry π)) :
    recordings (log ++ [.marked id status])
      = (recordings log).map fun r => if r.id = id then { r with status := status } else r := by
  induction log with
  | nil => rfl
  | cons e log ih =>
    cases e with
    | recorded id' operation' payload' =>
      simp only [List.cons_append, recordings, standing_marked]
      cases standing id' .pending log with
      | none => exact ih
      | some status' =>
        by_cases h : id' = id
        · simp [ih, h]
        · have hne : ¬ id = id' := fun heq => h heq.symm
          simp [ih, h, hne]
    | marked id' status' => exact ih

/-! ### What a method does to the rows -/

/-- What a method returns or raises, and the rows that it leaves. -/
inductive Effect (codec : JsonCodec π) (now : String) (rows : List IntentRow) :
    LogEntry π → Except DurableError (Reply π) → List IntentRow → Prop where
  | raised {entry : LogEntry π} (e : DurableError) : Effect codec now rows entry (.error e) rows
  | recorded {id : IntentId} {operation text : String} {payload : π} (reply : Reply π)
      (fresh : loadIntent rows id = none) (dumps : codec.dumps payload = .ok text) :
      Effect codec now rows (.recorded id operation payload) (.ok reply)
        (rows ++ [.new id operation text now])
  | marked {id : IntentId} {status : IntentStatus} (reply : Reply π) (attempts : Nat)
      (lastError : Option String) (found : (loadIntent rows id).isSome) :
      Effect codec now rows (.marked id status) (.ok reply)
        (updateIntent rows id status attempts lastError now)

section
variable (codec : JsonCodec π) (now : String) (s : Store π)

/-- A method that begins with `_require`, and marks the row that this finds. -/
theorem effect_mark {id : IntentId} {status : IntentStatus} {α : Type}
    {f : Intent π → Execution π Unit α} {reply : α → Reply π} {value : IntentRow → α}
    {attempts : IntentRow → Nat} {lastError : IntentRow → Option String}
    (hmark : ∀ row, loadIntent s.intents id = some row →
      (IntentJournal.require codec id >>= f).exec (Store.alone (Table.quiet now)) s
        = (.ok (value row), (Store.alone (Table.quiet now)
            (.updateIntent id status (attempts row) (lastError row)) s).2)) :
    Effect codec now s.intents (.marked id status)
      (((IntentJournal.require codec id >>= f) >>= fun a => pure (reply a)).exec
        (Store.alone (Table.quiet now)) s).1
      (((IntentJournal.require codec id >>= f) >>= fun a => pure (reply a)).exec
        (Store.alone (Table.quiet now)) s).2.intents := by
  cases h : loadIntent s.intents id with
  | none =>
    rw [Prog.exec_bind_of_error (IntentJournal.exec_require_bind_of_none h f)]
    exact .raised _
  | some row =>
    rw [Prog.exec_bind_of_ok (hmark row h)]
    exact .marked _ _ _ (by rw [h]; rfl)

/-- `record`: the payload is not JSON, the id is taken, or there is a new row. -/
theorem effect_record (id : IntentId) (operation : String) (payload : π) :
    Effect codec now s.intents (.recorded id operation payload)
      (((JournalMethod.record id operation payload).program codec).exec
        (Store.alone (Table.quiet now)) s).1
      (((JournalMethod.record id operation payload).program codec).exec
        (Store.alone (Table.quiet now)) s).2.intents := by
  cases hdumps : codec.dumps payload with
  | error cause =>
    rw [JournalMethod.program,
      Prog.exec_bind_of_error (IntentJournal.exec_record_of_error hdumps)]
    exact .raised _
  | ok text =>
    cases h : loadIntent s.intents id with
    | some row =>
      rw [JournalMethod.program,
        Prog.exec_bind_of_error (IntentJournal.exec_record_of_taken hdumps h)]
      exact .raised _
    | none =>
      rw [JournalMethod.program, Prog.exec_bind_of_ok (IntentJournal.exec_record_of_fresh hdumps h),
        IntentJournal.alone_insertIntent h]
      exact .recorded _ h hdumps

/-- A method has one of the effects. -/
theorem effect_program (m : JournalMethod π) :
    Effect codec now s.intents m.entry ((m.program codec).exec (Store.alone (Table.quiet now)) s).1
      ((m.program codec).exec (Store.alone (Table.quiet now)) s).2.intents := by
  cases m with
  | record id operation payload => exact effect_record codec now s id operation payload
  | markInProgress id =>
    exact effect_mark codec now s fun _ h => IntentJournal.exec_markInProgress h
  | markCompleted id =>
    exact effect_mark codec now s fun _ h => IntentJournal.exec_markCompleted h
  | markPendingForRetry id error =>
    exact effect_mark codec now s fun _ h => IntentJournal.exec_markPendingForRetry h error
  | markFailed id error =>
    exact effect_mark codec now s fun _ h => IntentJournal.exec_markFailed h error

end

/-! ### The rows are a part of the recordings -/

/-- What a row and a recording have in common. The payload is text. -/
abbrev Key : Type := IntentId × String × String × IntentStatus

def rowKey (row : IntentRow) : Key := (row.id, row.operation, row.payload, row.status)

/-- The text of a payload that is JSON. -/
def textOf (codec : JsonCodec π) (payload : π) : String :=
  match codec.dumps payload with
  | .ok text => text
  | .error cause => cause

namespace Recording

def key (codec : JsonCodec π) (r : Recording π) : Key :=
  (r.id, r.operation, textOf codec r.payload, r.status)

/-- The recording with its payload as JSON gives it back. -/
def reread (codec : JsonCodec π) (r : Recording π) : Recording π :=
  { r with payload := codec.loads (textOf codec r.payload) }

end Recording

/-- The rows are a part of the recordings, in their order. The others are completed. -/
structure Holds (codec : JsonCodec π) (rows : List IntentRow) (log : List (LogEntry π)) : Prop where
  part : (rows.map rowKey).Sublist ((recordings log).map (·.key codec))
  distinct : ((recordings log).map (·.id)).Nodup
  missing : ∀ r ∈ recordings log, r.status ≠ .completed → r.key codec ∈ rows.map rowKey

namespace Holds

variable {codec : JsonCodec π} {rows : List IntentRow} {log : List (LogEntry π)}

theorem empty : Holds codec [] [] where
  part := .slnil
  distinct := .nil
  missing := by simp [recordings]

theorem ids_distinct (h : Holds codec rows log) : (rows.map (·.id)).Nodup := by
  have hsub := h.part.map Prod.fst
  rw [List.map_map, List.map_map] at hsub
  exact h.distinct.sublist hsub

/-- A new recording. -/
theorem recorded (h : Holds codec rows log) {id : IntentId} {operation text now : String}
    {payload : π} (fresh : loadIntent rows id = none) (dumps : codec.dumps payload = .ok text) :
    Holds codec (rows ++ [.new id operation text now]) (log ++ [.recorded id operation payload]) := by
  -- The row is fresh, so the recording that it replaces has no row any more.
  have hother : ∀ row ∈ rows, row.id ≠ id := by
    intro row hrow hid
    rw [← hid, loadIntent_of_mem h.ids_distinct hrow] at fresh
    cases fresh
  have hkey : rowKey (.new id operation text now)
      = Recording.key codec ⟨id, operation, payload, .pending⟩ := by
    simp only [rowKey, IntentRow.new, Recording.key, textOf, dumps]
  constructor
  · rw [recordings_recorded, List.map_append, List.map_append]
    refine List.Sublist.append ?_ (by rw [List.map_singleton, List.map_singleton, hkey])
    have hfilter := h.part.filter fun k => decide (k.1 ≠ id)
    rw [List.filter_map, List.filter_map] at hfilter
    have hall : rows.filter ((fun k : Key => decide (k.1 ≠ id)) ∘ rowKey) = rows :=
      List.filter_eq_self.mpr fun row hrow => by
        simp [rowKey, hother row hrow]
    rw [hall] at hfilter
    exact hfilter
  · rw [recordings_recorded, List.map_append, List.nodup_append]
    refine ⟨h.distinct.sublist (List.filter_sublist.map _), by simp, ?_⟩
    intro a ha b hb
    obtain ⟨r, hr, rfl⟩ := List.mem_map.mp ha
    obtain rfl : b = id := by simpa using hb
    simpa using (List.mem_filter.mp hr).2
  · rw [recordings_recorded, List.map_append]
    intro r hr hstatus
    rcases List.mem_append.mp hr with hr | hr
    · exact List.mem_append_left _ (h.missing r (List.mem_filter.mp hr).1 hstatus)
    · rw [List.mem_singleton.mp hr, ← hkey]
      exact List.mem_append_right _ (by simp)

/-- A mark, on what a row and a recording have in common. -/
def markKey (id : IntentId) (status : IntentStatus) (k : Key) : Key :=
  if k.1 = id then (k.1, k.2.1, k.2.2.1, status) else k

theorem rowKey_updateIntent (id : IntentId) (status : IntentStatus) (attempts : Nat)
    (lastError : Option String) (now : String) :
    (updateIntent rows id status attempts lastError now).map rowKey
      = (rows.map rowKey).map (markKey id status) := by
  rw [updateIntent, List.map_map, List.map_map]
  refine List.map_congr_left fun row _ => ?_
  by_cases hid : row.id = id
  · simp [markKey, rowKey, hid, IntentRow.update]
  · simp [markKey, rowKey, hid]

theorem key_marked (id : IntentId) (status : IntentStatus) :
    (recordings (log ++ [.marked id status])).map (·.key codec)
      = ((recordings log).map (·.key codec)).map (markKey id status) := by
  rw [recordings_marked, List.map_map, List.map_map]
  refine List.map_congr_left fun r _ => ?_
  by_cases hid : r.id = id
  · simp [markKey, Recording.key, hid]
  · simp [markKey, Recording.key, hid]

/-- A mark of a row that is there. -/
theorem marked (h : Holds codec rows log) (id : IntentId) (status : IntentStatus) (attempts : Nat)
    (lastError : Option String) (now : String) (found : (loadIntent rows id).isSome) :
    Holds codec (updateIntent rows id status attempts lastError now)
      (log ++ [.marked id status]) := by
  constructor
  · rw [rowKey_updateIntent, key_marked]
    exact h.part.map _
  · have hids : (recordings (log ++ [.marked id status])).map (·.id)
        = (recordings log).map (·.id) := by
      rw [recordings_marked]
      refine Keyed.map_key_map (fun r => ?_) _
      split <;> rfl
    rw [hids]
    exact h.distinct
  · intro r' hr' hstatus
    rw [rowKey_updateIntent]
    rw [recordings_marked] at hr'
    obtain ⟨r, hr, rfl⟩ := List.mem_map.mp hr'
    by_cases hid : r.id = id
    · -- The row of the id belongs to this recording.
      obtain ⟨row, hfind⟩ := Option.isSome_iff_exists.mp found
      have hrow : rowKey row ∈ rows.map rowKey :=
        List.mem_map_of_mem (List.mem_of_find?_eq_some hfind)
      obtain ⟨r₀, hr₀, hkey⟩ := List.mem_map.mp (h.part.subset hrow)
      have hrowid : row.id = id := by simpa using List.find?_some hfind
      have hsame : r₀ = r := by
        refine Keyed.eq_of_key_eq h.distinct hr₀ hr ?_
        rw [hid, ← hrowid]
        exact congrArg Prod.fst hkey
      refine List.mem_map.mpr ⟨rowKey row, hrow, ?_⟩
      rw [← hkey, hsame]
      simp [markKey, Recording.key, hid]
    · rw [if_neg hid] at hstatus ⊢
      refine List.mem_map.mpr ⟨_, h.missing r hr hstatus, ?_⟩
      simp [markKey, Recording.key, hid]

/-- A pruning. -/
theorem pruned (h : Holds codec rows log) (olderThan : String) :
    Holds codec (pruneCompletedIntents rows olderThan).2 log where
  part := (List.filter_sublist.map _).trans h.part
  distinct := h.distinct
  missing r hr hstatus := by
    -- The pruning spares what is not completed.
    obtain ⟨row, hrow, hkey⟩ := List.mem_map.mp (h.missing r hr hstatus)
    refine List.mem_map.mpr ⟨row, List.mem_filter.mpr ⟨hrow, ?_⟩, hkey⟩
    have hrowstatus : row.status = r.status := congrArg (fun k : Key => k.2.2.2) hkey
    simp [hrowstatus, hstatus]

/-- What is unfinished is not missing. -/
theorem unfinished (h : Holds codec rows log) :
    (loadIntentsByStatus rows [.pending, .inProgress]).map rowKey
      = (unfinished log).map (·.key codec) := by
  have hkeys : ((recordings log).map (·.key codec)).Nodup := by
    refine List.Nodup.of_map Prod.fst ?_
    rw [List.map_map]
    exact h.distinct
  have hfilter := Keyed.filter_eq_of_sublist (p := fun k : Key => Unfinished k.2.2.2) h.part hkeys
    (by
      intro k hk hstatus
      obtain ⟨r, hr, rfl⟩ := List.mem_map.mp hk
      refine h.missing r hr fun hcompleted => ?_
      have hno : Unfinished IntentStatus.completed = true := hcompleted ▸ hstatus
      exact absurd hno (by decide))
  rw [List.filter_map, List.filter_map] at hfilter
  exact hfilter

/-- The same for some of them, and for what is read of each. -/
theorem unfinished_map {β : Type} (h : Holds codec rows log) (p : Key → Bool) (f : Key → β) :
    ((loadIntentsByStatus rows [.pending, .inProgress]).filter (p ∘ rowKey)).map (f ∘ rowKey)
      = ((Durability.unfinished log).filter (p ∘ Recording.key codec)).map
          (f ∘ Recording.key codec) := by
  have hkeys := congrArg (fun keys => (keys.filter p).map f) h.unfinished
  simp only [List.filter_map, List.map_map] at hkeys
  exact hkeys

end Holds

/-! ### A journal that is used -/

/-- The table of a ledger holds rows that are a part of the log's recordings. -/
def LedgerInv (codec : JsonCodec π) (l : Ledger π) : Prop :=
  ∃ rows, Table.Matches l.table rows ∧ Holds codec rows l.log

/-- A method keeps it, whatever its effect. -/
theorem ledgerInv_after {codec : JsonCodec π} {l : Ledger π} {m : JournalMethod π} {now : String}
    {rows rows' : List IntentRow} {t : Table} {result : Except DurableError (Reply π)}
    (h : Holds codec rows l.log) (heffect : Effect codec now rows m.entry result rows')
    (hmatches : Table.Matches t rows') : LedgerInv codec (l.after m (result, t)) := by
  generalize hentry : m.entry = entry at heffect
  cases heffect with
  | raised e => exact ⟨rows, hmatches, h⟩
  | recorded reply fresh dumps =>
    refine ⟨_, hmatches, ?_⟩
    show Holds codec _ (l.log ++ [m.entry])
    rw [hentry]
    exact h.recorded fresh dumps
  | marked reply attempts lastError found =>
    refine ⟨_, hmatches, ?_⟩
    show Holds codec _ (l.log ++ [m.entry])
    rw [hentry]
    exact h.marked _ _ _ _ _ found

/-- Every call keeps it. -/
theorem ledgerInv_serve (codec : JsonCodec π) {l : Ledger π} (h : LedgerInv codec l)
    (call : String × JournalCall π) : LedgerInv codec (l.serve codec call) := by
  obtain ⟨rows, hmatches, hholds⟩ := h
  obtain ⟨now, call⟩ := call
  cases call with
  | pruneCompleted olderThan =>
    exact ⟨_, (hmatches.pruneCompletedIntents olderThan).2, hholds.pruned olderThan⟩
  | method m =>
    -- The program on the table does what it does on the rows.
    obtain ⟨hreply, htable⟩ := Prog.exec_sim
      (R := fun (t : Table) (s : Store π) => Table.Matches t s.intents)
      (Table.perform_matches now) (m.program codec) l.table { intents := rows } hmatches
    have heffect := effect_program codec now { intents := rows } m
    rw [← hreply] at heffect
    exact ledgerInv_after hholds heffect htable

theorem ledgerInv_run (codec : JsonCodec π) (calls : List (String × JournalCall π)) :
    LedgerInv codec (Ledger.run codec calls) := by
  have hrun : ∀ (calls : List (String × JournalCall π)) (l : Ledger π), LedgerInv codec l →
      LedgerInv codec (calls.foldl (Ledger.serve codec) l) := by
    intro calls
    induction calls with
    | nil => exact fun l h => h
    | cons call calls ih => exact fun l h => ih _ (ledgerInv_serve codec h call)
  exact hrun calls {} ⟨[], ⟨.nil, rfl⟩, .empty⟩

/-- The recording that an intent of the replay set stands for. -/
def recordingOf (intent : Intent π) : Recording π :=
  ⟨intent.id, intent.operation, intent.payload, intent.status⟩

/-- A recording by what its row has of it. -/
def decodeKey (codec : JsonCodec π) (k : Key) : Recording π :=
  ⟨k.1, k.2.1, codec.loads k.2.2.1, k.2.2.2⟩

/-- After any calls, `pending` returns the unfinished recordings, each once and in the order of
their recording. Their payloads are as JSON gives them back, which is as they were recorded where
JSON gives them back unchanged. And a pruning removes completed intents only, as many as it
returns. -/
theorem pending_eq_unfinished (codec : JsonCodec π) (calls : List (String × JournalCall π)) :
    let l := Ledger.run codec calls
    (l.table.pending codec).map recordingOf = (unfinished l.log).map (·.reread codec) ∧
    ((∀ r ∈ unfinished l.log, r.reread codec = r) →
      (l.table.pending codec).map recordingOf = unfinished l.log) ∧
    ((l.table.pending codec).map (·.id)).Nodup ∧
    ∀ olderThan,
      (∀ r ∈ l.table.rows, r ∉ (l.table.pruneCompletedIntents olderThan).2.rows →
        r.row.status = .completed) ∧
      (l.table.pruneCompletedIntents olderThan).2.rows.Sublist l.table.rows ∧
      (l.table.pruneCompletedIntents olderThan).1
        + (l.table.pruneCompletedIntents olderThan).2.rows.length = l.table.rows.length := by
  intro l
  obtain ⟨rows, hmatches, hholds⟩ := ledgerInv_run codec calls
  have hpending : (l.table.pending codec).map recordingOf
      = (unfinished l.log).map (·.reread codec) := by
    -- An intent reads of its row what the row has in common with the recording.
    have hkeys := congrArg (List.map (decodeKey codec)) hholds.unfinished
    rw [List.map_map, List.map_map] at hkeys
    rw [hmatches.pending, IntentJournal.pending, List.map_map]
    exact hkeys
  refine ⟨hpending, fun hround => ?_, ?_, fun olderThan => ⟨?_, List.filter_sublist, ?_⟩⟩
  · rw [hpending]
    exact (List.map_congr_left hround).trans (List.map_id _)
  · rw [hmatches.pending, IntentJournal.pending, List.map_map]
    exact hholds.ids_distinct.sublist (List.filter_sublist.map _)
  · intro r hr hgone
    by_contra hstatus
    exact hgone (List.mem_filter.mpr ⟨hr, by simp [hstatus]⟩)
  · exact (List.length_eq_length_filter_add _).symm

end EdgeSentinel.Proofs.Durability
