import EdgeSentinel.Library.Run
import EdgeSentinel.Persistence.Transactions

/-!
# `EdgeSentinel.Proofs.Persistence.Transaction`: open transactions

`Database.transaction` rolls back on `Exception` and commits at the end of the block. A
cancellation is not an `Exception`, so a cancelled block leaves its transaction open and gives
the lock back. A cancelled or failed ROLLBACK or COMMIT does the same, and so does a BEGIN that
takes effect after its await was cancelled. A statement that fails can end the transaction, and
the block that goes on commits without the writes that were lost.

`Sound` is the contract, a property of one state. `orderly` is the condition on a step, read off
the state before it. `sound_of_orderly` proves that the contract holds in every state that a run of
orderly steps reaches. `Numbered` and `Placed` are its invariant: whose call is whose, and where the
writes of each call are.
-/

set_option autoImplicit false

namespace EdgeSentinel.Proofs.Persistence

open Async EdgeSentinel.Core EdgeSentinel.Persistence

variable {ω : Type}

/-! ### The contract and the condition -/

/-- The writes of call `i`. -/
def writesOf (writes : List (Nat × ω)) (i : Nat) : List (Nat × ω) :=
  writes.filter fun write => write.1 == i

/-- The contract:

- no transaction is open while the lock is free;
- the writes of a block that ended normally are all in the file, and those of any other block
  that is over are not;
- the rows of a standalone statement that has returned are in the file, which a close and a crash
  leave as it is. -/
structure Sound (s : Shared ω) : Prop where
  free : s.holder = none → s.sqlite.inTransaction = false
  blocks : ∀ i normal, (i, normal) ∈ s.ended →
    writesOf s.sqlite.disk i = if normal then writesOf s.log i else []
  durable : ∀ i rows, (i, rows) ∈ s.returned → writesOf s.sqlite.disk i = stamp i rows

/-- A job that the holder of the lock does not await, and that ends with `result`:

- a BEGIN does not take effect;
- a ROLLBACK or a COMMIT does not find a transaction open;
- a statement of a block writes in the transaction of its block, or after the block has ended
  normally and while no transaction is open. -/
def harmless (s : Shared ω) (i : Nat) (result : Result) : Request ω → Bool
  | .execute _ => true
  | .begin_ => result != .done
  | .rollback | .commit => result != .done || !s.sqlite.inTransaction
  | .statement rows => ((Request.statement rows).landed i result).isEmpty ||
    if s.sqlite.inTransaction then s.holder.map Prod.fst == some i
    else s.ended.contains (i, true)

/-- The condition on a step. While the transaction of a block is open:

- no cancellation ends its body, and none meets the awaits of its BEGIN, ROLLBACK and COMMIT;
- the lock is not given back after a ROLLBACK or a COMMIT that failed.

A COMMIT finds the transaction open, or the block has not written. When it has taken effect for a
block that has written, its await is not cancelled. Jobs that nobody awaits are `harmless`. -/
def orderly (s : Shared ω) : DbEvent ω → Bool
  | .leave .cancelled => !s.sqlite.inTransaction
  | .cancel => !s.sqlite.inTransaction &&
    match s.holder with
    | some (i, .commit (some true)) => (writesOf s.log i).isEmpty
    | _ => true
  | .resume =>
    match s.holder with
    | some (_, .rollback (some false)) | some (_, .commit (some false)) =>
      !s.sqlite.inTransaction
    | _ => true
  | .finish .done =>
    match s.holder with
    | some (i, .commit none) => s.sqlite.inTransaction || (writesOf s.log i).isEmpty
    | _ => true
  | .job k result =>
    match s.jobs[k]? with
    | some (i, request) => harmless s i result request
    | none => true
  | _ => true

/-! ### Writes and requests -/

@[simp] theorem writesOf_nil (i : Nat) : writesOf ([] : List (Nat × ω)) i = [] := rfl

@[simp] theorem writesOf_append (writes writes' : List (Nat × ω)) (i : Nat) :
    writesOf (writes ++ writes') i = writesOf writes i ++ writesOf writes' i :=
  List.filter_append ..

theorem writesOf_eq_nil {writes : List (Nat × ω)} {i : Nat} :
    writesOf writes i = [] ↔ ∀ write ∈ writes, write.1 ≠ i := by
  simp [writesOf]

theorem writesOf_eq_nil_of_subset {writes writes' : List (Nat × ω)} {i : Nat}
    (hsub : writes ⊆ writes') (h : writesOf writes' i = []) : writesOf writes i = [] :=
  writesOf_eq_nil.mpr fun write hwrite => writesOf_eq_nil.mp h write (hsub hwrite)

@[simp] theorem writesOf_stamp (i : Nat) (rows : List ω) :
    writesOf (stamp i rows) i = stamp i rows := by
  simp [writesOf, stamp]

/-- The writes of a request carry the number of its call. -/
theorem fst_of_mem_landed {i : Nat} {request : Request ω} {result : Result} {write : Nat × ω}
    (h : write ∈ request.landed i result) : write.1 = i := by
  obtain ⟨row, -, rfl⟩ := List.mem_map.mp h
  rfl

@[simp] theorem writesOf_landed (i : Nat) (request : Request ω) (result : Result) :
    writesOf (request.landed i result) i = request.landed i result := writesOf_stamp _ _

theorem writesOf_landed_of_ne {i j : Nat} (h : j ≠ i) (request : Request ω) (result : Result) :
    writesOf (request.landed i result) j = [] :=
  writesOf_eq_nil.mpr fun _ hwrite => (fst_of_mem_landed hwrite).trans_ne h.symm

/-- What a request does to the connection and the file. -/
inductive Finishes (q : Sqlite ω) (i : Nat) (request : Request ω) (result : Result) :
    Sqlite ω → Prop where
  | write (h : result = .done → ∃ rows, request = .execute rows ∨ request = .statement rows) :
    Finishes q i request result (q.write (request.landed i result))
  | abort (h : result = .done → request = .rollback) :
    Finishes q i request result (q.write (request.landed i result)).abort
  | begin_ (hrequest : request = .begin_) (hresult : result = .done)
      (h : q.inTransaction = false) :
    Finishes q i request result { q with conn := some (.transaction []) }
  | commit (hrequest : request = .commit) (hresult : result = .done) :
    Finishes q i request result q.commit

@[simp] theorem write_nil (q : Sqlite ω) : q.write [] = q := by
  obtain ⟨conn, disk⟩ := q
  rcases conn with _ | _ | u <;> simp [Sqlite.write]

theorem finishes {q q' : Sqlite ω} {i : Nat} {request : Request ω} {result : Result}
    (h : q.finish i request result = some q') : Finishes q i request result q' := by
  unfold Sqlite.finish at h
  split at h
  · cases h
  cases result with
  | fails kept =>
    obtain rfl := Option.some.inj h
    exact .write nofun
  | aborts kept =>
    obtain rfl := Option.some.inj h
    exact .abort nofun
  | done =>
    cases request with
    | execute rows =>
      obtain rfl := Option.some.inj h
      exact .write fun _ => ⟨rows, .inl rfl⟩
    | statement rows =>
      obtain rfl := Option.some.inj h
      exact .write fun _ => ⟨rows, .inr rfl⟩
    | begin_ =>
      simp only at h
      split at h
      · cases h
      · rename_i hfree
        obtain rfl := Option.some.inj h
        exact .begin_ rfl rfl (by simpa using hfree)
    | rollback =>
      obtain rfl := Option.some.inj h
      have habort : (q.write ((Request.rollback (ω := ω)).landed i .done)).abort = q.abort :=
        congrArg Sqlite.abort (write_nil q)
      exact habort ▸ .abort fun _ => rfl
    | commit =>
      obtain rfl := Option.some.inj h
      exact .commit rfl rfl

/-- An open transaction, read off the connection. -/
theorem inTransaction_eq_true {q : Sqlite ω} :
    q.inTransaction = true ↔ ∃ u, q.conn = some (.transaction u) := by
  unfold Sqlite.inTransaction
  split
  · rename_i u hconn
    exact iff_of_true rfl ⟨u, hconn⟩
  · rename_i hne
    exact iff_of_false Bool.false_ne_true fun ⟨u, hconn⟩ => hne u hconn

theorem conn_ne_of_inTransaction {q : Sqlite ω} (h : q.inTransaction = false) (u : List (Nat × ω)) :
    q.conn ≠ some (.transaction u) := fun hconn => by
  rw [inTransaction_eq_true.mpr ⟨u, hconn⟩] at h
  cases h

theorem conn_write {q : Sqlite ω} {u : List (Nat × ω)}
    (h : q.conn = some (.transaction u)) (writes : List (Nat × ω)) :
    q.write writes = { q with conn := some (.transaction (u ++ writes)) } := by
  simp only [Sqlite.write, h]

theorem disk_write {q : Sqlite ω} (h : q.inTransaction = false)
    (writes : List (Nat × ω)) : q.write writes = { q with disk := q.disk ++ writes } := by
  unfold Sqlite.write
  split
  · rename_i u hconn
    exact absurd hconn (conn_ne_of_inTransaction h u)
  · rfl

@[simp] theorem inTransaction_abort (q : Sqlite ω) : q.abort.inTransaction = false := by
  obtain ⟨conn, disk⟩ := q
  rcases conn with _ | _ | u <;> rfl

@[simp] theorem disk_abort (q : Sqlite ω) : q.abort.disk = q.disk := by
  obtain ⟨conn, disk⟩ := q
  rcases conn with _ | _ | u <;> rfl

theorem commit_of_inTransaction {q : Sqlite ω} (h : q.inTransaction = false) : q.commit = q := by
  obtain ⟨conn, disk⟩ := q
  rcases conn with _ | _ | u
  · rfl
  · rfl
  · cases h

/-- What the holder does after its await. -/
inductive Proceeds (s : Shared ω) (i : Nat) : Stage ω → Shared ω → Prop where
  | begun : Proceeds s i (.begin_ (some true)) { s with holder := some (i, .body) }
  | returns (rows : List ω) : Proceeds s i (.execute rows (some true))
      { s with holder := none, returned := s.returned ++ [(i, rows)] }
  | fails (rows : List ω) : Proceeds s i (.execute rows (some false))
      (s.release i (.execute rows (some false)) false)
  | unbegun : Proceeds s i (.begin_ (some false)) (s.release i (.begin_ (some false)) false)
  | rolledBack (ok : Bool) :
      Proceeds s i (.rollback (some ok)) (s.release i (.rollback (some ok)) false)
  | committed (ok : Bool) :
      Proceeds s i (.commit (some ok)) (s.release i (.commit (some ok)) ok)

theorem proceeds {s s' : Shared ω} {i : Nat} {stage : Stage ω}
    (h : s.proceed i stage = some s') : Proceeds s i stage s' := by
  unfold Shared.proceed at h
  split at h
  · rename_i rows
    have hreturns := Proceeds.returns (s := s) (i := i) rows
    obtain rfl := Option.some.inj h
    simpa [Shared.release, Stage.isBlock] using hreturns
  · exact Option.some.inj h ▸ .fails _
  · exact Option.some.inj h ▸ .begun
  · exact Option.some.inj h ▸ .unbegun
  · exact Option.some.inj h ▸ .rolledBack _
  · exact Option.some.inj h ▸ .committed _
  · cases h

/-- What a step does. The proofs about runs go through `steps`. -/
inductive Steps (s : Shared ω) : DbEvent ω → Shared ω → Prop where
  | connect (hfree : s.holder = none) : Steps s .connect
      { s with sqlite := { s.sqlite with conn := some .autocommit }, jobs := [] }
  | execute (rows : List ω) (hfree : s.holder = none) : Steps s (.execute rows)
      { s with holder := some (s.next, .execute rows none), next := s.next + 1 }
  | transaction (hfree : s.holder = none) : Steps s .transaction
      { s with holder := some (s.next, .begin_ none), next := s.next + 1 }
  | finish {i : Nat} {stage : Stage ω} {request : Request ω} {result : Result} {q : Sqlite ω}
      (hholder : s.holder = some (i, stage)) (hawaits : stage.awaits = some request)
      (hfinishes : Finishes s.sqlite i request result q) : Steps s (.finish result)
      { s with
        sqlite := q
        log := s.log ++ request.landed i result
        holder := some (i, stage.told (result = .done)) }
  | resume {i : Nat} {stage : Stage ω} {s' : Shared ω} (hholder : s.holder = some (i, stage))
      (hproceeds : Proceeds s i stage s') : Steps s .resume s'
  | cancel {i : Nat} {stage : Stage ω} (hholder : s.holder = some (i, stage)) : Steps s .cancel
      { s.release i stage false with jobs := s.jobs ++ stage.awaits.toList.map (i, ·) }
  | statement {i : Nat} (rows : List ω) (hholder : s.holder = some (i, .body)) :
      Steps s (.statement rows) { s with jobs := s.jobs ++ [(i, .statement rows)] }
  | commits {i : Nat} (hholder : s.holder = some (i, .body)) :
      Steps s (.leave (.returned ())) { s with holder := some (i, .commit none) }
  | rollsBack {i : Nat} (e : Exn) (hholder : s.holder = some (i, .body)) :
      Steps s (.leave (.raised e)) { s with holder := some (i, .rollback none) }
  | cancelled {i : Nat} (hholder : s.holder = some (i, .body)) :
      Steps s (.leave .cancelled) (s.release i .body false)
  | job {k i : Nat} {request : Request ω} {result : Result} {q : Sqlite ω}
      (hjob : s.jobs[k]? = some (i, request)) (hfinishes : Finishes s.sqlite i request result q) :
      Steps s (.job k result)
      { s with
        sqlite := q
        log := s.log ++ request.landed i result
        jobs := s.jobs.eraseIdx k }
  | close : Steps s .close { s with sqlite := s.sqlite.close }
  | crash : Steps s .crash { s with sqlite := s.sqlite.close, holder := none, jobs := [] }

theorem acquire_eq_some {s s' : Shared ω} {stage : Stage ω} (h : s.acquire stage = some s') :
    s.holder = none ∧ s' = { s with holder := some (s.next, stage), next := s.next + 1 } := by
  unfold Shared.acquire at h
  split at h
  · rename_i hfree
    exact ⟨hfree.2, (Option.some.inj h).symm⟩
  · cases h

theorem steps {s s' : Shared ω} {e : DbEvent ω} (h : s.step e = some s') : Steps s e s' := by
  cases e with
  | connect =>
    simp only [Shared.step] at h
    split at h
    · rename_i hfree
      exact Option.some.inj h ▸ .connect hfree.2
    · cases h
  | execute rows =>
    obtain ⟨hfree, rfl⟩ := acquire_eq_some h
    exact .execute rows hfree
  | transaction =>
    obtain ⟨hfree, rfl⟩ := acquire_eq_some h
    exact .transaction hfree
  | finish result =>
    obtain ⟨⟨i, stage⟩, hholder, h⟩ := Option.bind_eq_some_iff.mp h
    obtain ⟨request, hawaits, h⟩ := Option.bind_eq_some_iff.mp h
    obtain ⟨t, hsettle, rfl⟩ := Option.map_eq_some_iff.mp h
    obtain ⟨q, hfinish, rfl⟩ := Option.map_eq_some_iff.mp hsettle
    exact .finish hholder hawaits (finishes hfinish)
  | resume =>
    obtain ⟨⟨i, stage⟩, hholder, h⟩ := Option.bind_eq_some_iff.mp h
    exact .resume hholder (proceeds h)
  | cancel =>
    simp only [Shared.step] at h
    split at h
    · cases h
    · cases h
    · rename_i hholder
      exact Option.some.inj h ▸ .cancel hholder
  | statement rows =>
    simp only [Shared.step] at h
    split at h
    · rename_i hholder
      exact Option.some.inj h ▸ .statement rows hholder
    · cases h
  | leave ending =>
    simp only [Shared.step] at h
    split at h
    · rename_i hholder
      exact Option.some.inj h ▸ .commits hholder
    · rename_i hholder
      exact Option.some.inj h ▸ .rollsBack _ hholder
    · rename_i hholder
      exact Option.some.inj h ▸ .cancelled hholder
    · cases h
  | job k result =>
    -- The job may belong to a request that has ended.
    obtain ⟨⟨i, request⟩, hjob, h⟩ := Option.bind_eq_some_iff.mp h
    obtain ⟨q, hfinish, rfl⟩ := Option.map_eq_some_iff.mp h
    exact .job hjob (finishes hfinish)
  | close => exact Option.some.inj h ▸ .close
  | crash => exact Option.some.inj h ▸ .crash

/-! ### The invariant -/

/-- Call `i` is a block that is over, or a statement that has returned. -/
def IsOver (s : Shared ω) (i : Nat) : Prop :=
  (∃ normal, (i, normal) ∈ s.ended) ∨ ∃ rows, (i, rows) ∈ s.returned

/-- Every call has its own number. A standalone statement whose job nobody awaits is not over. -/
structure Numbered (s : Shared ω) : Prop where
  log : ∀ write ∈ s.log, write.1 < s.next
  isOver : ∀ i, IsOver s i → i < s.next
  holder : ∀ i stage, s.holder = some (i, stage) → i < s.next ∧ ¬ IsOver s i
  jobs : ∀ i request, (i, request) ∈ s.jobs → i < s.next
  orphan : ∀ i rows, (i, .execute rows) ∈ s.jobs →
    ¬ IsOver s i ∧ ∀ stage, s.holder ≠ some (i, stage)
  once : ∀ i, (i, true) ∈ s.ended → (i, false) ∉ s.ended ∧ ∀ rows, (i, rows) ∉ s.returned

/-- The task has an open transaction, unless a statement has ended it. -/
def inside : Stage ω → Bool
  | .begin_ (some true) | .body => true
  | .rollback none | .rollback (some false) => true
  | .commit none | .commit (some false) => true
  | _ => false

/-- Where the writes of the holder are. Nothing of a block is in the file before its COMMIT. -/
def Standing (s : Shared ω) (i : Nat) : Stage ω → Prop
  | .execute _ none | .begin_ none | .begin_ (some false) => writesOf s.log i = []
  | .execute rows (some true) => writesOf s.sqlite.disk i = stamp i rows
  | .execute _ (some false) => True
  | .commit (some true) => writesOf s.sqlite.disk i = writesOf s.log i
  | _ => writesOf s.sqlite.disk i = []

/-- The open transaction `u` is the one of the holder and has all its writes. -/
structure HasOpen (s : Shared ω) (u : List (Nat × ω)) : Prop where
  log : u ⊆ s.log
  isOver : ∀ i, IsOver s i → writesOf u i = []
  holder : ∃ i stage, s.holder = some (i, stage) ∧ inside stage = true ∧
    writesOf u i = writesOf s.log i

/-- Where the writes of each call are. -/
structure Placed (s : Shared ω) : Prop where
  disk : s.sqlite.disk ⊆ s.log
  uncommitted : ∀ u, s.sqlite.conn = some (.transaction u) → HasOpen s u
  standing : ∀ i stage, s.holder = some (i, stage) → Standing s i stage
  blocks : ∀ i normal, (i, normal) ∈ s.ended →
    writesOf s.sqlite.disk i = if normal then writesOf s.log i else []
  durable : ∀ i rows, (i, rows) ∈ s.returned → writesOf s.sqlite.disk i = stamp i rows

section
variable {s s' : Shared ω}

/-- While the lock is free, or a standalone statement or a BEGIN has it, nothing is open. -/
theorem Placed.inTransaction_eq_false (h : Placed s)
    (hholder : ∀ i stage, s.holder = some (i, stage) → inside stage = false) :
    s.sqlite.inTransaction = false := by
  by_contra hopen
  obtain ⟨u, hconn⟩ := inTransaction_eq_true.mp (by simpa using hopen)
  obtain ⟨i, stage, hsome, hinside, -⟩ := (h.uncommitted u hconn).holder
  rw [hholder i stage hsome] at hinside
  cases hinside

theorem Placed.sound (h : Placed s) : Sound s where
  free hfree := h.inTransaction_eq_false fun i stage hsome => by
    rw [hfree] at hsome
    cases hsome
  blocks := h.blocks
  durable := h.durable

/-! ### What a step does to the numbers -/

theorem Numbered.acquire (h : Numbered s) (stage : Stage ω) :
    Numbered { s with holder := some (s.next, stage), next := s.next + 1 } := by
  have hfresh : ¬ IsOver s s.next := fun hover => lt_irrefl _ (h.isOver _ hover)
  exact {
    log := fun write hwrite => Nat.lt_succ_of_lt (h.log write hwrite)
    isOver := fun i hover => Nat.lt_succ_of_lt (h.isOver i hover)
    holder := by
      rintro i stage' hsome
      obtain ⟨rfl, -⟩ := Prod.mk.inj (Option.some.inj hsome)
      exact ⟨Nat.lt_succ_self _, hfresh⟩
    jobs := fun i request hjob => Nat.lt_succ_of_lt (h.jobs i request hjob)
    orphan := by
      intro i rows hjob
      refine ⟨(h.orphan i rows hjob).1, fun stage' hsome => ?_⟩
      obtain ⟨rfl, -⟩ := Prod.mk.inj (Option.some.inj hsome)
      exact lt_irrefl _ (h.jobs _ _ hjob)
    once := h.once }

/-- The holder goes on, or gives the lock back. -/
theorem Numbered.hold {i : Nat} {stage : Stage ω} (h : Numbered s)
    (hholder : s.holder = some (i, stage)) {holder : Option (Nat × Stage ω)}
    (hsame : ∀ j stage', holder = some (j, stage') → j = i) :
    Numbered { s with holder := holder } where
  log := h.log
  isOver := h.isOver
  holder j stage' hsome := by
    obtain rfl := hsame j stage' hsome
    exact h.holder j stage hholder
  jobs := h.jobs
  orphan j rows hjob := by
    obtain ⟨hover, hne⟩ := h.orphan j rows hjob
    refine ⟨hover, fun stage' hsome => ?_⟩
    obtain rfl := hsame j stage' hsome
    exact hne stage hholder
  once := h.once

/-- A call that is over has a number of its own. -/
structure Leaves (s : Shared ω) (i : Nat) : Prop where
  free : s.holder = none
  lt : i < s.next
  new : ¬ IsOver s i
  job : ∀ rows, (i, .execute rows) ∉ s.jobs

theorem Numbered.leaves {i : Nat} {stage : Stage ω} (h : Numbered s)
    (hholder : s.holder = some (i, stage)) : Leaves { s with holder := none } i where
  free := rfl
  lt := (h.holder i stage hholder).1
  new := (h.holder i stage hholder).2
  job rows hjob := (h.orphan i rows hjob).2 stage hholder

theorem over_ended {i j : Nat} {normal : Bool} :
    IsOver { s with ended := s.ended ++ [(i, normal)] } j ↔ IsOver s j ∨ j = i := by
  simp only [IsOver, List.mem_append, List.mem_singleton, Prod.mk.injEq, exists_or, exists_and_left,
    exists_eq, and_true]
  rw [or_right_comm]

theorem over_returned {i j : Nat} {rows : List ω} :
    IsOver { s with returned := s.returned ++ [(i, rows)] } j ↔ IsOver s j ∨ j = i := by
  simp only [IsOver, List.mem_append, List.mem_singleton, Prod.mk.injEq, exists_or, exists_and_left,
    exists_eq, and_true]
  rw [or_assoc]

theorem Numbered.ended {i : Nat} (h : Numbered s) (hi : Leaves s i) (normal : Bool) :
    Numbered { s with ended := s.ended ++ [(i, normal)] } where
  log := h.log
  isOver j hover := (over_ended.mp hover).elim (h.isOver j) fun hj => hj ▸ hi.lt
  holder j stage hsome := absurd (hi.free.symm.trans hsome) (Option.some_ne_none _).symm
  jobs := h.jobs
  orphan j rows hjob := by
    obtain ⟨hover, hne⟩ := h.orphan j rows hjob
    refine ⟨fun hover' => ?_, hne⟩
    rcases over_ended.mp hover' with hold | rfl
    · exact hover hold
    · exact hi.job rows hjob
  once j hj := by
    rcases List.mem_append.mp hj with hold | hnew
    · obtain ⟨hother, hreturned⟩ := h.once j hold
      refine ⟨fun hfalse => ?_, hreturned⟩
      rcases List.mem_append.mp hfalse with hold' | hnew'
      · exact hother hold'
      · obtain ⟨rfl, -⟩ := Prod.mk.inj (List.mem_singleton.mp hnew')
        exact hi.new (.inl ⟨true, hold⟩)
    · -- The new entry is the first one of its call.
      obtain ⟨rfl, rfl⟩ := Prod.mk.inj (List.mem_singleton.mp hnew)
      refine ⟨fun hfalse => ?_, fun rows hrows => hi.new (.inr ⟨rows, hrows⟩)⟩
      rcases List.mem_append.mp hfalse with hold' | hnew'
      · exact hi.new (.inl ⟨false, hold'⟩)
      · cases (Prod.mk.inj (List.mem_singleton.mp hnew')).2

theorem Numbered.returned {i : Nat} (h : Numbered s) (hi : Leaves s i) (rows : List ω) :
    Numbered { s with returned := s.returned ++ [(i, rows)] } where
  log := h.log
  isOver j hover := (over_returned.mp hover).elim (h.isOver j) fun hj => hj ▸ hi.lt
  holder j stage hsome := absurd (hi.free.symm.trans hsome) (Option.some_ne_none _).symm
  jobs := h.jobs
  orphan j rows' hjob := by
    obtain ⟨hover, hne⟩ := h.orphan j rows' hjob
    refine ⟨fun hover' => ?_, hne⟩
    rcases over_returned.mp hover' with hold | rfl
    · exact hover hold
    · exact hi.job rows' hjob
  once j hj := by
    obtain ⟨hother, hreturned⟩ := h.once j hj
    refine ⟨hother, fun rows' hrows => ?_⟩
    rcases List.mem_append.mp hrows with hold | hnew
    · exact hreturned rows' hold
    · obtain ⟨rfl, -⟩ := Prod.mk.inj (List.mem_singleton.mp hnew)
      exact hi.new (.inl ⟨true, hj⟩)

/-- A job more. A standalone statement has lost its task. -/
theorem Numbered.job {i : Nat} {request : Request ω} (h : Numbered s) (hlt : i < s.next)
    (horphan : ∀ rows, request = .execute rows →
      ¬ IsOver s i ∧ ∀ stage, s.holder ≠ some (i, stage)) :
    Numbered { s with jobs := s.jobs ++ [(i, request)] } where
  log := h.log
  isOver := h.isOver
  holder := h.holder
  jobs j request' hjob := by
    rcases List.mem_append.mp hjob with hold | hnew
    · exact h.jobs j request' hold
    · obtain ⟨rfl, -⟩ := Prod.mk.inj (List.mem_singleton.mp hnew)
      exact hlt
  orphan j rows hjob := by
    rcases List.mem_append.mp hjob with hold | hnew
    · exact h.orphan j rows hold
    · obtain ⟨rfl, rfl⟩ := Prod.mk.inj (List.mem_singleton.mp hnew)
      exact horphan rows rfl
  once := h.once

/-- Jobs less. -/
theorem Numbered.jobs_subset {jobs : List (Nat × Request ω)} (h : Numbered s)
    (hsub : jobs ⊆ s.jobs) : Numbered { s with jobs := jobs } where
  log := h.log
  isOver := h.isOver
  holder := h.holder
  jobs i request hjob := h.jobs i request (hsub hjob)
  orphan i rows hjob := h.orphan i rows (hsub hjob)
  once := h.once

/-- SQLite ends a request. -/
theorem Numbered.settle {i : Nat} (h : Numbered s) (hlt : i < s.next) (request : Request ω)
    (result : Result) (q : Sqlite ω) :
    Numbered { s with sqlite := q, log := s.log ++ request.landed i result } where
  log write hwrite := by
    rcases List.mem_append.mp hwrite with hold | hnew
    · exact h.log write hold
    · rw [fst_of_mem_landed hnew]
      exact hlt
  isOver := h.isOver
  holder := h.holder
  jobs := h.jobs
  orphan := h.orphan
  once := h.once

/-- What the task does when it gives the lock back. -/
theorem Numbered.release {i : Nat} {stage : Stage ω} (h : Numbered s)
    (hholder : s.holder = some (i, stage)) (normal : Bool) :
    Numbered (s.release i stage normal) := by
  have hfree : Numbered { s with holder := none } := h.hold hholder nofun
  unfold Shared.release
  split
  · exact hfree.ended (h.leaves hholder) normal
  · rw [List.append_nil]
    exact hfree

/-- The stages that await a job. -/
theorem awaits_cases {stage : Stage ω} {request : Request ω} (h : stage.awaits = some request) :
    (∃ rows, stage = .execute rows none ∧ request = .execute rows) ∨
    (stage = .begin_ none ∧ request = .begin_) ∨ (stage = .rollback none ∧ request = .rollback) ∨
      (stage = .commit none ∧ request = .commit) := by
  unfold Stage.awaits at h
  split at h <;> simp_all

/-- A cancelled await leaves its job behind. -/
theorem Numbered.cancel {i : Nat} {stage : Stage ω} (h : Numbered s)
    (hholder : s.holder = some (i, stage)) :
    Numbered { s.release i stage false with
      jobs := s.jobs ++ stage.awaits.toList.map (i, ·) } := by
  have hrelease := h.release hholder false
  cases hawaits : stage.awaits with
  | none => exact hrelease.jobs_subset (by simp [Shared.release])
  | some request =>
    refine hrelease.job (h.holder i stage hholder).1 fun rows hrows => ?_
    -- A standalone statement is not recorded as over when it is cancelled.
    subst hrows
    obtain ⟨rows', rfl, -⟩ | ⟨-, hne⟩ | ⟨-, hne⟩ | ⟨-, hne⟩ := awaits_cases hawaits
    · refine ⟨fun hover => (h.holder i _ hholder).2 ?_, nofun⟩
      simpa [IsOver, Shared.release, Stage.isBlock] using hover
    all_goals cases hne

theorem Numbered.proceed {i : Nat} {stage : Stage ω} (h : Numbered s)
    (hholder : s.holder = some (i, stage)) (hproceeds : Proceeds s i stage s') :
    Numbered s' := by
  cases hproceeds with
  | begun => exact h.hold hholder fun j stage' hsome => (Prod.mk.inj (Option.some.inj hsome)).1.symm
  | returns rows =>
    have hfree : Numbered { s with holder := none } := h.hold hholder nofun
    exact hfree.returned (h.leaves hholder) rows
  | fails | unbegun | rolledBack | committed => exact h.release hholder _

/-- Every step keeps the numbers apart. -/
theorem Numbered.step {e : DbEvent ω} (h : Numbered s) (hsteps : Steps s e s') : Numbered s' := by
  have hsame {i : Nat} {stage stage' : Stage ω} (j : Nat)
      (hsome : some (i, stage) = some (j, stage')) : j = i :=
    (Prod.mk.inj (Option.some.inj hsome)).1.symm
  cases hsteps with
  | connect => exact ⟨h.log, h.isOver, h.holder, nofun, nofun, h.once⟩
  | execute rows => exact h.acquire _
  | transaction => exact h.acquire _
  | finish hholder =>
    exact (h.settle (h.holder _ _ hholder).1 _ _ _).hold hholder fun j _ => hsame j
  | resume hholder hproceeds => exact h.proceed hholder hproceeds
  | cancel hholder => exact h.cancel hholder
  | statement rows hholder => exact h.job (h.holder _ _ hholder).1 nofun
  | commits hholder => exact h.hold hholder fun j _ => hsame j
  | rollsBack _ hholder => exact h.hold hholder fun j _ => hsame j
  | cancelled hholder => exact h.release hholder false
  | job hjob =>
    exact (h.jobs_subset List.eraseIdx_subset).settle (h.jobs _ _ (List.mem_of_getElem? hjob)) _ _ _
  | close => exact ⟨h.log, h.isOver, h.holder, h.jobs, h.orphan, h.once⟩
  | crash => exact ⟨h.log, h.isOver, nofun, nofun, nofun, h.once⟩

/-! ### What a step does to the writes -/

theorem Standing.congr {i : Nat} {stage : Stage ω} (h : Standing s i stage)
    (hdisk : writesOf s'.sqlite.disk i = writesOf s.sqlite.disk i)
    (hlog : writesOf s'.log i = writesOf s.log i) : Standing s' i stage := by
  unfold Standing at h ⊢
  split <;> simp_all

/-- Inside its transaction the block has nothing in the file. -/
theorem standing_inside {i : Nat} {stage : Stage ω} (h : inside stage = true) :
    Standing s i stage ↔ writesOf s.sqlite.disk i = [] := by
  unfold inside at h
  split at h <;> first | exact Iff.rfl | cases h

/-- The holder changes while no transaction is open. -/
theorem Placed.hold (h : Placed s) (hclosed : s.sqlite.inTransaction = false)
    {holder : Option (Nat × Stage ω)}
    (hstanding : ∀ i stage, holder = some (i, stage) → Standing s i stage) :
    Placed { s with holder := holder } where
  disk := h.disk
  uncommitted u hconn := absurd hconn (conn_ne_of_inTransaction hclosed u)
  standing := hstanding
  blocks := h.blocks
  durable := h.durable

/-- The holder goes on. -/
theorem Placed.goOn {i : Nat} {stage stage' : Stage ω} (h : Placed s)
    (hholder : s.holder = some (i, stage)) (hinside : inside stage = true → inside stage' = true)
    (hstanding : Standing s i stage') : Placed { s with holder := some (i, stage') } where
  disk := h.disk
  uncommitted u hconn := by
    have hopen := h.uncommitted u hconn
    obtain ⟨j, stage'', hsome, hin, hall⟩ := hopen.holder
    obtain ⟨rfl, rfl⟩ := Prod.mk.inj (Option.some.inj (hholder.symm.trans hsome))
    exact ⟨hopen.log, hopen.isOver, i, stage', rfl, hinside hin, hall⟩
  standing j stage'' hsome := by
    obtain ⟨rfl, rfl⟩ := Prod.mk.inj (Option.some.inj hsome)
    exact hstanding
  blocks := h.blocks
  durable := h.durable

/-- A block is over. -/
theorem Placed.ended {i : Nat} {normal : Bool} (h : Placed s)
    (hclosed : s.sqlite.inTransaction = false)
    (hwrites : writesOf s.sqlite.disk i = if normal then writesOf s.log i else []) :
    Placed { s with ended := s.ended ++ [(i, normal)] } where
  disk := h.disk
  uncommitted u hconn := absurd hconn (conn_ne_of_inTransaction hclosed u)
  standing := h.standing
  blocks j normal' hj := by
    rcases List.mem_append.mp hj with hold | hnew
    · exact h.blocks j normal' hold
    · obtain ⟨rfl, rfl⟩ := Prod.mk.inj (List.mem_singleton.mp hnew)
      exact hwrites
  durable := h.durable

/-- A standalone statement has returned. -/
theorem Placed.returned {i : Nat} {rows : List ω} (h : Placed s)
    (hclosed : s.sqlite.inTransaction = false)
    (hwrites : writesOf s.sqlite.disk i = stamp i rows) :
    Placed { s with returned := s.returned ++ [(i, rows)] } where
  disk := h.disk
  uncommitted u hconn := absurd hconn (conn_ne_of_inTransaction hclosed u)
  standing := h.standing
  blocks := h.blocks
  durable j rows' hj := by
    rcases List.mem_append.mp hj with hold | hnew
    · exact h.durable j rows' hold
    · obtain ⟨rfl, rfl⟩ := Prod.mk.inj (List.mem_singleton.mp hnew)
      exact hwrites

/-- The lock is given back while no transaction is open. -/
theorem Placed.release {i : Nat} {stage : Stage ω} {normal : Bool} (h : Placed s)
    (hclosed : s.sqlite.inTransaction = false)
    (hwrites : stage.isBlock = true →
      writesOf s.sqlite.disk i = if normal then writesOf s.log i else []) :
    Placed (s.release i stage normal) := by
  have hfree : Placed { s with holder := none } := h.hold hclosed nofun
  unfold Shared.release
  split
  · rename_i hblock
    exact hfree.ended hclosed (hwrites hblock)
  · rw [List.append_nil]
    exact hfree

/-- The connection changes to one without a transaction, and the file stays. -/
theorem Placed.closed {q : Sqlite ω} (h : Placed s) (hclosed : q.inTransaction = false)
    (hdisk : q.disk = s.sqlite.disk) : Placed { s with sqlite := q } where
  disk := by rw [hdisk]; exact h.disk
  uncommitted u hconn := absurd hconn (conn_ne_of_inTransaction hclosed u)
  standing i stage hsome := (h.standing i stage hsome).congr (congrArg (writesOf · i) hdisk) rfl
  blocks i normal hi := by rw [hdisk]; exact h.blocks i normal hi
  durable i rows hi := by rw [hdisk]; exact h.durable i rows hi

/-- Whose write takes effect: the write of a standalone statement that is not over, of the holder
in its transaction, or of a block that has ended normally. -/
def Writer (s : Shared ω) (i : Nat) : Prop :=
  (¬ IsOver s i ∧ ∀ stage, s.holder ≠ some (i, stage)) ∨
  (s.sqlite.inTransaction = true ∧ ∃ stage, s.holder = some (i, stage)) ∨
  (s.sqlite.inTransaction = false ∧ (i, true) ∈ s.ended)

/-- A write joins the open transaction. -/
theorem Placed.write_of_transaction {i : Nat} {u : List (Nat × ω)} (h : Placed s)
    (hconn : s.sqlite.conn = some (.transaction u)) (hnew : ¬ IsOver s i) (request : Request ω)
    (result : Result) :
    Placed { s with
      sqlite := s.sqlite.write (request.landed i result)
      log := s.log ++ request.landed i result } := by
  have hopen := h.uncommitted u hconn
  obtain ⟨k, stage, hholder, hinside, hall⟩ := hopen.holder
  have hne {j : Nat} (hover : IsOver s j) : writesOf (request.landed i result) j = [] :=
    writesOf_landed_of_ne (fun (hj : j = i) => hnew (hj ▸ hover)) request result
  have hdisk := (standing_inside hinside).mp (h.standing k stage hholder)
  rw [conn_write hconn]
  exact {
    disk := fun write hwrite => List.mem_append_left _ (h.disk hwrite)
    uncommitted := by
      intro u' hconn'
      obtain rfl := Connection.transaction.inj (Option.some.inj hconn')
      exact {
        log := List.append_subset.mpr ⟨fun write hwrite => List.mem_append_left _ (hopen.log hwrite),
          List.subset_append_right _ _⟩
        isOver := fun j hover => by rw [writesOf_append, hopen.isOver j hover, hne hover]; rfl
        holder := ⟨k, stage, hholder, hinside, by
          rw [writesOf_append, writesOf_append, hall]⟩ }
    standing := by
      intro j stage' hsome
      obtain ⟨rfl, rfl⟩ := Prod.mk.inj (Option.some.inj (hholder.symm.trans hsome))
      exact (standing_inside hinside).mpr hdisk
    blocks := fun j normal hj => by
      rw [writesOf_append, hne (.inl ⟨normal, hj⟩), List.append_nil]
      exact h.blocks j normal hj
    durable := h.durable }

/-- A write reaches the file in autocommit. -/
theorem Placed.write_of_autocommit {i : Nat} (h : Placed s)
    (hclosed : s.sqlite.inTransaction = false) (hholder : ∀ stage, s.holder ≠ some (i, stage))
    (hover : IsOver s i → (i, true) ∈ s.ended ∧ (i, false) ∉ s.ended ∧ ∀ rows, (i, rows) ∉ s.returned)
    (request : Request ω) (result : Result) :
    Placed { s with
      sqlite := s.sqlite.write (request.landed i result)
      log := s.log ++ request.landed i result } := by
  have hne {j : Nat} (hj : j ≠ i) : writesOf (request.landed i result) j = [] :=
    writesOf_landed_of_ne hj request result
  rw [disk_write hclosed]
  exact {
    disk := List.append_subset.mpr ⟨fun write hwrite => List.mem_append_left _ (h.disk hwrite),
      List.subset_append_right _ _⟩
    uncommitted := fun u hconn => absurd hconn (conn_ne_of_inTransaction hclosed u)
    standing := by
      intro j stage hsome
      have hj : j ≠ i := fun hj => hholder stage (hj ▸ hsome)
      refine (h.standing j stage hsome).congr ?_ ?_
      · rw [writesOf_append, hne hj, List.append_nil]
      · rw [writesOf_append, hne hj, List.append_nil]
    blocks := by
      intro j normal hj
      by_cases hji : j = i
      · -- Only a block that ended normally still writes.
        subst hji
        obtain ⟨htrue, hfalse, -⟩ := hover (.inl ⟨normal, hj⟩)
        cases normal with
        | false => exact absurd hj hfalse
        | true =>
          have hbefore := h.blocks j true htrue
          simp only [if_true] at hbefore ⊢
          rw [writesOf_append, writesOf_append, hbefore]
      · rw [writesOf_append, writesOf_append, hne hji, List.append_nil, List.append_nil]
        exact h.blocks j normal hj
    durable := by
      intro j rows hj
      have hji : j ≠ i := fun hji => (hover (hji ▸ .inr ⟨rows, hj⟩)).2.2 rows (hji ▸ hj)
      rw [writesOf_append, hne hji, List.append_nil]
      exact h.durable j rows hj }

theorem Placed.write {i : Nat} (h : Placed s) (hn : Numbered s) (hwriter : Writer s i)
    (request : Request ω) (result : Result) :
    Placed { s with
      sqlite := s.sqlite.write (request.landed i result)
      log := s.log ++ request.landed i result } := by
  cases hopen : s.sqlite.inTransaction with
  | true =>
    -- The write must not join the transaction for a call that is over.
    obtain ⟨u, hconn⟩ := inTransaction_eq_true.mp hopen
    refine h.write_of_transaction hconn ?_ request result
    rcases hwriter with ⟨hnew, -⟩ | ⟨-, stage, hholder⟩ | ⟨hclosed, -⟩
    · exact hnew
    · exact (hn.holder i stage hholder).2
    · rw [hopen] at hclosed
      cases hclosed
  | false =>
    -- The write is in the file at once, so its call must be new, or a block that has committed.
    rcases hwriter with ⟨hnew, hholder⟩ | ⟨hopen', -⟩ | ⟨-, hended⟩
    · exact h.write_of_autocommit hopen hholder (fun hover => absurd hover hnew) request result
    · rw [hopen] at hopen'
      cases hopen'
    · refine h.write_of_autocommit hopen (fun stage hholder => ?_) (fun _ => ?_) request result
      · exact (hn.holder i stage hholder).2 (.inl ⟨true, hended⟩)
      · exact ⟨hended, hn.once i hended⟩

/-- The transaction of the holder begins. Its block has not written. -/
theorem Placed.begin_ {i : Nat} (h : Placed s) (hholder : s.holder = some (i, .begin_ none)) :
    Placed { s with
      sqlite := { s.sqlite with conn := some (.transaction []) }
      holder := some (i, .begin_ (some true)) } where
  disk := h.disk
  uncommitted u hconn := by
    obtain rfl := Connection.transaction.inj (Option.some.inj hconn)
    have hnone : writesOf s.log i = [] := h.standing i _ hholder
    exact ⟨List.nil_subset _, fun _ _ => rfl, i, _, rfl, rfl, hnone.symm⟩
  standing j stage hsome := by
    obtain ⟨rfl, rfl⟩ := Prod.mk.inj (Option.some.inj hsome)
    exact writesOf_eq_nil_of_subset h.disk (h.standing i _ hholder)
  blocks := h.blocks
  durable := h.durable

/-- The COMMIT of the holder puts all writes of its block into the file. -/
theorem Placed.commit {i : Nat} (h : Placed s) (hholder : s.holder = some (i, .commit none))
    (horderly : s.sqlite.inTransaction = true ∨ writesOf s.log i = []) : Placed { s with
      sqlite := s.sqlite.commit
      holder := some (i, .commit (some true)) } := by
  have hnone : writesOf s.sqlite.disk i = [] := h.standing i _ hholder
  cases hopen : s.sqlite.inTransaction with
  | false =>
    -- A statement has ended the transaction of a block that has not written.
    have hlog : writesOf s.log i = [] := horderly.resolve_left (by simp [hopen])
    rw [commit_of_inTransaction hopen]
    refine h.hold hopen fun j stage hsome => ?_
    obtain ⟨rfl, rfl⟩ := Prod.mk.inj (Option.some.inj hsome)
    exact hnone.trans hlog.symm
  | true =>
    obtain ⟨u, hconn⟩ := inTransaction_eq_true.mp hopen
    have hu := h.uncommitted u hconn
    obtain ⟨k, stage, hsome, -, hall⟩ := hu.holder
    obtain ⟨rfl, rfl⟩ := Prod.mk.inj (Option.some.inj (hholder.symm.trans hsome))
    have hcommit : s.sqlite.commit = ⟨some .autocommit, s.sqlite.disk ++ u⟩ := by
      simp only [Sqlite.commit, hconn]
    rw [hcommit]
    exact {
      disk := List.append_subset.mpr ⟨h.disk, hu.log⟩
      uncommitted := nofun
      standing := by
        intro j stage hsome
        obtain ⟨rfl, rfl⟩ := Prod.mk.inj (Option.some.inj hsome)
        show writesOf (s.sqlite.disk ++ u) i = writesOf s.log i
        rw [writesOf_append, hnone, List.nil_append, hall]
      blocks := fun j normal hj => by
        rw [writesOf_append, hu.isOver j (.inl ⟨normal, hj⟩), List.append_nil]
        exact h.blocks j normal hj
      durable := fun j rows hj => by
        rw [writesOf_append, hu.isOver j (.inr ⟨rows, hj⟩), List.append_nil]
        exact h.durable j rows hj }

/-- A standalone statement ends. The connection is in autocommit. -/
theorem Placed.finish_execute {i : Nat} {rows : List ω} {result : Result} {q : Sqlite ω}
    (h : Placed s) (hholder : s.holder = some (i, .execute rows none)) (hnew : ¬ IsOver s i)
    (hfinishes : Finishes s.sqlite i (.execute rows) result q) : Placed { s with
      sqlite := q
      log := s.log ++ (Request.execute rows).landed i result
      holder := some (i, .execute rows (some (result = .done))) } := by
  have hclosed : s.sqlite.inTransaction = false := h.inTransaction_eq_false fun j stage hsome => by
    obtain ⟨rfl, rfl⟩ := Prod.mk.inj (Option.some.inj (hholder.symm.trans hsome))
    rfl
  have hnone : writesOf s.sqlite.disk i = [] :=
    writesOf_eq_nil_of_subset h.disk (h.standing i _ hholder)
  -- The write reaches the file as it does for a call without the lock.
  have hfree : Placed { s with holder := none } := h.hold hclosed nofun
  have hwritten := hfree.write_of_autocommit hclosed nofun (fun hover => absurd hover hnew)
    (.execute rows) result
  have hstill : (s.sqlite.write ((Request.execute rows).landed i result)).inTransaction = false := by
    rw [disk_write hclosed]
    exact hclosed
  cases hfinishes with
  | write _ =>
    refine hwritten.hold hstill fun j stage hsome => ?_
    obtain ⟨rfl, rfl⟩ := Prod.mk.inj (Option.some.inj hsome)
    cases result with
    | done =>
      show writesOf (s.sqlite.write _).disk i = stamp i rows
      rw [disk_write hclosed, writesOf_append, hnone, writesOf_landed]
      rfl
    | fails kept | aborts kept => trivial
  | abort hresult =>
    have hdone : result ≠ .done := fun hdone => nomatch hresult hdone
    refine (hwritten.closed (inTransaction_abort _) (disk_abort _)).hold (inTransaction_abort _)
      fun j stage hsome => ?_
    obtain ⟨rfl, rfl⟩ := Prod.mk.inj (Option.some.inj hsome)
    rw [decide_eq_false hdone]
    trivial
  | begin_ hrequest => cases hrequest
  | commit hrequest => cases hrequest

/-- The transaction ends without its writes, and the holder goes on. -/
theorem Placed.abort {i : Nat} {stage : Stage ω} (h : Placed s) (hstanding : Standing s i stage) :
    Placed { s with sqlite := s.sqlite.abort, holder := some (i, stage) } := by
  have hclosed := inTransaction_abort s.sqlite
  refine (h.closed hclosed (disk_abort _)).hold hclosed fun j stage' hsome => ?_
  obtain ⟨rfl, rfl⟩ := Prod.mk.inj (Option.some.inj hsome)
  exact hstanding.congr (congrArg (writesOf · i) (disk_abort _)) rfl

/-- BEGIN, ROLLBACK and COMMIT have no rows. -/
theorem landed_eq_nil {request : Request ω} (h : request.rows = []) (i : Nat) (result : Result) :
    request.landed i result = [] := by
  cases result <;> simp [Request.landed, Result.keeps, stamp, h]

/-- A BEGIN, ROLLBACK or COMMIT of the holder fails, alone or with the open transaction. -/
theorem Placed.finish_failed {i : Nat} {stage : Stage ω} {request : Request ω} {result : Result}
    {q : Sqlite ω} (h : Placed s) (hholder : s.holder = some (i, stage))
    (hrows : request.rows = []) (hfailed : result ≠ .done)
    (hfinishes : Finishes s.sqlite i request result q) (hstanding : Standing s i (stage.told false))
    (hinside : inside stage = true → inside (stage.told false) = true) : Placed { s with
      sqlite := q
      log := s.log ++ request.landed i result
      holder := some (i, stage.told (result = .done)) } := by
  rw [landed_eq_nil hrows, List.append_nil, decide_eq_false hfailed]
  cases hfinishes with
  | write _ =>
    rw [landed_eq_nil hrows, write_nil]
    exact h.goOn hholder hinside hstanding
  | abort _ =>
    rw [landed_eq_nil hrows, write_nil]
    exact h.abort hstanding
  | begin_ _ hdone => exact absurd hdone hfailed
  | commit _ hdone => exact absurd hdone hfailed

/-- The job is over that the holder awaits. -/
theorem Placed.finish {i : Nat} {stage : Stage ω} {request : Request ω} {result : Result}
    {q : Sqlite ω} (h : Placed s) (hn : Numbered s) (hholder : s.holder = some (i, stage))
    (hawaits : stage.awaits = some request) (hfinishes : Finishes s.sqlite i request result q)
    (horderly : orderly s (.finish result) = true) : Placed { s with
      sqlite := q
      log := s.log ++ request.landed i result
      holder := some (i, stage.told (result = .done)) } := by
  have hstanding := h.standing i stage hholder
  obtain ⟨rows, rfl, rfl⟩ | ⟨rfl, rfl⟩ | ⟨rfl, rfl⟩ | ⟨rfl, rfl⟩ := awaits_cases hawaits
  · exact h.finish_execute hholder (hn.holder i _ hholder).2 hfinishes
  -- BEGIN.
  · by_cases hdone : result = .done
    · subst hdone
      rw [landed_eq_nil rfl, List.append_nil]
      cases hfinishes with
      | write hrows => simpa using hrows rfl
      | abort hrequest => cases hrequest rfl
      | begin_ => exact h.begin_ hholder
      | commit hrequest => cases hrequest
    · exact h.finish_failed hholder rfl hdone hfinishes hstanding nofun
  -- ROLLBACK.
  · by_cases hdone : result = .done
    · subst hdone
      rw [landed_eq_nil rfl, List.append_nil]
      cases hfinishes with
      | write hrows => simpa using hrows rfl
      | abort _ =>
        have hrolledBack : Standing s i (.rollback (some true)) := hstanding
        rw [landed_eq_nil rfl, write_nil]
        exact h.abort hrolledBack
      | begin_ hrequest => cases hrequest
      | commit hrequest => cases hrequest
    · exact h.finish_failed hholder rfl hdone hfinishes hstanding fun _ => rfl
  -- COMMIT. An orderly one finds the transaction open, or its block has not written.
  · by_cases hdone : result = .done
    · subst hdone
      rw [landed_eq_nil rfl, List.append_nil]
      cases hfinishes with
      | write hrows => simpa using hrows rfl
      | abort hrequest => cases hrequest rfl
      | begin_ hrequest => cases hrequest
      | commit => exact h.commit hholder (by simpa [orderly, hholder] using horderly)
    · exact h.finish_failed hholder rfl hdone hfinishes hstanding fun _ => rfl

/-- A job is over that the holder does not await. -/
theorem Placed.job {i : Nat} {request : Request ω} {result : Result} {q : Sqlite ω} (h : Placed s)
    (hn : Numbered s) (hjob : (i, request) ∈ s.jobs)
    (hfinishes : Finishes s.sqlite i request result q)
    (hharmless : harmless s i result request = true) : Placed { s with
      sqlite := q
      log := s.log ++ request.landed i result } := by
  have hsilent (hnone : request.landed i result = []) : Placed { s with
      sqlite := s.sqlite.write (request.landed i result)
      log := s.log ++ request.landed i result } := by
    rw [hnone, write_nil, List.append_nil]
    exact h
  have hwritten : Placed { s with
      sqlite := s.sqlite.write (request.landed i result)
      log := s.log ++ request.landed i result } := by
    cases request with
    | execute rows => exact h.write hn (.inl (hn.orphan i rows hjob)) _ _
    | statement rows =>
      simp only [harmless, Bool.or_eq_true, List.isEmpty_iff] at hharmless
      obtain hnone | hwriter := hharmless
      · exact hsilent hnone
      · refine h.write hn (.inr ?_) _ _
        cases hopen : s.sqlite.inTransaction with
        | true => exact .inl ⟨rfl, by simpa [hopen] using hwriter⟩
        | false => exact .inr ⟨rfl, by simpa [hopen] using hwriter⟩
    | begin_ | rollback | commit => exact hsilent (landed_eq_nil rfl i result)
  cases hfinishes with
  | write _ => exact hwritten
  | abort _ => exact hwritten.closed (inTransaction_abort _) (disk_abort _)
  | begin_ hrequest hresult _ =>
    subst hrequest hresult
    cases hharmless
  | commit hrequest hresult =>
    subst hrequest hresult
    have hclosed : s.sqlite.inTransaction = false := by simpa [harmless] using hharmless
    rw [commit_of_inTransaction hclosed, landed_eq_nil rfl, List.append_nil]
    exact h

/-- The jobs say nothing about the writes. -/
theorem Placed.jobs (h : Placed s) (jobs : List (Nat × Request ω)) :
    Placed { s with jobs := jobs } where
  disk := h.disk
  uncommitted u hconn :=
    ⟨(h.uncommitted u hconn).log, (h.uncommitted u hconn).isOver, (h.uncommitted u hconn).holder⟩
  standing := h.standing
  blocks := h.blocks
  durable := h.durable

/-- A block that has not committed has nothing in the file. -/
theorem Placed.disk_eq_nil {i : Nat} {stage : Stage ω} (h : Placed s)
    (hholder : s.holder = some (i, stage)) (hblock : stage.isBlock = true)
    (hcommit : stage = .commit (some true) → writesOf s.log i = []) :
    writesOf s.sqlite.disk i = [] := by
  have hstanding := h.standing i stage hholder
  unfold Standing at hstanding
  split at hstanding
  · cases hblock
  · exact writesOf_eq_nil_of_subset h.disk hstanding
  · exact writesOf_eq_nil_of_subset h.disk hstanding
  · cases hblock
  · cases hblock
  · rw [hstanding, hcommit rfl]
  · exact hstanding

/-- The lock is taken, by a call that has not written. -/
theorem Placed.acquire {stage : Stage ω} (h : Placed s) (hn : Numbered s) (hfree : s.holder = none)
    (hstanding : ∀ i, writesOf s.log i = [] → Standing s i stage) :
    Placed { s with holder := some (s.next, stage), next := s.next + 1 } := by
  have hclosed : s.sqlite.inTransaction = false := h.sound.free hfree
  have hnew : writesOf s.log s.next = [] :=
    writesOf_eq_nil.mpr fun write hwrite => (hn.log write hwrite).ne
  have hheld : Placed { s with holder := some (s.next, stage) } :=
    h.hold hclosed fun j stage' hsome => by
      obtain ⟨rfl, rfl⟩ := Prod.mk.inj (Option.some.inj hsome)
      exact hstanding _ hnew
  exact ⟨hheld.disk, fun u hconn => absurd hconn (conn_ne_of_inTransaction hclosed u),
    hheld.standing, hheld.blocks, hheld.durable⟩

theorem Placed.proceed {i : Nat} {stage : Stage ω} (h : Placed s)
    (hholder : s.holder = some (i, stage)) (hproceeds : Proceeds s i stage s')
    (horderly : orderly s .resume = true) : Placed s' := by
  -- Only a task inside its transaction can have one open.
  have hclosed (hinside : inside stage = false) : s.sqlite.inTransaction = false :=
    h.inTransaction_eq_false fun j stage' hsome => by
      obtain ⟨rfl, rfl⟩ := Prod.mk.inj (Option.some.inj (hholder.symm.trans hsome))
      exact hinside
  have hstanding := h.standing i stage hholder
  cases hproceeds with
  | begun => exact h.goOn hholder (fun _ => rfl) hstanding
  | returns rows =>
    have hfree : Placed { s with holder := none } := h.hold (hclosed rfl) nofun
    exact hfree.returned (hclosed rfl) hstanding
  | fails rows => exact h.release (hclosed rfl) nofun
  | unbegun => exact h.release (hclosed rfl) fun hblock => h.disk_eq_nil hholder hblock nofun
  | rolledBack ok =>
    refine h.release ?_ fun hblock => h.disk_eq_nil hholder hblock nofun
    cases ok with
    | true => exact hclosed rfl
    | false => simpa [orderly, hholder] using horderly
  | committed ok =>
    cases ok with
    | true => exact h.release (hclosed rfl) fun _ => hstanding
    | false =>
      refine h.release ?_ fun hblock => h.disk_eq_nil hholder hblock nofun
      simpa [orderly, hholder] using horderly

/-- Every orderly step keeps the writes in their places. -/
theorem Placed.step {e : DbEvent ω} (h : Placed s) (hn : Numbered s) (hsteps : Steps s e s')
    (horderly : orderly s e = true) : Placed s' := by
  cases hsteps with
  | connect => exact (h.closed (q := { s.sqlite with conn := some .autocommit }) rfl rfl).jobs []
  | execute rows hfree => exact h.acquire hn hfree fun _ hnone => hnone
  | transaction hfree => exact h.acquire hn hfree fun _ hnone => hnone
  | finish hholder hawaits hfinishes => exact h.finish hn hholder hawaits hfinishes horderly
  | resume hholder hproceeds => exact h.proceed hholder hproceeds horderly
  | cancel hholder =>
    -- No transaction is open, and a COMMIT that has taken effect had nothing to commit.
    obtain ⟨hclosed, hcommit⟩ := Bool.and_eq_true_iff.mp horderly
    refine (h.release (by simpa using hclosed) fun hblock => ?_).jobs _
    refine h.disk_eq_nil hholder hblock fun hstage => ?_
    subst hstage
    simpa [hholder] using hcommit
  | statement => exact h.jobs _
  | commits hholder =>
    -- The writes of the body are in its transaction, or were lost with it.
    have hbody : writesOf s.sqlite.disk _ = [] := h.standing _ _ hholder
    exact h.goOn hholder (fun _ => rfl) hbody
  | rollsBack _ hholder =>
    have hbody : writesOf s.sqlite.disk _ = [] := h.standing _ _ hholder
    exact h.goOn hholder (fun _ => rfl) hbody
  | cancelled hholder =>
    exact h.release (by simpa [orderly] using horderly) fun _ => h.standing _ _ hholder
  | job hjob hfinishes =>
    refine (h.job hn (List.mem_of_getElem? hjob) hfinishes ?_).jobs _
    simpa [orderly, hjob] using horderly
  | close => exact h.closed (q := s.sqlite.close) rfl rfl
  | crash =>
    have hfree : Placed { s with sqlite := s.sqlite.close, holder := none } :=
      (h.closed (q := s.sqlite.close) rfl rfl).hold rfl nofun
    exact hfree.jobs []

end

/-- In every run of orderly steps, the contract holds in every state that is reached. The steps
are those of any blocks and standalone statements, of the threads that do their jobs, and of
closes and crashes. -/
theorem sound_of_orderly (es : List (DbEvent ω)) (s : Shared ω)
    (hrun : Run.exec Shared.step ({} : Shared ω) es = some s)
    (horderly : Run.Along Shared.step (fun s e _ => orderly s e = true) {} es) : Sound s := by
  have hover (i : Nat) : ¬ IsOver ({} : Shared ω) i := by rintro (⟨_, hi⟩ | ⟨_, hi⟩) <;> cases hi
  have hnumbered : Numbered ({} : Shared ω) :=
    ⟨nofun, fun i hi => absurd hi (hover i), nofun, nofun, nofun, nofun⟩
  have hplaced : Placed ({} : Shared ω) := ⟨List.nil_subset _, nofun, nofun, nofun, nofun⟩
  -- `Placed` needs the numbers, so the two are carried together.
  have hinv := Run.exec_invariant (fun s => Numbered s ∧ Placed s)
    (fun s e s' hs hstep horderly =>
      ⟨hs.1.step (steps hstep), hs.2.step hs.1 (steps hstep) horderly⟩)
    es {} s ⟨hnumbered, hplaced⟩ hrun horderly
  exact hinv.2.sound

/-- A block up to the end of its body, with one write. -/
def blockWriting (row : Nat) : List (DbEvent Nat) :=
  [.transaction, .finish .done, .resume, .statement [row], .job 0 .done]

/-- A block that commits, and one whose statement fails with its transaction: the block raises, and
its ROLLBACK finds nothing to do. A standalone statement follows, and a crash. -/
def twoBlocks : List (DbEvent Nat) :=
  [.connect] ++ blockWriting 5 ++ [.leave (.returned ()), .finish .done, .resume] ++
    blockWriting 6 ++ [.statement [7], .job 0 (.aborts 0), .leave (.raised sqliteError)] ++
    [.finish .done, .resume, .execute [8], .finish .done, .resume, .crash]

theorem sound_of_orderly_two_blocks : Sound (ω := Nat)
    { sqlite := ⟨none, [(0, 5), (2, 8)]⟩
      next := 3
      log := [(0, 5), (1, 6), (2, 8)]
      ended := [(0, true), (1, false)]
      returned := [(2, [8])] } :=
  sound_of_orderly twoBlocks _ (by decide) (by decide)

/-- A block that is cancelled at its end leaves its transaction open, and the statement after it
returns with its write uncommitted. A block that goes on after a statement that ended its transaction
commits without its first write. -/
theorem cancelled_block_leaks :
    (¬ ∀ (es : List (DbEvent Nat)) (s : Shared Nat),
      Run.exec Shared.step ({} : Shared Nat) es = some s → Sound s) ∧
    (Run.exec Shared.step ({} : Shared Nat) ([.connect] ++ blockWriting 0 ++
        [.leave .cancelled, .execute [1], .finish .done, .resume])).map
          (fun s => (s.holder, s.sqlite, s.returned))
      = some (none, ⟨some (.transaction [(0, 0), (1, 1)]), []⟩, [(1, [1])]) ∧
    (Run.exec Shared.step ({} : Shared Nat) ([.connect] ++ blockWriting 0 ++
        [.statement [1], .job 0 (.aborts 0), .leave (.returned ()), .finish .done, .resume])).map
          (fun s => (s.holder, s.sqlite, s.log, s.ended))
      = some (none, ⟨some .autocommit, []⟩, [(0, 0)], [(0, true)]) := by
  refine ⟨fun h => ?_, rfl, rfl⟩
  have hsound := h ([.connect] ++ blockWriting 0 ++ [.leave .cancelled]) _ rfl
  cases hsound.free rfl

end EdgeSentinel.Proofs.Persistence
