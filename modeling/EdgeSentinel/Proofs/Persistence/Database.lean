import EdgeSentinel.Persistence.Database

/-!
# `EdgeSentinel.Proofs.Persistence.Database`: runs of the connection

What `connect`, `close`, `execute` and the lock do, as equations on their runs. Between two
operations the database is `Clean`: the lock is free and no transaction is open.
-/

set_option autoImplicit false

namespace EdgeSentinel.Persistence

open Async EdgeSentinel.Core

/-- How the await ends when its job does not raise by itself. -/
def Await.outcome : Await → Outcome Exn Unit
  | waits .ok => .returned ()
  | waits .fails => .raised sqliteError
  | cancelled _ => .cancelled

end EdgeSentinel.Persistence

namespace EdgeSentinel.Proofs.Persistence

open Async EdgeSentinel.Core EdgeSentinel.Persistence

variable {ω : Type}

/-- An await of a job that does not raise. -/
theorem run_toThread {job : DbProc ω Unit} {db db' : Database ω}
    (h : job.run db = (.returned (), db')) (a : Await) :
    (a.toThread job).run db = (a.outcome, if a.runs then db' else db) := by
  cases a with
  | waits j => cases j <;> simp [Await.toThread, Await.outcome, Await.runs, h]
  | cancelled j =>
    cases j with
    | none => rfl
    | some j => cases j <;> simp [Await.toThread, Await.outcome, Await.runs, h]

/-- The lock is given back, however the body ends. -/
theorem run_withLock {body : DbProc ω Unit} {db db' : Database ω} {o : Outcome Exn Unit}
    (h : body.run { db with locked := true } = (o, db')) :
    (Database.withLock body).run db = (o, { db' with locked := false }) := by
  unfold Database.withLock
  rw [Proc.run_bind_of_returned (Proc.run_modify _ _)]
  exact Proc.run_tryFinally_of_returned h (Proc.run_modify _ _)

/-- A database without a connection raises before it takes the lock. -/
theorem run_requireConn_of_none {db : Database ω} (h : db.conn = none) :
    Database.requireConn.run db = (.raised .notConnected, db) := by
  simp only [Database.requireConn, h]

theorem run_requireConn_of_some {db : Database ω} {c : Connection ω} (h : db.conn = some c) :
    Database.requireConn.run db = (.returned (), db) := by
  simp only [Database.requireConn, h]

/-- No transaction is open on the connection. -/
def InAutocommit (db : Database ω) : Prop := ∀ u, db.conn ≠ some (.transaction u)

/-- Between two operations the lock is free and no transaction is open. -/
structure Clean (db : Database ω) : Prop where
  free : db.locked = false
  auto : InAutocommit db

theorem Clean.conn_cases {db : Database ω} (h : Clean db) :
    db.conn = none ∨ db.conn = some .autocommit := by
  cases hc : db.conn with
  | none => exact Or.inl rfl
  | some c =>
    cases c with
    | autocommit => exact Or.inr rfl
    | transaction u => exact absurd hc (h.auto u)

/-- An await that returns has waited for a job that took effect. -/
theorem eq_of_outcome {a : Await} (h : a.outcome = .returned ()) : a = .waits .ok := by
  cases a with
  | waits j => cases j with
    | ok => rfl
    | fails => cases h
  | cancelled j => cases h

/-- The close of an open connection resets it, however the await ends. -/
theorem run_close_of_some {db : Database ω} {c : Connection ω} (h : db.conn = some c)
    (a : Await) : (Database.close a).run db = (a.outcome, { db with conn := none }) := by
  unfold Database.close
  rw [Proc.run_bind_of_returned (Proc.run_read db), h, if_pos (by simp),
    Proc.run_bind_of_returned (Proc.run_modify _ _), run_toThread (Proc.run_pure () _) a, ite_self]

/-- A close resets the connection. It leaves the file and the lock. -/
theorem run_close (db : Database ω) (a : Await) :
    ((Database.close a).run db).2 = { db with conn := none } := by
  cases hc : db.conn with
  | none =>
    have hself : ({ db with conn := none } : Database ω) = db := by rw [← hc]
    unfold Database.close
    rw [Proc.run_bind_of_returned (Proc.run_read db), hc, if_neg (by simp), hself]
    rfl
  | some c => rw [run_close_of_some hc]

/-- A connect ends without a connection or in autocommit. It leaves the file and the lock. -/
theorem run_connect {db : Database ω} (h : InAutocommit db) (a : Await) :
    InAutocommit ((Database.connect a).run db).2 ∧
      ((Database.connect a).run db).2.disk = db.disk ∧
        ((Database.connect a).run db).2.locked = db.locked := by
  unfold Database.connect
  rw [Proc.run_bind_of_returned (Proc.run_read db)]
  cases hc : db.conn with
  | some c => exact ⟨h, rfl, rfl⟩
  | none =>
    simp only [Option.isSome_none, Bool.false_eq_true, if_false]
    cases a with
    | cancelled j => exact ⟨h, rfl, rfl⟩
    | waits j =>
      cases j with
      | fails => exact ⟨h, rfl, rfl⟩
      | ok => exact ⟨fun u => by simp, rfl, rfl⟩

/-- A standalone statement in autocommit. -/
theorem run_execute {db : Database ω} (hauto : db.conn = some .autocommit)
    (hfree : db.locked = false) (write : Option ω) (a : Await) :
    (Database.execute write a).run db
      = (a.outcome, if a.runs then { db with disk := db.disk ++ write.toList } else db) := by
  have hjob : (statementJob write).run { db with locked := true }
      = (.returned (), { db with locked := true, disk := db.disk ++ write.toList }) := by
    simp only [statementJob, hauto]
  unfold Database.execute
  rw [Proc.run_bind_of_returned (run_requireConn_of_some hauto), run_withLock (run_toThread hjob a)]
  split
  · rw [← hfree]
  · rw [← hfree]

end EdgeSentinel.Proofs.Persistence
