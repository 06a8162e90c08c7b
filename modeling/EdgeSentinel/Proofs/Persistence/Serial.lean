import EdgeSentinel.Proofs.Persistence.OneJob

/-!
# `EdgeSentinel.Proofs.Persistence.Serial`: the operations are served in the order of their calls

`jobLog` lists the jobs that a run dispatches, each with the operation that it belongs to. The job
of a statement belongs to its block. In an undisturbed run the log is serial: it is made of one
course for each operation that was served, and the courses stand in the order in which the
operations were called (`serial_of_undisturbed`). So a transaction is isolated, and no operation
overtakes another.

`Serial` is the invariant. The operation that holds the lock has the last course, and the
operations that wait come after it in the order of the calls.
-/

set_option autoImplicit false

namespace EdgeSentinel.Proofs.Persistence

open EdgeSentinel.Persistence

/-! ### The log -/

/-- The first job of an operation. -/
def firstJob (operation : Operation) : JobKind :=
  if operation = .transaction then .begin else .whole

/-- The job that a step dispatches. -/
def dispatches (w : Jobs) : JobStep → List (Nat × JobKind)
  | .call id operation =>
    if w.connected = true ∧ w.lock = none ∧ ∀ x ∈ w.ops, x.point ≠ .waiting then
      [(id, firstJob operation)]
    else []
  | .acquire =>
    (w.ops.find? (·.point = .waiting)).elim [] fun o => [(o.id, firstJob o.operation)]
  | .statement block _ => [(block, .whole)]
  | .leave id raised => [(id, if raised then .rollback else .commit)]
  | .close id => if w.connected then [(id, .close)] else []
  | _ => []

/-- The jobs that a run dispatches. -/
def jobLog (w : Jobs) : List JobStep → List (Nat × JobKind)
  | [] => []
  | e :: es => dispatches w e ++ (Jobs.step w e).elim [] fun w' => jobLog w' es

theorem jobLog_snoc {w' : Jobs} (e : JobStep) (es : List JobStep) :
    ∀ {w : Jobs}, Run.exec Jobs.step w es = some w' →
      jobLog w (es ++ [e]) = jobLog w es ++ dispatches w' e := by
  induction es with
  | nil =>
    intro w hrun
    cases hrun
    show dispatches w' e ++ (Jobs.step w' e).elim [] (fun _ => []) = dispatches w' e
    cases Jobs.step w' e <;> simp
  | cons e' es ih =>
    intro w hrun
    obtain ⟨w₁, hstep, hrest⟩ := Run.exec_cons_eq_some hrun
    simp only [List.cons_append, jobLog, hstep, Option.elim_some, ih hrest, List.append_assoc]

/-- The operation that a step calls. -/
def called? : JobStep → Option Nat
  | .call id _ => some id
  | .close id => some id
  | _ => none

/-- The jobs of one operation, in order. A transaction may still be open, or it was abandoned or
could not begin. -/
inductive JobCourse : List JobKind → Prop
  | whole : JobCourse [.whole]
  | close : JobCourse [.close]
  | begun (k : Nat) : JobCourse (.begin :: List.replicate k .whole)
  | committed (k : Nat) : JobCourse (.begin :: List.replicate k .whole ++ [.commit])
  | rolledBack (k : Nat) : JobCourse (.begin :: List.replicate k .whole ++ [.rollback])

/-- The jobs of the operations, one operation after the other. -/
def flatten (courses : List (Nat × List JobKind)) : List (Nat × JobKind) :=
  courses.flatMap fun c => c.2.map fun kind => (c.1, kind)

/-! ### The invariant -/

/-- The operations that wait for the lock. -/
def waiting (ops : List Op) : List Nat := (ops.filter (·.point = .waiting)).map (·.id)

theorem waiting_append (xs ys : List Op) : waiting (xs ++ ys) = waiting xs ++ waiting ys := by
  simp [waiting]

theorem waiting_cons_of_ne {o : Op} (h : o.point ≠ .waiting) (ops : List Op) :
    waiting (o :: ops) = waiting ops := by
  simp [waiting, h]

theorem waiting_cons_of_eq {o : Op} (h : o.point = .waiting) (ops : List Op) :
    waiting (o :: ops) = o.id :: waiting ops := by
  simp [waiting, h]

theorem waiting_eq_nil {ops : List Op} (h : ∀ o ∈ ops, o.point ≠ .waiting) : waiting ops = [] := by
  simpa [waiting] using h

theorem waiting_filter (p : Op → Bool) (ops : List Op) :
    (waiting (ops.filter p)).Sublist (waiting ops) :=
  ((List.filter_sublist).filter _).map _

/-- An operation that does not wait goes on to another point. -/
theorem waiting_replace {ops : List Op} (hids : (ops.map (·.id)).Nodup) {o o' : Op} (ho : o ∈ ops)
    (hpoint : o.point ≠ .waiting) (hpoint' : o'.point ≠ .waiting) :
    waiting (Keyed.replace (·.id) o.id o' ops) = waiting ops := by
  obtain ⟨xs, ys, rfl⟩ := List.append_of_mem ho
  have hreplaced : Keyed.replace (·.id) o.id o' (xs ++ o :: ys) = xs ++ o' :: ys :=
    Keyed.replace_middle hids
  rw [hreplaced, waiting_append, waiting_append, waiting_cons_of_ne hpoint,
    waiting_cons_of_ne hpoint']

/-- What the jobs so far say about the point of the operation that holds the lock. -/
def Stands : OpPoint → List JobKind → Prop
  | .waiting, _ => True
  | .awaiting job, kinds => job.kind = .begin → kinds = [.begin]
  | .block, kinds => ∃ k, kinds = .begin :: List.replicate k .whole

/-- The log is serial. -/
structure Serial (calls : List Nat) (log : List (Nat × JobKind))
    (courses : List (Nat × List JobKind)) (w : Jobs) : Prop where
  exclusive : Exclusive w
  order : (courses.map Prod.fst ++ waiting w.ops).Sublist calls
  course : ∀ c ∈ courses, JobCourse c.2
  log_eq : log = flatten courses
  current : ∀ o ∈ w.ops, o.operation.takesLock = true → o.point ≠ .waiting →
    ∃ past kinds, courses = past ++ [(o.id, kinds)] ∧ Stands o.point kinds

namespace Serial

variable {calls calls' : List Nat} {log : List (Nat × JobKind)}
  {courses : List (Nat × List JobKind)} {w w' : Jobs}

theorem begin : Serial [] [] [] {} where
  exclusive := Exclusive.new
  order := List.Sublist.refl _
  course := by simp
  log_eq := rfl
  current := by simp

/-- A step that dispatches nothing. The operations that are left stand where they stood, or further
on. -/
theorem quiet (h : Serial calls log courses w) (hexclusive : Exclusive w')
    (horder : (courses.map Prod.fst ++ waiting w'.ops).Sublist calls')
    (hops : ∀ x ∈ w'.ops, x.operation.takesLock = true → x.point ≠ .waiting →
      ∃ o ∈ w.ops, o.id = x.id ∧ o.operation.takesLock = true ∧ o.point ≠ .waiting ∧
        ∀ kinds, Stands o.point kinds → Stands x.point kinds) :
    Serial calls' log courses w' where
  exclusive := hexclusive
  order := horder
  course := h.course
  log_eq := h.log_eq
  current x hx htakes hpoint := by
    obtain ⟨o, ho, hid, htakes', hpoint', hstands⟩ := hops x hx htakes hpoint
    obtain ⟨past, kinds, hcourses, hkinds⟩ := h.current o ho htakes' hpoint'
    exact ⟨past, kinds, hid ▸ hcourses, hstands kinds hkinds⟩

/-- The first job of an operation. -/
theorem opens (h : Serial calls log courses w) (hexclusive : Exclusive w') {id : Nat}
    {kind : JobKind} (horder : (courses.map Prod.fst ++ id :: waiting w'.ops).Sublist calls')
    (hcourse : JobCourse [kind])
    (hops : ∀ x ∈ w'.ops, x.operation.takesLock = true → x.point ≠ .waiting →
      x.id = id ∧ Stands x.point [kind]) :
    Serial calls' (log ++ [(id, kind)]) (courses ++ [(id, [kind])]) w' where
  exclusive := hexclusive
  order := by simpa using horder
  course c hc := by
    rcases List.mem_append.mp hc with hc | hc
    · exact h.course c hc
    · obtain rfl := List.mem_singleton.mp hc
      exact hcourse
  log_eq := by simp [h.log_eq, flatten]
  current x hx htakes hpoint := by
    obtain ⟨rfl, hstands⟩ := hops x hx htakes hpoint
    exact ⟨courses, [kind], rfl, hstands⟩

/-- One more job of the transaction that holds the lock. -/
theorem continues (h : Serial calls log courses w) (hexclusive : Exclusive w') {b : Op}
    (hb : b ∈ w.ops) (hblock : b.point = .block) {kind : JobKind}
    (hcourse : ∀ k, JobCourse (.begin :: List.replicate k .whole ++ [kind]))
    (hwaiting : waiting w'.ops = waiting w.ops)
    (hops : ∀ x ∈ w'.ops, x.operation.takesLock = true → x.point ≠ .waiting →
      x.id = b.id ∧ ∀ k, Stands x.point (.begin :: List.replicate k .whole ++ [kind])) :
    ∃ courses', Serial calls (log ++ [(b.id, kind)]) courses' w' := by
  obtain ⟨past, kinds, rfl, hstands⟩ := h.current b hb (h.exclusive.takesLock_of_block hb hblock)
    (by rw [hblock]; nofun)
  rw [hblock] at hstands
  obtain ⟨k, rfl⟩ := hstands
  refine ⟨past ++ [(b.id, .begin :: List.replicate k .whole ++ [kind])], hexclusive, ?_,
    fun c hc => ?_, ?_, fun x hx htakes hpoint => ?_⟩
  · simpa [hwaiting] using h.order
  · rcases List.mem_append.mp hc with hc | hc
    · exact h.course c (List.mem_append_left _ hc)
    · obtain rfl := List.mem_singleton.mp hc
      exact hcourse k
  · simp [h.log_eq, flatten]
  · obtain ⟨hid, hstands⟩ := hops x hx htakes hpoint
    exact ⟨past, _, by rw [hid], hstands k⟩

/-! ### The steps -/

/-- An operation takes the lock. No other one has begun. -/
theorem acquire (h : Serial calls log courses w) {o : Op} (hexclusive : Exclusive (w'.acquire o))
    {xs ys : List Op} (hops : w'.ops = xs ++ o :: ys) (hids : (w'.ops.map (·.id)).Nodup)
    (hothers : ∀ x ∈ xs ++ ys, x.operation.takesLock = true → x.point = .waiting)
    (horder : (courses.map Prod.fst ++ o.id :: waiting (xs ++ ys)).Sublist calls') :
    Serial calls' (log ++ [(o.id, firstJob o.operation)])
      (courses ++ [(o.id, [firstJob o.operation])]) (w'.acquire o) := by
  let o' : Op := { o with point := .awaiting ⟨w'.dispatched, firstJob o.operation⟩ }
  have hops' : (w'.acquire o).ops = xs ++ o' :: ys := by
    show Keyed.replace (·.id) o.id o' w'.ops = _
    rw [hops] at hids ⊢
    exact Keyed.replace_middle hids
  refine h.opens hexclusive ?_ ?_ fun x hx htakes hpoint => ?_
  · rw [hops', waiting_append, waiting_cons_of_ne (by nofun), ← waiting_append]
    exact horder
  · unfold firstJob
    split
    · exact .begun 0
    · exact .whole
  · rw [hops'] at hx
    rcases List.mem_append.mp hx with hx | hx
    · exact absurd (hothers x (List.mem_append_left _ hx) htakes) hpoint
    · rcases List.mem_cons.mp hx with rfl | hx
      · exact ⟨rfl, fun hbegin => by rw [show firstJob o.operation = .begin from hbegin]⟩
      · exact absurd (hothers x (List.mem_append_right _ hx) htakes) hpoint

/-- With a free lock, every operation that takes it waits. -/
theorem waits_of_free (h : Exclusive w) (hfree : w.lock = none) {x : Op} (hx : x ∈ w.ops)
    (htakes : x.operation.takesLock = true) : x.point = .waiting := by
  by_contra hpoint
  have hlock := h.holder x hx htakes hpoint
  rw [hfree] at hlock
  cases hlock

/-- The free lock goes to the first operation that waits, which is the first one in the order of
the calls. -/
theorem acquireNext (h : Serial calls log courses w) (hfree : w.lock = none) {o : Op}
    (ho : o ∈ w.ops) (hwaits : o.point = .waiting) (hexclusive : Exclusive (w.next .acquire)) :
    ∃ courses', Serial calls (log ++ dispatches w .acquire) courses' (w.next .acquire) := by
  have hnext : w.next .acquire = (w.ops.find? (·.point = .waiting)).elim w w.acquire := rfl
  have hlog : dispatches w .acquire = (w.ops.find? (·.point = .waiting)).elim []
      fun o => [(o.id, firstJob o.operation)] := rfl
  rw [hnext] at hexclusive ⊢
  rw [hlog]
  cases hfind : w.ops.find? (·.point = .waiting) with
  | none =>
    have hnot := List.find?_eq_none.mp hfind o ho
    simp [hwaits] at hnot
  | some first =>
    obtain ⟨hpoint, xs, ys, hops, hearlier⟩ := List.find?_eq_some_iff_append.mp hfind
    have hpoint : first.point = .waiting := by simpa using hpoint
    have hearlier : ∀ x ∈ xs, x.point ≠ .waiting := by simpa using hearlier
    rw [hfind, Option.elim_some] at hexclusive
    simp only [Option.elim_some]
    refine ⟨_, h.acquire hexclusive hops h.exclusive.ids (fun x hx hx' => ?_) ?_⟩
    · -- The others wait as well: nobody holds the lock.
      refine waits_of_free h.exclusive hfree ?_ hx'
      rw [hops]
      rcases List.mem_append.mp hx with hx | hx
      · exact List.mem_append_left _ hx
      · exact List.mem_append_right _ (List.mem_cons_of_mem first hx)
    · have horder := h.order
      rw [hops, waiting_append, waiting_eq_nil hearlier, List.nil_append,
        waiting_cons_of_eq hpoint] at horder
      rw [waiting_append, waiting_eq_nil hearlier, List.nil_append]
      exact horder

theorem call (h : Serial calls log courses w) {id : Nat} {operation : Operation}
    (hid : id ∉ w.ops.map (·.id)) (htakes : operation.takesLock = true) :
    ∃ courses', Serial (calls ++ [id]) (log ++ dispatches w (.call id operation)) courses'
      (w.call id operation) := by
  have hexclusive := h.exclusive.call hid htakes
  have hlater : (courses.map Prod.fst ++ waiting w.ops).Sublist (calls ++ [id]) :=
    h.order.trans (List.sublist_append_left calls [id])
  unfold Jobs.call at hexclusive ⊢
  cases hconn : w.connected with
  | false =>
    -- `_require_conn` raises.
    simp only [dispatches, hconn]
    simp only [hconn] at hexclusive
    simp only [Bool.not_false, if_true, Bool.false_eq_true, false_and, if_false, List.append_nil]
    exact ⟨courses, h.quiet h.exclusive hlater
      fun x hx hx' hpoint => ⟨x, hx, rfl, hx', hpoint, fun _ hkinds => hkinds⟩⟩
  | true =>
    simp only [dispatches, hconn, true_and, Bool.not_true, Bool.false_eq_true, if_false]
      at hexclusive ⊢
    split
    · rename_i hfree
      rw [if_pos hfree] at hexclusive
      have hnone := waiting_eq_nil hfree.2
      have hops : (w.add ⟨id, operation, .waiting⟩).ops = w.ops ++ ⟨id, operation, .waiting⟩ :: [] :=
        rfl
      refine ⟨_, h.acquire hexclusive hops ?_ ?_ ?_⟩
      · exact Keyed.nodup_append h.exclusive.ids hid
      · intro x hx hx'
        rw [List.append_nil] at hx
        exact waits_of_free h.exclusive hfree.1 hx hx'
      · rw [List.append_nil, hnone]
        have hserved : (courses.map Prod.fst).Sublist calls := by simpa [hnone] using h.order
        exact hserved.append (List.Sublist.refl [id])
    · rename_i hbusy
      rw [if_neg hbusy] at hexclusive
      rw [List.append_nil]
      refine ⟨courses, h.quiet hexclusive ?_ fun x hx hx' hpoint => ?_⟩
      · have hwaiting : waiting (w.add ⟨id, operation, .waiting⟩).ops = waiting w.ops ++ [id] := by
          show waiting (w.ops ++ [_]) = _
          rw [waiting_append]
          rfl
        rw [hwaiting, ← List.append_assoc]
        exact h.order.append (List.Sublist.refl [id])
      · rcases List.mem_append.mp hx with hx | hx
        · exact ⟨x, hx, rfl, hx', hpoint, fun _ hkinds => hkinds⟩
        · obtain rfl := List.mem_singleton.mp hx
          exact absurd rfl hpoint

/-- The block `b` holds the lock, so no other operation that takes it has begun. -/
theorem eq_of_block (h : Exclusive w) {b : Op} (hb : b ∈ w.ops) (hblock : b.point = .block) {x : Op}
    (hx : x ∈ w.ops) (htakes : x.operation.takesLock = true) (hpoint : x.point ≠ .waiting) :
    x = b := by
  have hlock := h.holder x hx htakes hpoint
  rw [h.lock_of_block hb hblock] at hlock
  exact Keyed.eq_of_key_eq h.ids hx hb (Option.some.inj hlock).symm

theorem statement (h : Serial calls log courses w) {b : Op} (hb : b ∈ w.ops)
    (hblock : b.point = .block) {id : Nat} (hexclusive : Exclusive (w.statement id)) :
    ∃ courses', Serial calls (log ++ [(b.id, .whole)]) courses' (w.statement id) := by
  have hnext : ∀ k, (.begin :: List.replicate k .whole ++ [.whole] : List JobKind)
      = .begin :: List.replicate (k + 1) .whole := by
    intro k
    rw [List.replicate_succ', List.cons_append]
  refine h.continues hexclusive hb hblock (fun k => ?_) ?_ fun x hx htakes hpoint => ?_
  · rw [hnext]
    exact .begun (k + 1)
  · show waiting (w.ops ++ [_]) = waiting w.ops
    rw [waiting_append, show waiting [_] = [] from rfl, List.append_nil]
  · rcases List.mem_append.mp hx with hx | hx
    · obtain rfl := eq_of_block h.exclusive hb hblock hx htakes hpoint
      refine ⟨rfl, fun k => ?_⟩
      rw [hblock]
      exact ⟨k + 1, hnext k⟩
    · obtain rfl := List.mem_singleton.mp hx
      cases htakes

theorem leave (h : Serial calls log courses w) {b : Op} (hb : b ∈ w.ops) (hblock : b.point = .block)
    {kind : JobKind} (hkind : kind = .commit ∨ kind = .rollback)
    (hexclusive : Exclusive (w.dispatch b kind)) :
    ∃ courses', Serial calls (log ++ [(b.id, kind)]) courses' (w.dispatch b kind) := by
  refine h.continues hexclusive hb hblock (fun k => ?_) ?_ fun x hx htakes hpoint => ?_
  · rcases hkind with rfl | rfl
    · exact .committed k
    · exact .rolledBack k
  · exact waiting_replace h.exclusive.ids hb (by rw [hblock]; nofun) nofun
  · rcases Keyed.mem_replace hx with rfl | ⟨hx, hne⟩
    · refine ⟨rfl, fun k (hbegin : kind = .begin) => ?_⟩
      rcases hkind with rfl | rfl <;> cases hbegin
    · exact absurd (congrArg Op.id (eq_of_block h.exclusive hb hblock hx htakes hpoint)) hne

/-- The task of an operation ends. -/
theorem finish (h : Serial calls log courses w) {o : Op} (hexclusive : Exclusive (w.finish o)) :
    Serial calls log courses (w.finish o) := by
  refine h.quiet hexclusive ?_ fun x hx htakes hpoint => ?_
  · exact ((List.Sublist.refl _).append (waiting_filter _ w.ops)).trans h.order
  · exact ⟨x, (List.mem_filter.mp hx).1, rfl, htakes, hpoint, fun _ hkinds => hkinds⟩

theorem resume (h : Serial calls log courses w) {o : Op} (ho : o ∈ w.ops) {job : ThreadJob}
    (hpoint : o.point = .awaiting job) {raised : Bool}
    (hexclusive : Exclusive (w.resume o job raised)) :
    Serial calls log courses (w.resume o job raised) := by
  unfold Jobs.resume at hexclusive ⊢
  split
  · rename_i hbegin
    rw [if_pos hbegin] at hexclusive
    refine h.quiet hexclusive ?_ fun x hx htakes hx' => ?_
    · rw [show waiting (w.enterBlock o).ops = waiting w.ops from
        waiting_replace h.exclusive.ids ho (by rw [hpoint]; nofun) nofun]
      exact h.order
    · rcases Keyed.mem_replace hx with rfl | ⟨hx, -⟩
      · refine ⟨o, ho, rfl, htakes, by rw [hpoint]; nofun, fun kinds hkinds => ?_⟩
        rw [hpoint] at hkinds
        exact ⟨0, hkinds hbegin.1⟩
      · exact ⟨x, hx, rfl, htakes, hx', fun _ hkinds => hkinds⟩
  · rename_i hends
    rw [if_neg hends] at hexclusive
    exact h.finish hexclusive

theorem close (h : Serial calls log courses w) (hops : w.ops = []) (id : Nat)
    (hexclusive : Exclusive (w.close id)) :
    ∃ courses', Serial (calls ++ [id]) (log ++ dispatches w (.close id)) courses' (w.close id) := by
  have hserved : (courses.map Prod.fst).Sublist calls := by simpa [hops, waiting] using h.order
  unfold Jobs.close at hexclusive ⊢
  cases hconn : w.connected with
  | false =>
    simp only [dispatches, hconn, Bool.false_eq_true, if_false, List.append_nil]
    refine ⟨courses, h.quiet h.exclusive ?_ fun x hx => ?_⟩
    · exact h.order.trans (List.sublist_append_left calls [id])
    · rw [hops] at hx
      cases hx
  | true =>
    simp only [dispatches, hconn, if_true] at hexclusive ⊢
    refine ⟨_, h.opens hexclusive ?_ .close fun x hx htakes => ?_⟩
    · have hnone : waiting (w.ops ++ [⟨id, .close, .awaiting ⟨w.dispatched, .close⟩⟩]) = [] :=
        waiting_eq_nil (by simp [hops])
      show (_ ++ id :: waiting (w.ops ++ [_])).Sublist _
      rw [hnone]
      exact hserved.append (List.Sublist.refl [id])
    · have hx : x ∈ w.ops ++ [⟨id, .close, .awaiting ⟨w.dispatched, .close⟩⟩] := hx
      rw [hops, List.nil_append, List.mem_singleton] at hx
      rw [hx] at htakes
      cases htakes

/-- One step. -/
theorem step (h : Serial calls log courses w) {e : JobStep} (hstep : Jobs.step w e = some w')
    (hquiet : Undisturbed w e w') :
    ∃ courses', Serial (calls ++ (called? e).toList) (log ++ dispatches w e) courses' w' := by
  have hexclusive := h.exclusive.step hstep hquiet
  obtain ⟨hen, rfl⟩ := Run.guarded_eq_some.mp hstep
  have hat : ∀ {o : Op} (act : Op → Jobs), o ∈ w.ops → w.withOp o.id act = act o := by
    intro o act ho
    show (w.ops.find? _).elim w act = act o
    rw [Keyed.find?_of_mem h.exclusive.ids ho]
    rfl
  cases e with
  | call id operation => exact h.call hen.1 hen.2
  | acquire =>
    obtain ⟨hfree, o, ho, hwaits⟩ := hen
    simp only [called?, Option.toList_none, List.append_nil]
    exact h.acquireNext hfree ho hwaits hexclusive
  | statement block id =>
    obtain ⟨-, b, hb, rfl, hblock⟩ := hen
    simp only [called?, dispatches, Option.toList_none, List.append_nil]
    exact h.statement hb hblock hexclusive
  | leave id raised =>
    obtain ⟨o, ho, rfl, hblock⟩ := hen
    have hnext : w.next (.leave o.id raised)
        = w.dispatch o (if raised then .rollback else .commit) := hat _ ho
    rw [hnext] at hexclusive ⊢
    simpa [called?, dispatches] using
      h.leave ho hblock (by cases raised <;> simp) hexclusive
  | abandon id =>
    obtain ⟨o, ho, rfl, hblock⟩ := hen
    have hnext : w.next (.abandon o.id) = w.finish o := hat _ ho
    rw [hnext] at hexclusive ⊢
    exact ⟨courses, by simpa [called?, dispatches] using h.finish hexclusive⟩
  | jobEnds serial =>
    -- An operation notices the end of its job when it resumes.
    refine ⟨courses, ?_⟩
    simp only [called?, dispatches, Option.toList_none, List.append_nil]
    exact h.quiet hexclusive h.order
      fun x hx htakes hpoint => ⟨x, hx, rfl, htakes, hpoint, fun _ hkinds => hkinds⟩
  | resume id raised =>
    obtain ⟨o, ho, rfl, job, hjob, -⟩ := hen
    have hpoint : o.point = .awaiting job := by
      cases hp : o.point with
      | awaiting job' =>
        rw [hp] at hjob
        cases hjob
        rfl
      | waiting | block =>
        rw [hp] at hjob
        cases hjob
    have hnext : w.next (.resume o.id raised) = w.resume o job raised := by
      refine (hat _ ho).trans ?_
      rw [hpoint]
      rfl
    rw [hnext] at hexclusive ⊢
    exact ⟨courses, by simpa [called?, dispatches] using h.resume ho hpoint hexclusive⟩
  | cancel id =>
    obtain ⟨o, ho, rfl⟩ := hen
    have hnext : w.next (.cancel o.id) = w.cancel o := hat _ ho
    rw [hnext] at hexclusive ⊢
    refine ⟨courses, ?_⟩
    simp only [called?, dispatches, Option.toList_none, List.append_nil]
    unfold Jobs.cancel at hexclusive ⊢
    split
    · exact h
    · rename_i hblock
      rw [if_neg hblock] at hexclusive
      exact h.finish hexclusive
  | close id => exact h.close hquiet id hexclusive

end Serial

/-- The operations of a database are served one after the other, in the order of their calls. Take
any run in which no task is cancelled during its job, `close` is called when no operation is in
progress, and a block has one statement at a time. The jobs on the connection are a sequence of
courses, one for each operation that was served: its one job, or a BEGIN with the statements of its
block and at most one COMMIT or ROLLBACK. No job of another operation falls into a course. The
courses stand in the order in which the operations were called. -/
theorem serial_of_undisturbed (es : List JobStep) (w : Jobs)
    (hrun : Run.exec Jobs.step {} es = some w) (hquiet : Run.Along Jobs.step Undisturbed {} es) :
    ∃ courses : List (Nat × List JobKind), jobLog {} es = flatten courses ∧
      (∀ c ∈ courses, JobCourse c.2) ∧
      (courses.map Prod.fst).Sublist (es.filterMap called?) := by
  have hserial : Run.exec Jobs.step {} es = some w ∧
      ∃ courses, Serial (es.filterMap called?) (jobLog {} es) courses w := by
    refine Run.exec_history (fun past t => Run.exec Jobs.step {} past = some t ∧
      ∃ courses, Serial (past.filterMap called?) (jobLog {} past) courses t)
      (fun past t e t' ⟨hpast, courses, h⟩ hstep hg => ?_) es [] {} w ⟨rfl, [], .begin⟩ hrun hquiet
    refine ⟨Run.exec_snoc hpast hstep, ?_⟩
    rw [jobLog_snoc e past hpast, List.filterMap_append]
    have hcalled : [e].filterMap called? = (called? e).toList := by
      cases e <;> rfl
    rw [hcalled]
    exact h.step hstep hg
  obtain ⟨-, courses, h⟩ := hserial
  exact ⟨courses, h.log_eq, h.course, (List.sublist_append_left _ _).trans h.order⟩

/-- The transaction comes before the `execute` that waits for it, and both before the `close`. -/
theorem serial_of_undisturbed_writeAndClose : ∃ courses : List (Nat × List JobKind),
    [(0, .begin), (0, .whole), (0, .commit), (2, .whole), (3, .close)] = flatten courses ∧
      (courses.map Prod.fst).Sublist [0, 2, 3] := by
  have hrun : (Run.exec Jobs.step {} writeAndClose).isSome := by decide
  obtain ⟨w, hw⟩ := Option.isSome_iff_exists.mp hrun
  obtain ⟨courses, hlog, -, horder⟩ := serial_of_undisturbed writeAndClose w hw (by decide)
  have hjobs : jobLog {} writeAndClose
      = [(0, .begin), (0, .whole), (0, .commit), (2, .whole), (3, .close)] := by decide
  exact ⟨courses, hjobs.symm.trans hlog, horder⟩

end EdgeSentinel.Proofs.Persistence
