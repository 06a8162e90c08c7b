import EdgeSentinel.Persistence.Jobs

/-!
# `EdgeSentinel.Proofs.Persistence.OneJob`: one job at a time on the connection

`OneJob` is what the module promises of the connection: at most one job runs on it, and none
after `close` has closed it. The lock alone does not give that. A cancelled task lets go of the
lock while its job goes on (`cancelled_execute_overlaps`), and `close` does not take the lock.

`oneJob_of_undisturbed` proves the promise for the runs in which no task is cancelled during
its job, `close` is called when no operation is in progress, and a block has one statement at a
time. The invariant `Exclusive` says that the job which runs is awaited by the holder of the
lock, by a statement of its block, or by `close`.
-/

set_option autoImplicit false

namespace EdgeSentinel.Proofs.Persistence

open EdgeSentinel.Persistence

/-- At most one job runs on the connection, and none on a closed one. -/
structure OneJob (w : Jobs) : Prop where
  atMostOne : w.running.length ≤ 1
  closed : w.closed = true → w.running = []

/-- No statement of a block is in progress. -/
def NoStatement (w : Jobs) : Prop := ∀ o ∈ w.ops, o.operation ≠ .statement

/-- No task is cancelled during its job, `close` is called when no operation is in progress,
and a block has one statement at a time, the last of which ends before the block. -/
def Undisturbed (w : Jobs) : JobStep → Jobs → Prop
  | .cancel id, _ => ∀ o ∈ w.ops, o.id = id → ∀ job ∈ o.point.job, job ∉ w.running
  | .close _, _ => w.ops = []
  | .statement _ _, _ | .leave _ _, _ | .abandon _, _ => NoStatement w
  | _, _ => True

instance (w : Jobs) : ∀ e w', Decidable (Undisturbed w e w')
  | .cancel id, _ => inferInstanceAs
      (Decidable (∀ o ∈ w.ops, o.id = id → ∀ job ∈ o.point.job, job ∉ w.running))
  | .close _, _ => inferInstanceAs (Decidable (w.ops = []))
  | .statement _ _, _ | .leave _ _, _ | .abandon _, _ =>
    inferInstanceAs (Decidable (∀ o ∈ w.ops, o.operation ≠ .statement))
  | .call _ _, _ | .acquire, _ | .jobEnds _, _ | .resume _ _, _ => isTrue trivial

/-- The jobs of an operation. -/
def Fits (operation : Operation) (kind : JobKind) : Prop :=
  (kind = .begin → operation.takesLock = true) ∧ (kind = .close → operation = .close)

/-- The invariant. -/
structure Exclusive (w : Jobs) : Prop where
  ids : (w.ops.map (·.id)).Nodup
  /-- An operation that takes the lock holds it from its first job on. -/
  holder : ∀ o ∈ w.ops, o.operation.takesLock = true → o.point ≠ .waiting →
    w.lock = some o.id
  /-- The others have one job, which they await. -/
  bare : ∀ o ∈ w.ops, o.operation.takesLock = false → ∃ job, o.point = .awaiting job
  jobs : ∀ o ∈ w.ops, ∀ job ∈ o.point.job, Fits o.operation job.kind
  statement : ∀ o ∈ w.ops, o.operation = .statement → ∃ b ∈ w.ops, b.point = .block
  closing : ∀ o ∈ w.ops, (o.operation = .close ↔ w.connected = false)
  /-- The job that runs is awaited. -/
  owner : w.running = [] ∨ ∃ o ∈ w.ops, ∃ job, o.point = .awaiting job ∧ w.running = [job]
  closed : w.closed = true → w.connected = false ∧ w.running = []

theorem Exclusive.new : Exclusive {} where
  ids := List.nodup_nil
  holder := by simp
  bare := by simp
  jobs := by simp
  statement := by simp
  closing := by simp
  owner := Or.inl rfl
  closed := nofun

/-- The operations that do without the lock. -/
theorem statement_or_close {operation : Operation} (h : operation.takesLock = false) :
    operation = .statement ∨ operation = .close := by
  cases operation with
  | statement => exact Or.inl rfl
  | close => exact Or.inr rfl
  | _ => cases h

namespace Exclusive

variable {w : Jobs}

theorem oneJob (h : Exclusive w) : OneJob w where
  atMostOne := by
    rcases h.owner with hidle | ⟨_, _, job, _, hrunning⟩
    · rw [hidle]
      exact Nat.zero_le 1
    · rw [hrunning]
      exact Nat.le_refl 1
  closed hclosed := (h.closed hclosed).2

/-! ### When no job runs -/

theorem takesLock_of_bare (h : Exclusive w) {o : Op} (ho : o ∈ w.ops)
    (hjob : o.point.job = none) : o.operation.takesLock = true := by
  by_contra hbare
  obtain ⟨job, hpoint⟩ := h.bare o ho (by simpa using hbare)
  rw [hpoint] at hjob
  cases hjob

theorem connected_of_takesLock (h : Exclusive w) {o : Op} (ho : o ∈ w.ops)
    (htakes : o.operation.takesLock = true) : w.connected = true := by
  by_contra hconn
  have hclose := (h.closing o ho).mpr (by simpa using hconn)
  rw [hclose] at htakes
  cases htakes

theorem takesLock_of_block (h : Exclusive w) {b : Op} (hb : b ∈ w.ops)
    (hblock : b.point = .block) : b.operation.takesLock = true :=
  h.takesLock_of_bare hb (by rw [hblock]; rfl)

/-- The job of `close` has not ended on a connected database. -/
theorem closed_of_connected (h : Exclusive w) (hconn : w.connected = true) :
    w.closed = false := by
  by_contra hclosed
  have hnot := (h.closed (by simpa using hclosed)).1
  rw [hconn] at hnot
  cases hnot

/-- On a connected database without statements, the job that runs is the holder's. -/
theorem idle (h : Exclusive w) (hconn : w.connected = true) (hno : NoStatement w)
    (hholder : ∀ o ∈ w.ops, w.lock = some o.id → o.point.job = none) : w.running = [] := by
  rcases h.owner with hidle | ⟨o, ho, job, hpoint, -⟩
  · exact hidle
  · exfalso
    -- Whoever awaits a job holds the lock, is a statement, or is `close`.
    cases htakes : o.operation.takesLock with
    | true =>
      have hnone := hholder o ho (h.holder o ho htakes (by rw [hpoint]; nofun))
      rw [hpoint] at hnone
      cases hnone
    | false =>
      rcases statement_or_close htakes with hstatement | hclose
      · exact hno o ho hstatement
      · rw [(h.closing o ho).mp hclose] at hconn
        cases hconn

/-- A block holds the lock. -/
theorem lock_of_block (h : Exclusive w) {b : Op} (hb : b ∈ w.ops) (hblock : b.point = .block) :
    w.lock = some b.id :=
  h.holder b hb (h.takesLock_of_block hb hblock) (by rw [hblock]; nofun)

theorem noStatement_of_free (h : Exclusive w) (hfree : w.lock = none) : NoStatement w := by
  intro o ho hstatement
  obtain ⟨b, hb, hblock⟩ := h.statement o ho hstatement
  rw [h.lock_of_block hb hblock] at hfree
  cases hfree

theorem idle_of_free (h : Exclusive w) (hconn : w.connected = true) (hfree : w.lock = none) :
    w.running = [] := by
  refine h.idle hconn (h.noStatement_of_free hfree) fun o _ hlock => ?_
  rw [hfree] at hlock
  cases hlock

theorem idle_of_block (h : Exclusive w) {b : Op} (hb : b ∈ w.ops) (hblock : b.point = .block)
    (hno : NoStatement w) : w.running = [] := by
  have htakes := h.takesLock_of_block hb hblock
  refine h.idle (h.connected_of_takesLock hb htakes) hno fun o ho hlock => ?_
  have hid : b.id = o.id := Option.some.inj ((h.lock_of_block hb hblock).symm.trans hlock)
  rw [← Keyed.eq_of_key_eq h.ids hb ho hid, hblock]
  rfl

/-! ### What the steps keep -/

/-- The holder of the lock goes on to another point. The job that runs then is the one it
awaits there, or it did not await one before. -/
theorem move (h : Exclusive w) {o : Op} (ho : o ∈ w.ops)
    (htakes : o.operation.takesLock = true) (hlock : w.lock = some o.id) {point : OpPoint}
    {w' : Jobs} (hops : w'.ops = Keyed.replace (·.id) o.id { o with point := point } w.ops)
    (hlock' : w'.lock = w.lock) (hconn : w'.connected = w.connected)
    (hclosed : w'.closed = w.closed) (hjobs : ∀ job ∈ point.job, job.kind ≠ .close)
    (hstatement : point = .block ∨ NoStatement w)
    (howner : (w'.running = w.running ∧ ∀ job ∈ o.point.job, job ∉ w.running) ∨
      ∃ job, point = .awaiting job ∧ w'.running = [job]) : Exclusive w' where
  ids := by
    have hkeys : w'.ops.map (·.id) = w.ops.map (·.id) := by
      rw [hops]
      exact Keyed.map_key_replace (by rfl) w.ops
    rw [hkeys]
    exact h.ids
  holder x hx hx' hpoint := by
    rw [hlock']
    rw [hops] at hx
    rcases Keyed.mem_replace hx with rfl | ⟨hx, -⟩
    · exact hlock
    · exact h.holder x hx hx' hpoint
  bare x hx hx' := by
    rw [hops] at hx
    rcases Keyed.mem_replace hx with rfl | ⟨hx, -⟩
    · exact absurd (htakes.symm.trans hx') nofun
    · exact h.bare x hx hx'
  jobs x hx job hjob := by
    rw [hops] at hx
    rcases Keyed.mem_replace hx with rfl | ⟨hx, -⟩
    · exact ⟨fun _ => htakes, fun hclose => absurd hclose (hjobs job hjob)⟩
    · exact h.jobs x hx job hjob
  statement x hx hx' := by
    rcases hstatement with rfl | hno
    · exact ⟨_, hops ▸ Keyed.mem_replace_self (List.mem_map_of_mem ho), rfl⟩
    · rw [hops] at hx
      rcases Keyed.mem_replace hx with rfl | ⟨hx, -⟩
      · exact absurd hx' (hno o ho)
      · exact absurd hx' (hno x hx)
  closing x hx := by
    rw [hconn]
    rw [hops] at hx
    rcases Keyed.mem_replace hx with rfl | ⟨hx, -⟩
    · exact h.closing o ho
    · exact h.closing x hx
  owner := by
    rw [hops]
    rcases howner with ⟨hrunning, hnone⟩ | ⟨job, rfl, hrunning⟩
    · -- `o` awaited no job that runs, so the owner of the running job is another one.
      rw [hrunning]
      rcases h.owner with hidle | ⟨x, hx, job, hpoint, hrunning⟩
      · exact Or.inl hidle
      · refine Or.inr ⟨x, Keyed.mem_replace_of_ne hx ?_, job, hpoint, hrunning⟩
        intro heq
        obtain rfl := Keyed.eq_of_key_eq h.ids hx ho heq
        refine hnone job (by rw [hpoint]; rfl) ?_
        rw [hrunning]
        exact List.mem_cons_self
    · exact Or.inr ⟨_, Keyed.mem_replace_self (List.mem_map_of_mem ho), job, rfl, hrunning⟩
  closed hclosed' := by
    rw [hclosed, h.closed_of_connected (h.connected_of_takesLock ho htakes)] at hclosed'
    cases hclosed'

/-- The holder of the lock dispatches a job. -/
theorem dispatch (h : Exclusive w) {o : Op} (ho : o ∈ w.ops)
    (htakes : o.operation.takesLock = true) (hlock : w.lock = some o.id)
    (hidle : w.running = []) (hno : NoStatement w) {kind : JobKind} (hkind : kind ≠ .close) :
    Exclusive (w.dispatch o kind) := by
  refine h.move ho htakes hlock rfl rfl rfl rfl ?_ (Or.inr hno) (Or.inr ⟨_, rfl, ?_⟩)
  · intro job hjob
    cases hjob
    exact hkind
  · show _ :: w.running = _
    rw [hidle]

/-- A waiting operation takes the free lock. -/
theorem acquire (h : Exclusive w) {o : Op} (ho : o ∈ w.ops) (hwaiting : o.point = .waiting)
    (hfree : w.lock = none) : Exclusive (w.acquire o) := by
  have htakes := h.takesLock_of_bare ho (by rw [hwaiting]; rfl)
  have hidle := h.idle_of_free (h.connected_of_takesLock ho htakes) hfree
  -- Nobody else has begun, so the lock may pass to `o`.
  have hlocked : Exclusive { w with lock := some o.id } :=
    { h with
      holder := fun x hx hx' hpoint => by
        have hlock := h.holder x hx hx' hpoint
        rw [hfree] at hlock
        cases hlock }
  refine hlocked.dispatch ho htakes rfl hidle (h.noStatement_of_free hfree) ?_
  split <;> nofun

/-- A new operation is in progress. It waits for the lock, or it has none. -/
theorem append (h : Exclusive w) (hconn : w.connected = true) {o : Op}
    (hid : o.id ∉ w.ops.map (·.id)) (hclose : o.operation ≠ .close)
    (hwaiting : o.operation.takesLock = true → o.point = .waiting)
    (hbare : o.operation.takesLock = false → ∃ job, o.point = .awaiting job)
    (hjobs : ∀ job ∈ o.point.job, Fits o.operation job.kind)
    (hstatement : o.operation = .statement → ∃ b ∈ w.ops, b.point = .block)
    {w' : Jobs} (hops : w'.ops = w.ops ++ [o]) (hlock : w'.lock = w.lock)
    (hconn' : w'.connected = w.connected) (hclosed : w'.closed = w.closed)
    (howner : w'.running = w.running ∨ ∃ job, o.point = .awaiting job ∧ w'.running = [job]) :
    Exclusive w' where
  ids := by
    rw [hops]
    exact Keyed.nodup_append h.ids hid
  holder x hx hx' hpoint := by
    rw [hlock]
    rw [hops] at hx
    rcases List.mem_append.mp hx with hx | hx
    · exact h.holder x hx hx' hpoint
    · obtain rfl := List.mem_singleton.mp hx
      exact absurd (hwaiting hx') hpoint
  bare x hx hx' := by
    rw [hops] at hx
    rcases List.mem_append.mp hx with hx | hx
    · exact h.bare x hx hx'
    · obtain rfl := List.mem_singleton.mp hx
      exact hbare hx'
  jobs x hx job hjob := by
    rw [hops] at hx
    rcases List.mem_append.mp hx with hx | hx
    · exact h.jobs x hx job hjob
    · obtain rfl := List.mem_singleton.mp hx
      exact hjobs job hjob
  statement x hx hx' := by
    -- The block that the statement belongs to is still there.
    rw [hops] at hx ⊢
    have hblock : ∃ b ∈ w.ops, b.point = .block := by
      rcases List.mem_append.mp hx with hx | hx
      · exact h.statement x hx hx'
      · obtain rfl := List.mem_singleton.mp hx
        exact hstatement hx'
    obtain ⟨b, hb, hb'⟩ := hblock
    exact ⟨b, List.mem_append_left _ hb, hb'⟩
  closing x hx := by
    rw [hconn']
    rw [hops] at hx
    rcases List.mem_append.mp hx with hx | hx
    · exact h.closing x hx
    · obtain rfl := List.mem_singleton.mp hx
      exact ⟨fun hx' => absurd hx' hclose, fun hnot => absurd (hconn.symm.trans hnot) nofun⟩
  owner := by
    rw [hops]
    rcases howner with hrunning | ⟨job, hpoint, hrunning⟩
    · rw [hrunning]
      rcases h.owner with hidle | ⟨x, hx, hjob⟩
      · exact Or.inl hidle
      · exact Or.inr ⟨x, List.mem_append_left _ hx, hjob⟩
    · exact Or.inr ⟨o, List.mem_append_right _ List.mem_cons_self, job, hpoint, hrunning⟩
  closed hclosed' := by
    rw [hclosed, h.closed_of_connected hconn] at hclosed'
    cases hclosed'

theorem call (h : Exclusive w) {id : Nat} (hid : id ∉ w.ops.map (·.id)) {operation : Operation}
    (htakes : operation.takesLock = true) : Exclusive (w.call id operation) := by
  unfold Jobs.call
  split
  · exact h
  · rename_i hconn
    have hconn' : w.connected = true := by simpa using hconn
    have hadd : Exclusive (w.add ⟨id, operation, .waiting⟩) := by
      refine h.append hconn' hid ?_ (fun _ => rfl) ?_ (by simp [OpPoint.job]) ?_ rfl rfl rfl rfl
        (Or.inl rfl)
      · rintro rfl
        cases htakes
      · intro hbare
        rw [htakes] at hbare
        cases hbare
      · rintro rfl
        cases htakes
    split
    · rename_i hfree
      exact hadd.acquire (List.mem_append_right _ List.mem_cons_self) rfl hfree.1
    · exact hadd

/-- A block calls a statement when none of its statements is in progress. -/
theorem callStatement (h : Exclusive w) {b : Op} (hb : b ∈ w.ops) (hblock : b.point = .block)
    (hno : NoStatement w) {id : Nat} (hid : id ∉ w.ops.map (·.id)) :
    Exclusive (w.statement id) := by
  have htakes := h.takesLock_of_block hb hblock
  refine h.append (h.connected_of_takesLock hb htakes) hid (by simp)
    (fun htakes' => by cases htakes') (fun _ => ⟨_, rfl⟩) ?_ (fun _ => ⟨b, hb, hblock⟩)
    rfl rfl rfl rfl (Or.inr ⟨_, rfl, ?_⟩)
  · intro job hjob
    cases hjob
    exact ⟨nofun, nofun⟩
  · show _ :: w.running = _
    rw [h.idle_of_block hb hblock hno]

/-- The task of an operation ends. It awaits no job that runs, and a block has no statement. -/
theorem finish (h : Exclusive w) {o : Op} (ho : o ∈ w.ops)
    (hjob : ∀ job ∈ o.point.job, job ∉ w.running)
    (hblock : o.point = .block → NoStatement w) : Exclusive (w.finish o) where
  ids := (List.filter_sublist.map _).nodup h.ids
  holder x hx hx' hpoint := by
    obtain ⟨hx, hne⟩ := List.mem_filter.mp hx
    have hlock := h.holder x hx hx' hpoint
    -- `o` lets go of the lock only if it held it, and `x` is another operation.
    have hother : w.lock ≠ some o.id := by
      rw [hlock]
      simpa using hne
    show (if w.lock = some o.id then none else w.lock) = some x.id
    rw [if_neg hother, hlock]
  bare x hx hx' := h.bare x (List.mem_filter.mp hx).1 hx'
  jobs x hx := h.jobs x (List.mem_filter.mp hx).1
  statement x hx hstatement := by
    have hx₀ := (List.mem_filter.mp hx).1
    obtain ⟨b, hb, hb'⟩ := h.statement x hx₀ hstatement
    refine ⟨b, List.mem_filter.mpr ⟨hb, ?_⟩, hb'⟩
    have hne : b.id ≠ o.id := by
      intro heq
      obtain rfl := Keyed.eq_of_key_eq h.ids hb ho heq
      exact hblock hb' x hx₀ hstatement
    simpa using hne
  closing x hx := h.closing x (List.mem_filter.mp hx).1
  owner := by
    rcases h.owner with hidle | ⟨x, hx, job, hpoint, hrunning⟩
    · exact Or.inl hidle
    · -- The owner of the running job awaits it, and `o` does not.
      refine Or.inr ⟨x, List.mem_filter.mpr ⟨hx, ?_⟩, job, hpoint, hrunning⟩
      have hne : x.id ≠ o.id := by
        intro heq
        obtain rfl := Keyed.eq_of_key_eq h.ids hx ho heq
        refine hjob job (by rw [hpoint]; rfl) ?_
        rw [hrunning]
        exact List.mem_cons_self
      simpa using hne
  closed := h.closed

/-- BEGIN IMMEDIATE has returned. -/
theorem enterBlock (h : Exclusive w) {o : Op} (ho : o ∈ w.ops) {job : ThreadJob}
    (hpoint : o.point = .awaiting job) (hbegin : job.kind = .begin) (hended : job ∉ w.running) :
    Exclusive (w.enterBlock o) := by
  have htakes := (h.jobs o ho job (by rw [hpoint]; rfl)).1 hbegin
  refine h.move ho htakes (h.holder o ho htakes (by rw [hpoint]; nofun)) rfl rfl rfl rfl
    nofun (Or.inl rfl) (Or.inl ⟨rfl, fun job' hjob' => ?_⟩)
  rw [hpoint] at hjob'
  cases hjob'
  exact hended

theorem resume (h : Exclusive w) {o : Op} (ho : o ∈ w.ops) {job : ThreadJob}
    (hpoint : o.point = .awaiting job) (hended : job ∉ w.running) (raised : Bool) :
    Exclusive (w.resume o job raised) := by
  unfold Jobs.resume
  split
  · rename_i hbegin
    exact h.enterBlock ho hpoint hbegin.1 hended
  · refine h.finish ho ?_ ?_
    · intro job' hjob'
      rw [hpoint] at hjob'
      cases hjob'
      exact hended
    · intro hblock
      rw [hpoint] at hblock
      cases hblock

theorem cancel (h : Exclusive w) {o : Op} (ho : o ∈ w.ops)
    (hjob : ∀ job ∈ o.point.job, job ∉ w.running) : Exclusive (w.cancel o) := by
  unfold Jobs.cancel
  split
  · exact h
  · rename_i hblock
    exact h.finish ho hjob fun hblock' => absurd hblock' hblock

/-- `close` finds no operation in progress. -/
theorem close (h : Exclusive w) (hops : w.ops = []) (id : Nat) : Exclusive (w.close id) := by
  unfold Jobs.close
  split
  · rename_i hconn
    have hidle : w.running = [] := by
      rcases h.owner with hidle | ⟨o, ho, -⟩
      · exact hidle
      · rw [hops] at ho
        cases ho
    -- The only operation is `close`, so each field is about its job.
    have hnew : (Jobs.launch { w with connected := false } id .close .close).ops
        = [⟨id, .close, .awaiting ⟨w.dispatched, .close⟩⟩] := by
      show w.ops ++ _ = _
      rw [hops]
      rfl
    refine ⟨?_, ?_, ?_, ?_, ?_, ?_, ?_, ?_⟩
    · rw [hnew]
      exact List.nodup_singleton _
    · intro x hx hx'
      rw [hnew, List.mem_singleton] at hx
      rw [hx] at hx'
      cases hx'
    · intro x hx _
      rw [hnew, List.mem_singleton] at hx
      exact ⟨_, by rw [hx]⟩
    · intro x hx job hjob
      rw [hnew, List.mem_singleton] at hx
      rw [hx] at hjob ⊢
      cases hjob
      exact ⟨nofun, fun _ => rfl⟩
    · intro x hx hstatement
      rw [hnew, List.mem_singleton] at hx
      rw [hx] at hstatement
      cases hstatement
    · intro x hx
      rw [hnew, List.mem_singleton] at hx
      rw [hx]
      exact ⟨fun _ => rfl, fun _ => rfl⟩
    · refine Or.inr ⟨_, by rw [hnew]; exact List.mem_cons_self, _, rfl, ?_⟩
      show _ :: w.running = _
      rw [hidle]
    · intro (hclosed : w.closed = true)
      rw [h.closed_of_connected hconn] at hclosed
      cases hclosed
  · exact h

/-- A job ends. Only the job of `close` closes, and then no operation has the connection. -/
theorem jobEnds (h : Exclusive w) {serial : Nat} : Exclusive (w.jobEnds serial) where
  ids := h.ids
  holder := h.holder
  bare := h.bare
  jobs := h.jobs
  statement := h.statement
  closing := h.closing
  owner := by
    rcases h.owner with hidle | ⟨o, ho, job, hpoint, hrunning⟩
    · left
      show w.running.filter _ = []
      rw [hidle]
      rfl
    · by_cases hserial : job.serial = serial
      · left
        show w.running.filter _ = []
        rw [hrunning, List.filter_cons_of_neg (by simpa using hserial)]
        rfl
      · refine Or.inr ⟨o, ho, job, hpoint, ?_⟩
        show w.running.filter _ = [job]
        rw [hrunning, List.filter_cons_of_pos (by simpa using hserial)]
        rfl
  closed hclosed := by
    rcases Bool.or_eq_true_iff.mp hclosed with hclosed | hany
    · obtain ⟨hconn, hidle⟩ := h.closed hclosed
      refine ⟨hconn, ?_⟩
      show w.running.filter _ = []
      rw [hidle]
      rfl
    · -- The job that ends is the job of `close`, and it is the only one.
      obtain ⟨job, hjob, hkind⟩ := List.any_eq_true.mp hany
      obtain ⟨hserial, hclose⟩ : job.serial = serial ∧ job.kind = .close := by simpa using hkind
      rcases h.owner with hidle | ⟨o, ho, job', hpoint, hrunning⟩
      · rw [hidle] at hjob
        cases hjob
      · rw [hrunning, List.mem_singleton] at hjob
        subst hjob
        refine ⟨(h.closing o ho).mp ((h.jobs o ho job (by rw [hpoint]; rfl)).2 hclose), ?_⟩
        show w.running.filter _ = []
        rw [hrunning, List.filter_cons_of_neg (by simpa using hserial)]
        rfl

theorem step (h : Exclusive w) {e : JobStep} {w' : Jobs} (hstep : Jobs.step w e = some w')
    (hquiet : Undisturbed w e w') : Exclusive w' := by
  obtain ⟨hen, rfl⟩ := Run.guarded_eq_some.mp hstep
  -- The identifiers are distinct, so a step finds the operation it names.
  have hat : ∀ {o : Op} (act : Op → Jobs), o ∈ w.ops → w.withOp o.id act = act o := by
    intro o act ho
    show (w.ops.find? _).elim w act = act o
    rw [Keyed.find?_of_mem h.ids ho]
    rfl
  cases e with
  | call id operation => exact h.call hen.1 hen.2
  | acquire =>
    obtain ⟨hfree, o, ho, hwaiting⟩ := hen
    show Exclusive ((w.ops.find? _).elim w w.acquire)
    cases hfind : w.ops.find? (·.point = .waiting) with
    | none => exact h
    | some o =>
      have hpoint := List.find?_some hfind
      exact h.acquire (List.mem_of_find?_eq_some hfind) (by simpa using hpoint) hfree
  | statement block id =>
    obtain ⟨hid, b, hb, -, hblock⟩ := hen
    exact h.callStatement hb hblock hquiet hid
  | leave id raised =>
    obtain ⟨o, ho, rfl, hblock⟩ := hen
    show Exclusive (w.withOp o.id _)
    rw [hat _ ho]
    exact h.dispatch ho (h.takesLock_of_block ho hblock) (h.lock_of_block ho hblock)
      (h.idle_of_block ho hblock hquiet) hquiet (by split <;> nofun)
  | abandon id =>
    obtain ⟨o, ho, rfl, hblock⟩ := hen
    show Exclusive (w.withOp o.id _)
    rw [hat _ ho]
    refine h.finish ho ?_ fun _ => hquiet
    rw [hblock]
    nofun
  | jobEnds serial => exact h.jobEnds
  | resume id raised =>
    obtain ⟨o, ho, rfl, job, hjob, hended⟩ := hen
    show Exclusive (w.withOp o.id _)
    rw [hat _ ho]
    cases hpoint : o.point with
    | awaiting job' =>
      rw [hpoint] at hjob
      cases hjob
      exact h.resume ho hpoint hended raised
    | waiting | block =>
      rw [hpoint] at hjob
      cases hjob
  | cancel id =>
    obtain ⟨o, ho, rfl⟩ := hen
    show Exclusive (w.withOp o.id _)
    rw [hat _ ho]
    exact h.cancel ho (hquiet o ho rfl)
  | close id => exact h.close hquiet id

end Exclusive

/-- In every undisturbed run at most one job runs on the connection, and none on a closed one. -/
theorem oneJob_of_undisturbed (es : List JobStep) (w : Jobs)
    (hrun : Run.exec Jobs.step {} es = some w) (hquiet : Run.Along Jobs.step Undisturbed {} es) :
    OneJob w :=
  (Run.exec_invariant Exclusive (fun _ _ _ h hstep hg => h.step hstep hg) es _ w Exclusive.new
    hrun hquiet).oneJob

/-- A transaction of one statement, an `execute` that waits for it, and a `close` at the end. -/
def writeAndClose : List JobStep :=
  [.call 0 .transaction, .jobEnds 0, .resume 0 false, .statement 0 1, .call 2 .execute,
    .jobEnds 1, .resume 1 false, .leave 0 false, .jobEnds 2, .resume 0 false, .acquire,
    .jobEnds 3, .resume 2 false, .close 3]

theorem oneJob_of_undisturbed_writeAndClose :
    ∃ w, Run.exec Jobs.step {} writeAndClose = some w ∧ OneJob w ∧ w.running = [⟨4, .close⟩] := by
  have hrun : (Run.exec Jobs.step {} writeAndClose).map (fun w => w.running)
      = some [⟨4, .close⟩] := by decide
  obtain ⟨w, hw, hrunning⟩ := Option.map_eq_some_iff.mp hrun
  exact ⟨w, hw, oneJob_of_undisturbed writeAndClose w hw (by decide), hrunning⟩

/-- An `execute` is cancelled during its job and lets go of the lock. The next one begins its
job on the same connection. -/
theorem cancelled_execute_overlaps :
    ¬ ∀ (es : List JobStep) (w : Jobs), Run.exec Jobs.step {} es = some w → OneJob w := by
  intro h
  have hrun : (Run.exec Jobs.step {} [.call 0 .execute, .cancel 0, .call 1 .execute]).map
      (fun w => w.running) = some [⟨1, .whole⟩, ⟨0, .whole⟩] := by decide
  obtain ⟨w, hw, hrunning⟩ := Option.map_eq_some_iff.mp hrun
  have hone := (h _ w hw).atMostOne
  rw [hrunning] at hone
  exact absurd hone (by decide)

/-- `close` takes the connection while an `execute` waits for the lock. The connection is
closed when the `execute` gets the lock, and its job runs all the same. -/
example : (Run.exec Jobs.step {} [.call 0 .execute, .call 1 .execute, .close 2, .jobEnds 0,
    .jobEnds 1, .resume 0 false, .acquire]).map (fun w => (w.closed, w.running))
      = some (true, [⟨2, .whole⟩]) := by
  decide

end EdgeSentinel.Proofs.Persistence
