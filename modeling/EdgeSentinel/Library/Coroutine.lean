import Mathlib.Tactic.TypeStar

/-!
# `EdgeSentinel.Library.Coroutine`: programs that interleave and may be dropped

A coroutine asks for operations, one at a time, and goes on with the answer. Between two
operations anything may happen: other coroutines make steps, or the coroutine is dropped.

The operations work on a store that is made of cells. `Cells` says what an operation does
to the store, what it does to the one cell it is about, and that the two agree and leave
the other cells alone.

`Safe D i inv post p c` is the rule to reason about such a coroutine. It says that `p`,
started with the cell `c`, works on the cell `i` only, that `inv` holds of the cell before
each of its operations, and that `post` holds of its result and the cell at its end. So a
coroutine that is dropped leaves a cell that satisfies `inv`. Because the operations of the
other coroutines leave the cell alone, `Safe` survives the interleaving
(`Safe.perform_self`, `Safe.perform_of_ne`). `Heeds` is the same with a condition on the cell
and the operation that is about to happen.

`Prog.Asks P p` says that `P` holds of every operation that `p` can ask for.

`Prog.exec` runs a program alone, and `Prog.trace` lists the operations that it then asks for.
`Prog.Runs` is the two together, with a rule for each form.
`Prog.raising` is a program some of whose operations raise, and `Runs.raising_of_some` cuts a run at
the first of them. `exec_sim` compares a program on two stores. `Prog.interp` runs a program whose
operations are programs themselves, so an operation may have no answer.
-/

set_option autoImplicit false

namespace Coroutine

/-- A program that asks for operations in `Op`. It ends with a result or an exception. -/
inductive Prog (Op : Type) (Ret : Op → Type) (ε α : Type) where
  | done (a : α)
  | fail (e : ε)
  | ask (o : Op) (k : Ret o → Prog Op Ret ε α)

namespace Prog

variable {Op : Type} {Ret : Op → Type} {ε α β : Type}

/-- Sequencing. An exception ends the whole program. -/
def bind : Prog Op Ret ε α → (α → Prog Op Ret ε β) → Prog Op Ret ε β
  | done a, f => f a
  | fail e, _ => fail e
  | ask o k, f => ask o fun r => (k r).bind f

instance : Monad (Prog Op Ret ε) where
  pure := done
  bind := bind

/-- One operation, and its answer. -/
def perform (o : Op) : Prog Op Ret ε (Ret o) := ask o done

/-- `try: body except Exception as e: handler(e)`. -/
def tryExcept : Prog Op Ret ε α → (ε → Prog Op Ret ε α) → Prog Op Ret ε α
  | done a, _ => done a
  | fail e, handler => handler e
  | ask o k, handler => ask o fun r => (k r).tryExcept handler

/-- The program when some operations raise an exception once they are done. Nothing in it catches
that exception. -/
def raising (raises : Op → Option ε) : Prog Op Ret ε α → Prog Op Ret ε α
  | done a => done a
  | fail e => fail e
  | ask o k => ask o fun r =>
    match raises o with
    | some e => fail e
    | none => (k r).raising raises

theorem raising_eq_self {raises : Op → Option ε} (hnone : ∀ o, raises o = none)
    (p : Prog Op Ret ε α) : p.raising raises = p := by
  induction p with
  | done a => rfl
  | fail e => rfl
  | ask o k ih =>
    rw [raising]
    simp only [hnone o, ih]

/-- The program has ended. -/
def isFinished : Prog Op Ret ε α → Bool
  | done _ => true
  | fail _ => true
  | ask _ _ => false

/-! ### What a program can ask for -/

/-- `P` holds of every operation that the program can ask for, whatever it is answered. -/
def Asks (P : Op → Prop) : Prog Op Ret ε α → Prop
  | done _ => True
  | fail _ => True
  | ask o k => P o ∧ ∀ r, (k r).Asks P

theorem asks_perform {P : Op → Prop} {o : Op} (h : P o) :
    (Prog.perform o : Prog Op Ret ε _).Asks P := ⟨h, fun _ => trivial⟩

theorem asks_bind {P : Op → Prop} {p : Prog Op Ret ε α} {f : α → Prog Op Ret ε β}
    (hp : p.Asks P) (hf : ∀ a, (f a).Asks P) : (p >>= f).Asks P := by
  induction p with
  | done a => exact hf a
  | fail e => exact trivial
  | ask o k ih => exact ⟨hp.1, fun r => ih r (hp.2 r)⟩

theorem Asks.mono {P Q : Op → Prop} (h : ∀ o, P o → Q o) {p : Prog Op Ret ε α} :
    p.Asks P → p.Asks Q := by
  induction p with
  | done a => exact fun _ => trivial
  | fail e => exact fun _ => trivial
  | ask o k ih => exact fun hp => ⟨h o hp.1, fun r => ih r (hp.2 r)⟩

/-! ### A program that runs alone -/

section
variable {σ τ : Type}

/-- Run a program to its end. Nothing else happens meanwhile. -/
def exec (perform : (o : Op) → σ → Ret o × σ) : Prog Op Ret ε α → σ → Except ε α × σ
  | done a, s => (.ok a, s)
  | fail e, s => (.error e, s)
  | ask o k, s => (k (perform o s).1).exec perform (perform o s).2

variable {perform : (o : Op) → σ → Ret o × σ} {perform' : (o : Op) → τ → Ret o × τ}

@[simp] theorem exec_pure (a : α) (s : σ) :
    (pure a : Prog Op Ret ε α).exec perform s = (.ok a, s) := rfl

@[simp] theorem exec_fail (e : ε) (s : σ) :
    (fail e : Prog Op Ret ε α).exec perform s = (.error e, s) := rfl

/-- An operation answers, and the program goes on. -/
theorem exec_perform_bind (o : Op) (k : Ret o → Prog Op Ret ε α) (s : σ) :
    (Prog.perform o >>= k).exec perform s = (k (perform o s).1).exec perform (perform o s).2 := rfl

theorem exec_bind (p : Prog Op Ret ε α) (f : α → Prog Op Ret ε β) :
    ∀ s, (p >>= f).exec perform s =
      match p.exec perform s with
      | (.ok a, s') => (f a).exec perform s'
      | (.error e, s') => (.error e, s') := by
  induction p with
  | done a => exact fun _ => rfl
  | fail e => exact fun _ => rfl
  | ask o k ih => exact fun s => ih (perform o s).1 (perform o s).2

/-- When `p` ends with a value, `p >>= f` goes on with `f`. -/
theorem exec_bind_of_ok {p : Prog Op Ret ε α} {s s' : σ} {a : α}
    (h : p.exec perform s = (.ok a, s')) (f : α → Prog Op Ret ε β) :
    (p >>= f).exec perform s = (f a).exec perform s' := by
  rw [exec_bind, h]

/-- When `p` ends with an exception, so does `p >>= f`. -/
theorem exec_bind_of_error {p : Prog Op Ret ε α} {s s' : σ} {e : ε}
    (h : p.exec perform s = (.error e, s')) (f : α → Prog Op Ret ε β) :
    (p >>= f).exec perform s = (.error e, s') := by
  rw [exec_bind, h]

/-- A handler goes on from where the exception was raised. -/
theorem exec_tryExcept (p : Prog Op Ret ε α) (handler : ε → Prog Op Ret ε α) :
    ∀ s, (p.tryExcept handler).exec perform s =
      match p.exec perform s with
      | (.ok a, s') => (.ok a, s')
      | (.error e, s') => (handler e).exec perform s' := by
  induction p with
  | done a => exact fun _ => rfl
  | fail e => exact fun _ => rfl
  | ask o k ih => exact fun s => ih (perform o s).1 (perform o s).2

/-- The operations that a program asks for, in order. -/
def trace (perform : (o : Op) → σ → Ret o × σ) : Prog Op Ret ε α → σ → List Op
  | done _, _ => []
  | fail _, _ => []
  | ask o k, s => o :: (k (perform o s).1).trace perform (perform o s).2

theorem trace_bind (p : Prog Op Ret ε α) (f : α → Prog Op Ret ε β) :
    ∀ s, (p >>= f).trace perform s = p.trace perform s ++
      match p.exec perform s with
      | (.ok a, s') => (f a).trace perform s'
      | (.error _, _) => [] := by
  induction p with
  | done a => exact fun _ => rfl
  | fail e => exact fun _ => rfl
  | ask o k ih => exact fun s => congrArg (o :: ·) (ih (perform o s).1 (perform o s).2)

theorem trace_tryExcept (p : Prog Op Ret ε α) (handler : ε → Prog Op Ret ε α) :
    ∀ s, (p.tryExcept handler).trace perform s = p.trace perform s ++
      match p.exec perform s with
      | (.ok _, _) => []
      | (.error e, s') => (handler e).trace perform s' := by
  induction p with
  | done a => exact fun _ => rfl
  | fail e => exact fun _ => rfl
  | ask o k ih => exact fun s => congrArg (o :: ·) (ih (perform o s).1 (perform o s).2)

/-- `p` on `s` ends with `r` and leaves `s'`. It asks for `ops` on its way. -/
structure Runs (perform : (o : Op) → σ → Ret o × σ) (p : Prog Op Ret ε α) (s : σ)
    (r : Except ε α) (s' : σ) (ops : List Op) : Prop where
  exec : p.exec perform s = (r, s')
  trace : p.trace perform s = ops

namespace Runs

variable {s s' s'' : σ} {ops ops' : List Op} {a : α} {e : ε}

theorem pure (a : α) (s : σ) : Runs perform (.done a : Prog Op Ret ε α) s (.ok a) s [] := ⟨rfl, rfl⟩

theorem fail (e : ε) (s : σ) : Runs perform (.fail e : Prog Op Ret ε α) s (.error e) s [] :=
  ⟨rfl, rfl⟩

/-- An operation, and what comes after its answer. -/
theorem perform_bind {o : Op} {k : Ret o → Prog Op Ret ε α} {r : Except ε α}
    (h : Runs perform (k (perform o s).1) (perform o s).2 r s' ops) :
    Runs perform (Prog.perform o >>= k) s r s' (o :: ops) :=
  ⟨h.exec, congrArg (o :: ·) h.trace⟩

theorem bind {p : Prog Op Ret ε α} {f : α → Prog Op Ret ε β} {r : Except ε β}
    (hp : Runs perform p s (.ok a) s' ops) (hf : Runs perform (f a) s' r s'' ops') :
    Runs perform (p >>= f) s r s'' (ops ++ ops') := by
  refine ⟨(exec_bind_of_ok hp.exec f).trans hf.exec, ?_⟩
  rw [trace_bind, hp.exec, hp.trace, ← hf.trace]

theorem bind_error {p : Prog Op Ret ε α} (hp : Runs perform p s (.error e) s' ops)
    (f : α → Prog Op Ret ε β) : Runs perform (p >>= f) s (.error e) s' ops := by
  refine ⟨exec_bind_of_error hp.exec f, ?_⟩
  rw [trace_bind, hp.exec, hp.trace, List.append_nil]

/-- What is left behind is what the operations do. -/
theorem store_eq {p : Prog Op Ret ε α} : ∀ {s : σ} {r : Except ε α} {ops : List Op},
    Runs perform p s r s' ops → s' = ops.foldl (fun s o => (perform o s).2) s := by
  induction p with
  | done a =>
    rintro s r ops ⟨hexec, rfl⟩
    exact (Prod.mk.inj hexec).2.symm
  | fail e =>
    rintro s r ops ⟨hexec, rfl⟩
    exact (Prod.mk.inj hexec).2.symm
  | ask o k ih =>
    rintro s r ops ⟨hexec, rfl⟩
    have hlater : Runs perform (k (perform o s).1) (perform o s).2 r s' _ := ⟨hexec, rfl⟩
    exact (ih _ hlater :)

/-- A program none of whose operations raises. -/
theorem raising_of_none {raises : Op → Option ε} {p : Prog Op Ret ε α} :
    ∀ {s : σ} {r : Except ε α} {ops : List Op}, Runs perform p s r s' ops →
      (∀ o ∈ ops, raises o = none) → Runs perform (p.raising raises) s r s' ops := by
  induction p with
  | done a => exact fun h _ => h
  | fail e => exact fun h _ => h
  | ask o k ih =>
    rintro s r ops ⟨hexec, rfl⟩ hnone
    have hlater : Runs perform (k (perform o s).1) (perform o s).2 r s' _ := ⟨hexec, rfl⟩
    have hrest := ih _ hlater fun o' ho' => hnone o' (List.mem_cons_of_mem _ ho')
    have hraising : (ask o k).raising raises
        = ask o fun r => match raises o with
          | some e => Prog.fail e
          | none => (k r).raising raises := rfl
    rw [hnone o List.mem_cons_self] at hraising
    rw [hraising]
    exact ⟨hrest.exec, congrArg (o :: ·) hrest.trace⟩

/-- The first operation that raises ends the program. -/
theorem raising_of_some {raises : Op → Option ε} {o : Op} {later : List Op} (he : raises o = some e)
    {p : Prog Op Ret ε α} : ∀ {s : σ} {r : Except ε α} {ops : List Op},
      Runs perform p s r s' (ops ++ o :: later) → (∀ o ∈ ops, raises o = none) →
      Runs perform (p.raising raises) s (.error e)
        ((ops ++ [o]).foldl (fun s o => (perform o s).2) s) (ops ++ [o]) := by
  induction p with
  | done a =>
    rintro s r ops ⟨-, htrace⟩
    exact absurd htrace.symm (by simp [Prog.trace])
  | fail e =>
    rintro s r ops ⟨-, htrace⟩
    exact absurd htrace.symm (by simp [Prog.trace])
  | ask o' k ih =>
    rintro s r ops ⟨hexec, htrace⟩ hnone
    have hraising : (ask o' k).raising raises
        = ask o' fun r => match raises o' with
          | some e => Prog.fail e
          | none => (k r).raising raises := rfl
    cases ops with
    | nil =>
      obtain rfl : o' = o := (List.cons.inj htrace).1
      rw [he] at hraising
      rw [hraising]
      exact ⟨rfl, rfl⟩
    | cons first ops =>
      obtain ⟨rfl, hops⟩ := List.cons.inj htrace
      have hlater : Runs perform (k (perform o' s).1) (perform o' s).2 r s' _ := ⟨hexec, hops⟩
      have hrest := ih _ hlater fun o ho => hnone o (List.mem_cons_of_mem _ ho)
      rw [hnone o' List.mem_cons_self] at hraising
      rw [hraising]
      exact ⟨hrest.exec, congrArg (o' :: ·) hrest.trace⟩

theorem tryExcept_ok {p : Prog Op Ret ε α} (hp : Runs perform p s (.ok a) s' ops)
    (handler : ε → Prog Op Ret ε α) : Runs perform (p.tryExcept handler) s (.ok a) s' ops := by
  refine ⟨?_, ?_⟩
  · rw [exec_tryExcept, hp.exec]
  · rw [trace_tryExcept, hp.exec, hp.trace, List.append_nil]

theorem tryExcept_error {p : Prog Op Ret ε α} {r : Except ε α}
    (hp : Runs perform p s (.error e) s' ops) (handler : ε → Prog Op Ret ε α)
    (hh : Runs perform (handler e) s' r s'' ops') :
    Runs perform (p.tryExcept handler) s r s'' (ops ++ ops') := by
  refine ⟨?_, ?_⟩
  · rw [exec_tryExcept, hp.exec]
    exact hh.exec
  · rw [trace_tryExcept, hp.exec, hp.trace, ← hh.trace]

end Runs

/-! ### Operations that may not answer -/

/-- Run a program whose operations may not answer. -/
def interp (handle : (o : Op) → σ → Option (Ret o × σ)) :
    Prog Op Ret ε α → σ → Option (Except ε α × σ)
  | done a, s => some (.ok a, s)
  | fail e, s => some (.error e, s)
  | ask o k, s =>
    match handle o s with
    | some (r, s') => (k r).interp handle s'
    | none => none

/-- How a program ends when each operation gets a fixed answer. -/
def answered (answer : (o : Op) → Ret o) : Prog Op Ret ε α → Except ε α
  | done a => .ok a
  | fail e => .error e
  | ask o k => (k (answer o)).answered answer

/-- Where the operations answer as in a run of the program, `interp` is that run. -/
theorem Runs.interp {handle : (o : Op) → σ → Option (Ret o × σ)} {p : Prog Op Ret ε α} :
    ∀ {s s' : σ} {r : Except ε α} {ops : List Op}, Runs perform p s r s' ops →
      (∀ o ∈ ops, ∀ s, handle o s = some (perform o s)) → p.interp handle s = some (r, s') := by
  induction p with
  | done a =>
    intro s s' r ops h _
    exact congrArg some h.exec
  | fail e =>
    intro s s' r ops h _
    exact congrArg some h.exec
  | ask o k ih =>
    intro s s' r ops h hanswers
    have hops : ops = o :: (k (perform o s).1).trace perform (perform o s).2 := h.trace.symm
    rw [hops] at hanswers
    rw [Prog.interp, hanswers o List.mem_cons_self]
    exact ih _ ⟨h.exec, rfl⟩ fun o' ho' => hanswers o' (List.mem_cons_of_mem _ ho')

/-- Operations with a fixed answer leave the store. -/
theorem interp_eq_answered {handle : (o : Op) → σ → Option (Ret o × σ)} {answer : (o : Op) → Ret o}
    (h : ∀ o s, handle o s = some (answer o, s)) (p : Prog Op Ret ε α) :
    ∀ s, p.interp handle s = some (p.answered answer, s) := by
  induction p with
  | done a => exact fun _ => rfl
  | fail e => exact fun _ => rfl
  | ask o k ih =>
    intro s
    rw [interp, h]
    exact ih (answer o) s

/-- A program ends alike on two stores whose operations answer alike. -/
theorem exec_sim {R : σ → τ → Prop}
    (hstep : ∀ o s t, R s t → (perform o s).1 = (perform' o t).1 ∧
      R (perform o s).2 (perform' o t).2) (p : Prog Op Ret ε α) :
    ∀ s t, R s t → (p.exec perform s).1 = (p.exec perform' t).1 ∧
      R (p.exec perform s).2 (p.exec perform' t).2 := by
  induction p with
  | done a => exact fun s t h => ⟨rfl, h⟩
  | fail e => exact fun s t h => ⟨rfl, h⟩
  | ask o k ih =>
    intro s t h
    obtain ⟨hret, hrel⟩ := hstep o s t h
    have hrest := ih (perform o s).1 _ _ hrel
    simp only [exec]
    rw [← hret]
    exact hrest

end

end Prog

/-- A store made of cells. The answers of the outside world to an operation are in `χ`.
`perform` is an operation on the store, `act` the same operation on its cell. -/
structure Cells (Op : Type) (Ret : Op → Type) (χ σ ι κ : Type) where
  key : Op → ι
  perform : (o : Op) → χ → σ → Ret o × σ
  act : (o : Op) → χ → κ → Ret o × κ
  view : σ → ι → κ
  perform_fst : ∀ o x s, (perform o x s).1 = (act o x (view s (key o))).1
  view_perform_key : ∀ o x s, view (perform o x s).2 (key o) = (act o x (view s (key o))).2
  view_perform_of_ne : ∀ o x s i, i ≠ key o → view (perform o x s).2 i = view s i

section
variable {Op : Type} {Ret : Op → Type} {χ σ ι κ ε α β : Type}

/-- `p` works on the cell `i`, keeps `inv` before each of its operations, and ends in
`post`. -/
def Safe (D : Cells Op Ret χ σ ι κ) (i : ι) (inv : κ → Prop) (post : Except ε α → κ → Prop) :
    Prog Op Ret ε α → κ → Prop
  | .done a, c => post (.ok a) c
  | .fail e, c => post (.error e) c
  | .ask o k, c => inv c ∧ D.key o = i ∧
      ∀ x, Safe D i inv post (k (D.act o x c).1) (D.act o x c).2

namespace Safe

variable {D : Cells Op Ret χ σ ι κ} {i : ι} {inv : κ → Prop} {post : Except ε α → κ → Prop}

/-- A safe program may be dropped where it stands. -/
theorem inv_of_post (hpost : ∀ r c, post r c → inv c) {p : Prog Op Ret ε α} {c : κ}
    (h : Safe D i inv post p c) : inv c := by
  cases p with
  | done a => exact hpost _ _ h
  | fail e => exact hpost _ _ h
  | ask o k => exact h.1

/-- One operation: it is about the cell `i`, and `post` holds of each answer. -/
theorem perform {o : Op} {c : κ} {post : Except ε (Ret o) → κ → Prop} (hinv : inv c)
    (hkey : D.key o = i) (h : ∀ x, post (.ok (D.act o x c).1) (D.act o x c).2) :
    Safe D i inv post (Prog.perform o) c :=
  ⟨hinv, hkey, h⟩

/-- Sequencing: the first part ends where the second part is safe. -/
theorem bind {post : Except ε β → κ → Prop} {p : Prog Op Ret ε α} {f : α → Prog Op Ret ε β}
    {c : κ} (h : Safe D i inv (fun r c' => match r with
      | .ok a => Safe D i inv post (f a) c'
      | .error e => post (.error e) c') p c) :
    Safe D i inv post (p >>= f) c := by
  -- The recursion is on the first part; the continuation's proof is the tail of `h`.
  induction p generalizing c with
  | done a => exact h
  | fail e => exact h
  | ask o k ih =>
    obtain ⟨hinv, hkey, hrest⟩ := h
    exact ⟨hinv, hkey, fun x => ih _ (hrest x)⟩

/-- The step of a program keeps it safe. -/
theorem perform_self {o : Op} {k : Ret o → Prog Op Ret ε α} {s : σ}
    (h : Safe D i inv post (.ask o k) (D.view s i)) (x : χ) :
    Safe D i inv post (k (D.perform o x s).1) (D.view (D.perform o x s).2 i) := by
  obtain ⟨-, rfl, hrest⟩ := h
  rw [D.perform_fst, D.view_perform_key]
  exact hrest x

/-- The step of a program about another cell keeps `p` safe. -/
theorem perform_of_ne {o : Op} {p : Prog Op Ret ε α} {s : σ} (hne : i ≠ D.key o)
    (h : Safe D i inv post p (D.view s i)) (x : χ) :
    Safe D i inv post p (D.view (D.perform o x s).2 i) := by
  rw [D.view_perform_of_ne o x s i hne]
  exact h

end Safe

/-- `p` works on the cell `i`, asks only for operations that `allowed` admits on the cell as it
then is, and ends in `post`. -/
def Heeds (D : Cells Op Ret χ σ ι κ) (i : ι) (allowed : κ → Op → Prop)
    (post : Except ε α → κ → Prop) : Prog Op Ret ε α → κ → Prop
  | .done a, c => post (.ok a) c
  | .fail e, c => post (.error e) c
  | .ask o k, c => allowed c o ∧ D.key o = i ∧
      ∀ x, Heeds D i allowed post (k (D.act o x c).1) (D.act o x c).2

/-- A safe program whose cells admit every operation. -/
theorem Safe.heeds {D : Cells Op Ret χ σ ι κ} {i : ι} {inv : κ → Prop}
    {post : Except ε α → κ → Prop} {allowed : κ → Op → Prop}
    (hallowed : ∀ c, inv c → ∀ o, allowed c o) {p : Prog Op Ret ε α} :
    ∀ {c : κ}, Safe D i inv post p c → Heeds D i allowed post p c := by
  induction p with
  | done a => exact fun h => h
  | fail e => exact fun h => h
  | ask o k ih =>
    rintro c ⟨hinv, hkey, hrest⟩
    exact ⟨hallowed c hinv o, hkey, fun x => ih _ (hrest x)⟩

namespace Heeds

variable {D : Cells Op Ret χ σ ι κ} {i : ι} {allowed : κ → Op → Prop}
  {post : Except ε α → κ → Prop}

/-- A condition on the cell alone. -/
theorem safe {inv : κ → Prop} {p : Prog Op Ret ε α} :
    ∀ {c : κ}, Heeds D i (fun c _ => inv c) post p c → Safe D i inv post p c := by
  induction p with
  | done a => exact fun h => h
  | fail e => exact fun h => h
  | ask o k ih =>
    rintro c ⟨hinv, hkey, hrest⟩
    exact ⟨hinv, hkey, fun x => ih _ (hrest x)⟩

theorem perform {o : Op} {c : κ} {post : Except ε (Ret o) → κ → Prop} (hallowed : allowed c o)
    (hkey : D.key o = i) (h : ∀ x, post (.ok (D.act o x c).1) (D.act o x c).2) :
    Heeds D i allowed post (Prog.perform o) c :=
  ⟨hallowed, hkey, h⟩

theorem bind {post : Except ε β → κ → Prop} {p : Prog Op Ret ε α} {f : α → Prog Op Ret ε β}
    {c : κ} (h : Heeds D i allowed (fun r c' => match r with
      | .ok a => Heeds D i allowed post (f a) c'
      | .error e => post (.error e) c') p c) :
    Heeds D i allowed post (p >>= f) c := by
  induction p generalizing c with
  | done a => exact h
  | fail e => exact h
  | ask o k ih =>
    obtain ⟨hallowed, hkey, hrest⟩ := h
    exact ⟨hallowed, hkey, fun x => ih _ (hrest x)⟩

/-- The step of a program keeps its condition. -/
theorem perform_self {o : Op} {k : Ret o → Prog Op Ret ε α} {s : σ}
    (h : Heeds D i allowed post (.ask o k) (D.view s i)) (x : χ) :
    Heeds D i allowed post (k (D.perform o x s).1) (D.view (D.perform o x s).2 i) := by
  obtain ⟨-, rfl, hrest⟩ := h
  rw [D.perform_fst, D.view_perform_key]
  exact hrest x

/-- The step of a program about another cell keeps the condition of `p`. -/
theorem perform_of_ne {o : Op} {p : Prog Op Ret ε α} {s : σ} (hne : i ≠ D.key o)
    (h : Heeds D i allowed post p (D.view s i)) (x : χ) :
    Heeds D i allowed post p (D.view (D.perform o x s).2 i) := by
  rw [D.view_perform_of_ne o x s i hne]
  exact h

end Heeds

end

end Coroutine
