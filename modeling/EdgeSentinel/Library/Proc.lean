import Mathlib.Tactic.TypeStar

/-!
# `EdgeSentinel.Library.Proc`: procedures that return, raise or are cancelled

A procedure over a state `σ` ends in one of three ways: it returns a value, it raises an
exception, or it is cancelled. Cancellation is not an exception. `tryExcept` is
`try: … except Exception: …` and lets a cancellation through, and `tryFinally` runs its
second part on every exit. These are the rules of a coroutine whose `CancelledError` is a
`BaseException` but not an `Exception`.

`Proc` is a monad, so a procedure is written in `do` notation. The lemmas `run_*` execute
each form on a state.

`Sim R p q` says that `p` and `q` end alike on states that `R` relates, and leave related
states. `sim_bind`, `sim_tryExcept`, `sim_tryFinally` and `sim_forEach` build it along the
text of the procedures.

`Moves R p` says that `p` leads from each state to one that `R` relates to it, however `p` ends.
It is built in the same way, for a relation that composes.
-/

set_option autoImplicit false

namespace Async

/-- How a procedure ends: with a value, with an exception, or by cancellation. -/
inductive Outcome (ε α : Type) where
  | returned (a : α)
  | raised (e : ε)
  | cancelled
  deriving DecidableEq, Repr

/-- A procedure over the state `σ` with exceptions in `ε` and a result in `α`. -/
structure Proc (ε σ α : Type) where
  run : σ → Outcome ε α × σ

namespace Proc

variable {ε σ τ α β ι : Type}

instance : Monad (Proc ε σ) where
  pure a := ⟨fun s => (.returned a, s)⟩
  bind p f := ⟨fun s =>
    match p.run s with
    | (.returned a, s') => (f a).run s'
    | (.raised e, s') => (.raised e, s')
    | (.cancelled, s') => (.cancelled, s')⟩

/-- End with the given outcome. The state does not change. -/
def exit (o : Outcome ε α) : Proc ε σ α := ⟨fun s => (o, s)⟩

/-- Raise an exception. -/
def raise (e : ε) : Proc ε σ α := exit (.raised e)

/-- Read the state. -/
def read : Proc ε σ σ := ⟨fun s => (.returned s, s)⟩

/-- Update the state. -/
def modify (f : σ → σ) : Proc ε σ Unit := ⟨fun s => (.returned (), f s)⟩

/-- `for x in xs: body(x)`. The loop ends at the first body that does not return. -/
def forEach : List ι → (ι → Proc ε σ Unit) → Proc ε σ Unit
  | [], _ => pure ()
  | x :: xs, body => do
    body x
    forEach xs body

/-- `try: body except Exception as e: handler(e)`. A cancellation is not caught. -/
def tryExcept (body : Proc ε σ α) (handler : ε → Proc ε σ α) : Proc ε σ α := ⟨fun s =>
  match body.run s with
  | (.returned a, s') => (.returned a, s')
  | (.raised e, s') => (handler e).run s'
  | (.cancelled, s') => (.cancelled, s')⟩

/-- Run `body` and go on, however it ends. -/
def suppress (body : Proc ε σ Unit) : Proc ε σ Unit := ⟨fun s => (.returned (), (body.run s).2)⟩

/-- `try: body finally: final`. `final` runs on every exit of `body`. When `final` does
not return, its own outcome replaces the outcome of `body`. -/
def tryFinally (body : Proc ε σ α) (final : Proc ε σ Unit) : Proc ε σ α := ⟨fun s =>
  match final.run (body.run s).2 with
  | (.returned _, s') => ((body.run s).1, s')
  | (.raised e, s') => (.raised e, s')
  | (.cancelled, s') => (.cancelled, s')⟩

@[simp] theorem run_pure (a : α) (s : σ) :
    (pure a : Proc ε σ α).run s = (.returned a, s) := rfl

@[simp] theorem run_exit (o : Outcome ε α) (s : σ) :
    (exit o : Proc ε σ α).run s = (o, s) := rfl

@[simp] theorem run_raise (e : ε) (s : σ) :
    (raise e : Proc ε σ α).run s = (.raised e, s) := rfl

@[simp] theorem run_read (s : σ) : (read : Proc ε σ σ).run s = (.returned s, s) := rfl

@[simp] theorem run_modify (f : σ → σ) (s : σ) :
    (modify f : Proc ε σ Unit).run s = (.returned (), f s) := rfl

@[simp] theorem run_suppress (p : Proc ε σ Unit) (s : σ) :
    (suppress p).run s = (.returned (), (p.run s).2) := rfl

theorem run_bind (p : Proc ε σ α) (f : α → Proc ε σ β) (s : σ) :
    (p >>= f).run s =
      match p.run s with
      | (.returned a, s') => (f a).run s'
      | (.raised e, s') => (.raised e, s')
      | (.cancelled, s') => (.cancelled, s') := rfl

section
variable {p : Proc ε σ α} {s s' : σ}

/-- When `p` returns, `p >>= f` goes on with `f`. -/
theorem run_bind_of_returned {a : α} (h : p.run s = (.returned a, s'))
    (f : α → Proc ε σ β) : (p >>= f).run s = (f a).run s' := by
  rw [run_bind, h]

/-- When `p` raises, `p >>= f` raises the same exception. -/
theorem run_bind_of_raised {e : ε} (h : p.run s = (.raised e, s'))
    (f : α → Proc ε σ β) : (p >>= f).run s = (.raised e, s') := by
  rw [run_bind, h]

/-- When `p` is cancelled, `p >>= f` is cancelled. -/
theorem run_bind_of_cancelled (h : p.run s = (.cancelled, s'))
    (f : α → Proc ε σ β) : (p >>= f).run s = (.cancelled, s') := by
  rw [run_bind, h]

/-- When `p` does not return, `p >>= f` ends as `p` does. -/
theorem run_bind_of_ne_returned {p : Proc ε σ Unit} {s s' : σ} {o : Outcome ε Unit}
    (h : p.run s = (o, s')) (ho : o ≠ .returned ()) (f : Unit → Proc ε σ Unit) :
    (p >>= f).run s = (o, s') := by
  cases o with
  | returned _ => exact absurd rfl ho
  | raised e => exact run_bind_of_raised h f
  | cancelled => exact run_bind_of_cancelled h f

/-- Clean-up before a re-raise: it leaves its state, and the whole does not return. -/
theorem run_bind_raise {p : Proc ε σ Unit} {s s' : σ} {o : Outcome ε Unit}
    (h : p.run s = (o, s')) (e : ε) :
    ∃ o', o' ≠ .returned () ∧ (p >>= fun _ => raise e : Proc ε σ Unit).run s = (o', s') := by
  cases o with
  | returned _ => exact ⟨.raised e, by simp, run_bind_of_returned h _⟩
  | raised e' => exact ⟨.raised e', by simp, run_bind_of_raised h _⟩
  | cancelled => exact ⟨.cancelled, by simp, run_bind_of_cancelled h _⟩

/-- `tryExcept` does nothing when its body returns. -/
theorem run_tryExcept_of_returned {a : α} (h : p.run s = (.returned a, s'))
    (f : ε → Proc ε σ α) : (tryExcept p f).run s = (.returned a, s') := by
  simp only [tryExcept, h]

/-- `tryExcept` goes on with the handler when its body raises. -/
theorem run_tryExcept_of_raised {e : ε} (h : p.run s = (.raised e, s'))
    (f : ε → Proc ε σ α) : (tryExcept p f).run s = (f e).run s' := by
  simp only [tryExcept, h]

/-- `tryExcept` lets a cancellation through. -/
theorem run_tryExcept_of_cancelled (h : p.run s = (.cancelled, s'))
    (f : ε → Proc ε σ α) : (tryExcept p f).run s = (.cancelled, s') := by
  simp only [tryExcept, h]

/-- `tryFinally` keeps the outcome of its body when the second part returns. -/
theorem run_tryFinally_of_returned {o : Outcome ε α} {s'' : σ} {final : Proc ε σ Unit}
    (h : p.run s = (o, s')) (hf : final.run s' = (.returned (), s'')) :
    (tryFinally p final).run s = (o, s'') := by
  simp only [tryFinally, h, hf]

end

/-- Sequencing is associative. -/
theorem bind_assoc {γ : Type} (p : Proc ε σ α) (f : α → Proc ε σ β) (g : β → Proc ε σ γ) :
    p >>= f >>= g = p >>= fun a => f a >>= g := by
  show Proc.mk _ = Proc.mk _
  congr 1
  funext s
  simp only [run_bind]
  rcases p.run s with ⟨o, s'⟩
  cases o <;> rfl

/-- A sequence that returns: both parts did. -/
theorem run_bind_eq_returned {p : Proc ε σ α} {f : α → Proc ε σ β} {b : β} {s s' : σ}
    (h : (p >>= f).run s = (.returned b, s')) :
    ∃ a s'', p.run s = (.returned a, s'') ∧ (f a).run s'' = (.returned b, s') := by
  rw [run_bind] at h
  rcases hp : p.run s with ⟨o, s''⟩
  rw [hp] at h
  cases o with
  | returned a => exact ⟨a, s'', rfl, h⟩
  | raised e => cases h
  | cancelled => cases h

/-- A `tryExcept` that returns: its body did, or the handler. -/
theorem run_tryExcept_eq_returned {p : Proc ε σ α} {f : ε → Proc ε σ α} {a : α} {s s' : σ}
    (h : (tryExcept p f).run s = (.returned a, s')) :
    p.run s = (.returned a, s') ∨
      ∃ e s'', p.run s = (.raised e, s'') ∧ (f e).run s'' = (.returned a, s') := by
  simp only [tryExcept] at h
  rcases hp : p.run s with ⟨o, s''⟩
  rw [hp] at h
  cases o with
  | returned a' => exact .inl h
  | raised e => exact .inr ⟨e, s'', rfl, h⟩
  | cancelled => cases h

@[simp] theorem run_forEach_nil (body : ι → Proc ε σ Unit) (s : σ) :
    (forEach [] body).run s = (.returned (), s) := rfl

theorem forEach_cons (x : ι) (xs : List ι) (body : ι → Proc ε σ Unit) :
    forEach (x :: xs) body = body x >>= fun _ => forEach xs body := rfl

/-! ### Procedures that end alike -/

/-- `p` and `q` end alike on related states and leave related states. -/
def Sim (R : σ → τ → Prop) (p : Proc ε σ α) (q : Proc ε τ α) : Prop :=
  ∀ s t, R s t → (p.run s).1 = (q.run t).1 ∧ R (p.run s).2 (q.run t).2

section
variable {R : σ → τ → Prop}

theorem sim_exit (o : Outcome ε α) : Sim R (exit o) (exit o) :=
  fun _ _ h => ⟨rfl, h⟩

theorem sim_pure (a : α) : Sim R (pure a : Proc ε σ α) (pure a) :=
  sim_exit (.returned a)

/-- Sequencing keeps `Sim`. -/
theorem sim_bind {p : Proc ε σ α} {q : Proc ε τ α} {f : α → Proc ε σ β}
    {g : α → Proc ε τ β} (hp : Sim R p q) (hf : ∀ a, Sim R (f a) (g a)) :
    Sim R (p >>= f) (q >>= g) := by
  intro s t h
  obtain ⟨hout, hrel⟩ := hp s t h
  rcases hps : p.run s with ⟨op, s'⟩
  rcases hqt : q.run t with ⟨oq, t'⟩
  rw [hps, hqt] at hout hrel
  dsimp only at hout hrel
  subst hout
  cases op with
  | returned a =>
    rw [run_bind_of_returned hps, run_bind_of_returned hqt]
    exact hf a s' t' hrel
  | raised e =>
    rw [run_bind_of_raised hps, run_bind_of_raised hqt]
    exact ⟨rfl, hrel⟩
  | cancelled =>
    rw [run_bind_of_cancelled hps, run_bind_of_cancelled hqt]
    exact ⟨rfl, hrel⟩

/-- `tryExcept` keeps `Sim`. -/
theorem sim_tryExcept {p : Proc ε σ α} {q : Proc ε τ α} {f : ε → Proc ε σ α}
    {g : ε → Proc ε τ α} (hp : Sim R p q) (hf : ∀ e, Sim R (f e) (g e)) :
    Sim R (tryExcept p f) (tryExcept q g) := by
  intro s t h
  obtain ⟨hout, hrel⟩ := hp s t h
  rcases hps : p.run s with ⟨op, s'⟩
  rcases hqt : q.run t with ⟨oq, t'⟩
  rw [hps, hqt] at hout hrel
  dsimp only at hout hrel
  subst hout
  cases op with
  | returned a =>
    rw [run_tryExcept_of_returned hps, run_tryExcept_of_returned hqt]
    exact ⟨rfl, hrel⟩
  | raised e =>
    rw [run_tryExcept_of_raised hps, run_tryExcept_of_raised hqt]
    exact hf e s' t' hrel
  | cancelled =>
    rw [run_tryExcept_of_cancelled hps, run_tryExcept_of_cancelled hqt]
    exact ⟨rfl, hrel⟩

/-- `tryFinally` keeps `Sim`. -/
theorem sim_tryFinally {p : Proc ε σ α} {q : Proc ε τ α} {f : Proc ε σ Unit}
    {g : Proc ε τ Unit} (hp : Sim R p q) (hf : Sim R f g) :
    Sim R (tryFinally p f) (tryFinally q g) := by
  intro s t h
  obtain ⟨hout, hrel⟩ := hp s t h
  obtain ⟨hout', hrel'⟩ := hf _ _ hrel
  simp only [tryFinally]
  rcases hfs : f.run (p.run s).2 with ⟨of, s'⟩
  rcases hgt : g.run (q.run t).2 with ⟨og, t'⟩
  rw [hfs, hgt] at hout' hrel'
  dsimp only at hout' hrel'
  subst hout'
  cases of with
  | returned _ => exact ⟨hout, hrel'⟩
  | raised e => exact ⟨rfl, hrel'⟩
  | cancelled => exact ⟨rfl, hrel'⟩

/-- A loop whose bodies end alike ends alike. -/
theorem sim_forEach (xs : List ι) {f : ι → Proc ε σ Unit} {g : ι → Proc ε τ Unit}
    (h : ∀ x ∈ xs, Sim R (f x) (g x)) : Sim R (forEach xs f) (forEach xs g) := by
  induction xs with
  | nil => exact sim_pure _
  | cons x xs ih =>
    rw [forEach_cons, forEach_cons]
    exact sim_bind (h x (by simp)) fun _ => ih fun y hy => h y (by simp [hy])

end

/-! ### Where a procedure can lead -/

/-- `p` leads from each state to a related one, however it ends. -/
def Moves (R : σ → σ → Prop) (p : Proc ε σ α) : Prop := ∀ s, R s (p.run s).2

section
variable {R : σ → σ → Prop} (refl : ∀ s, R s s) (trans : ∀ s t u, R s t → R t u → R s u)

theorem Moves.of_run {p : Proc ε σ α} {s s' : σ} {o : Outcome ε α} (h : Moves R p)
    (hrun : p.run s = (o, s')) : R s s' := by
  have := h s
  rwa [hrun] at this

include refl

theorem moves_exit (o : Outcome ε α) : Moves R (exit o) := refl

theorem moves_pure (a : α) : Moves R (pure a : Proc ε σ α) := refl

theorem moves_read : Moves R (read : Proc ε σ σ) := refl

omit refl
include trans

theorem moves_bind {p : Proc ε σ α} {f : α → Proc ε σ β} (hp : Moves R p)
    (hf : ∀ a, Moves R (f a)) : Moves R (p >>= f) := by
  intro s
  have hfirst := hp s
  rw [run_bind]
  rcases hps : p.run s with ⟨o, s'⟩
  rw [hps] at hfirst
  cases o with
  | returned a => exact trans _ _ _ hfirst (hf a s')
  | raised e => exact hfirst
  | cancelled => exact hfirst

theorem moves_tryExcept {p : Proc ε σ α} {f : ε → Proc ε σ α} (hp : Moves R p)
    (hf : ∀ e, Moves R (f e)) : Moves R (tryExcept p f) := by
  intro s
  have hbody := hp s
  simp only [tryExcept]
  rcases hps : p.run s with ⟨o, s'⟩
  rw [hps] at hbody
  cases o with
  | returned a => exact hbody
  | raised e => exact trans _ _ _ hbody (hf e s')
  | cancelled => exact hbody

theorem moves_tryFinally {p : Proc ε σ α} {f : Proc ε σ Unit} (hp : Moves R p)
    (hf : Moves R f) : Moves R (tryFinally p f) := by
  intro s
  have hboth := trans _ _ _ (hp s) (hf (p.run s).2)
  simp only [tryFinally]
  rcases hfs : f.run (p.run s).2 with ⟨o, s'⟩
  rw [hfs] at hboth
  cases o <;> exact hboth

include refl

theorem moves_forEach (xs : List ι) {f : ι → Proc ε σ Unit} (h : ∀ x ∈ xs, Moves R (f x)) :
    Moves R (forEach xs f) := by
  induction xs with
  | nil => exact moves_pure refl ()
  | cons x xs ih =>
    rw [forEach_cons]
    exact moves_bind trans (h x (by simp)) fun _ => ih fun y hy => h y (by simp [hy])

end

end Proc

end Async
