import Mathlib.Tactic.TypeStar

/-!
# `EdgeSentinel.Library.Unwinding`: what an observer learns from a run

A machine takes the inputs of a list one after the other. `outputs` is what an observer sees of
the run. `Silent view` says that an input shows nothing and leaves the view of the state as it
is, and `Consistent view` that it shows the same and does the same on states of one view.

The inputs that are silent can be dropped from a run when the others are consistent
(`outputs_filter`): what the observer sees does not depend on them.
-/

set_option autoImplicit false

namespace Unwinding

variable {σ ι β ν : Type*} (step : σ → ι → σ) (out : σ → ι → List β) (view : σ → ν)

/-- What is seen of a run. -/
def outputs (s : σ) : List ι → List β
  | [] => []
  | i :: is => out s i ++ outputs (step s i) is

/-- The input shows nothing, in any state, and does not change the view. -/
def Silent (i : ι) : Prop := ∀ s, view (step s i) = view s ∧ out s i = []

/-- On states of one view the input shows the same, and leads to states of one view. -/
def Consistent (i : ι) : Prop :=
  ∀ s t, view s = view t → view (step s i) = view (step t i) ∧ out s i = out t i

variable {step out view}

/-- A silent input is consistent. -/
theorem Silent.consistent {i : ι} (h : Silent step out view i) : Consistent step out view i := by
  intro s t hview
  rw [(h s).1, (h t).1, (h s).2, (h t).2]
  exact ⟨hview, rfl⟩

@[simp] theorem outputs_nil (s : σ) : outputs step out s [] = [] := rfl

@[simp] theorem outputs_cons (s : σ) (i : ι) (is : List ι) :
    outputs step out s (i :: is) = out s i ++ outputs step out (step s i) is := rfl

theorem outputs_append (s : σ) (is js : List ι) :
    outputs step out s (is ++ js)
      = outputs step out s is ++ outputs step out (is.foldl step s) js := by
  induction is generalizing s with
  | nil => rfl
  | cons i is ih => rw [List.cons_append, outputs_cons, outputs_cons, ih, List.append_assoc]; rfl

/-- Silent inputs can be dropped, from states of one view on. The induction is on the inputs. -/
theorem outputs_filter (view : σ → ν) {keep : ι → Bool}
    (hdrop : ∀ i, keep i = false → Silent step out view i)
    (hkeep : ∀ i, keep i = true → Consistent step out view i) (is : List ι) :
    ∀ s t, view s = view t → outputs step out s is = outputs step out t (is.filter keep) := by
  induction is with
  | nil => exact fun s t _ => rfl
  | cons i is ih =>
    intro s t hview
    cases hi : keep i with
    | true =>
      obtain ⟨hnext, hout⟩ := hkeep i hi s t hview
      rw [List.filter_cons_of_pos hi, outputs_cons, outputs_cons, hout, ih _ _ hnext]
    | false =>
      obtain ⟨hnext, hout⟩ := hdrop i hi s
      rw [List.filter_cons_of_neg (by simp [hi]), outputs_cons, hout, List.nil_append]
      exact ih _ _ (hnext.trans hview)

end Unwinding
