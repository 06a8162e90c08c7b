import Mathlib.Algebra.Order.Group.Unbundled.Basic
import Mathlib.Algebra.Order.Monoid.Defs
import Mathlib.Data.List.Basic

/-!
# `EdgeSentinel.Library.Window`: a sliding window over times that do not decrease

A window keeps the times of the last `width`. `prune` throws away the old times at the front of
a list, and `push` adds a time and prunes. The code of such a window looks at the front only.
`prune_eq_filter` says that on times that do not decrease this finds every old time.

`recent` is the window after `n` of the times `t 1, t 2, ...`. `push_recent` says that `push`
keeps it, and `le_length_recent_iff` when it holds at least `m` times.
-/

set_option autoImplicit false

namespace Window

variable {α : Type*} [AddCommGroup α] [LinearOrder α] [IsOrderedAddMonoid α] {width : α}

/-- The times that are left when the old ones at the front are gone. -/
def prune (width now : α) (times : List α) : List α :=
  times.dropWhile fun time => width < now - time

/-- A new time. -/
def push (width : α) (times : List α) (now : α) : List α := prune width now (times ++ [now])

/-- Of times that do not decrease, `prune` leaves those of the last `width`. -/
theorem prune_eq_filter (now : α) {times : List α} (hsorted : times.Pairwise (· ≤ ·)) :
    prune width now times = times.filter fun time => now - time ≤ width := by
  unfold prune
  induction times with
  | nil => rfl
  | cons first times ih =>
    obtain ⟨hfirst, hsorted⟩ := List.pairwise_cons.mp hsorted
    by_cases hold : width < now - first
    · simp only [List.dropWhile_cons, List.filter_cons, hold, not_le.mpr hold, decide_true,
        decide_false, if_true, Bool.false_eq_true, if_false]
      exact ih hsorted
    · -- The later times are not old either.
      have hall : ∀ time ∈ first :: times, now - time ≤ width := by
        intro time htime
        have hle : first ≤ time := by
          rcases List.mem_cons.mp htime with rfl | htime
          · exact le_refl _
          · exact hfirst time htime
        exact (sub_le_sub_left hle now).trans (not_lt.mp hold)
      rw [List.filter_eq_self.mpr fun time htime => decide_eq_true (hall time htime)]
      simp only [List.dropWhile_cons, hold, decide_false, Bool.false_eq_true, if_false]

/-- The first `n` times. -/
def upTo (t : ℕ → α) (n : ℕ) : List α := (List.range' 1 n).map t

/-- The times of the last `width`, at the `n`-th time. -/
def recent (width : α) (t : ℕ → α) (n : ℕ) : List α :=
  (upTo t n).filter fun time => t n - time ≤ width

section
variable {t : ℕ → α} (ht : ∀ i j, 1 ≤ i → i ≤ j → t i ≤ t j)
include ht

omit [AddCommGroup α] [IsOrderedAddMonoid α] in
theorem pairwise_upTo (n : ℕ) : (upTo t n).Pairwise (· ≤ ·) := by
  refine List.pairwise_map.mpr ((List.pairwise_lt_range' (s := 1)).imp_of_mem ?_)
  intro i j hi _ hlt
  exact ht i j (List.mem_range'_1.mp hi).1 hlt.le

/-- `push` goes from one window to the next. -/
theorem push_recent (n : ℕ) :
    push width (recent width t n) (t (n + 1)) = recent width t (n + 1) := by
  have hlast : upTo t (n + 1) = upTo t n ++ [t (n + 1)] := by
    rw [upTo, List.range'_1_concat, List.map_append, upTo, Nat.add_comm 1 n]
    rfl
  have hsorted : (recent width t n ++ [t (n + 1)]).Pairwise (· ≤ ·) := by
    refine (pairwise_upTo ht (n + 1)).sublist ?_
    rw [hlast]
    exact List.filter_sublist.append_right _
  rw [push, prune_eq_filter _ hsorted, recent, recent, hlast, List.filter_append, List.filter_append,
    List.filter_filter]
  -- A time that the next window keeps was in the window before.
  refine congrArg (· ++ _) (List.filter_congr fun time htime => ?_)
  obtain ⟨i, hi, rfl⟩ := List.mem_map.mp htime
  have hi := List.mem_range'_1.mp hi
  have hstep : t n - t i ≤ t (n + 1) - t i :=
    sub_le_sub_right (ht n (n + 1) (by omega) (by omega)) _
  by_cases hkept : t (n + 1) - t i ≤ width
  · simp [hkept, hstep.trans hkept]
  · simp [hkept]

omit [AddCommGroup α] [LinearOrder α] [IsOrderedAddMonoid α] ht in
/-- A condition that holds from some time on holds of at least `m` of `n` times exactly when it
holds of the `m`-th from the end. -/
theorem le_length_filter_iff {p : α → Bool} {m : ℕ} (hm : 1 ≤ m) (n : ℕ) :
    ∀ first, (∀ i j, first ≤ i → i ≤ j → p (t i) = true → p (t j) = true) →
      (m ≤ (((List.range' first n).map t).filter p).length ↔
        m ≤ n ∧ p (t (first + n - m)) = true) := by
  induction n with
  | zero =>
    intro first _
    simp only [List.range'_zero, List.map_nil, List.filter_nil, List.length_nil]
    omega
  | succ n ih =>
    intro first hp
    rw [List.range'_succ, List.map_cons]
    by_cases hfirst : p (t first) = true
    · -- The condition holds of all the times.
      have hall : ∀ time ∈ t first :: (List.range' (first + 1) n).map t, p time = true := by
        intro time htime
        rcases List.mem_cons.mp htime with rfl | htime
        · exact hfirst
        · obtain ⟨i, hi, rfl⟩ := List.mem_map.mp htime
          have := List.mem_range'_1.mp hi
          exact hp first i (le_refl _) (by omega) hfirst
      rw [List.filter_eq_self.mpr hall, List.length_cons, List.length_map, List.length_range']
      refine ⟨fun hle => ⟨hle, hp first _ (le_refl _) (by omega) hfirst⟩, fun h => h.1⟩
    · rw [List.filter_cons_of_neg hfirst, ih (first + 1) fun i j hi => hp i j (by omega)]
      have hshift : first + 1 + n - m = first + (n + 1) - m := by omega
      rw [hshift]
      constructor
      · exact fun h => ⟨by omega, h.2⟩
      · intro h
        refine ⟨Nat.le_of_lt_succ (lt_of_le_of_ne h.1 fun heq => hfirst ?_), h.2⟩
        have hzero : first + (n + 1) - m = first := by omega
        rw [← hzero]
        exact h.2

/-- When the window holds at least `m` times. -/
theorem le_length_recent_iff {m : ℕ} (hm : 1 ≤ m) (n : ℕ) :
    m ≤ (recent width t n).length ↔ m ≤ n ∧ t n - t (n - m + 1) ≤ width := by
  have hkeep : ∀ i j, 1 ≤ i → i ≤ j → decide (t n - t i ≤ width) = true →
      decide (t n - t j ≤ width) = true := by
    intro i j hi hij h
    exact decide_eq_true ((sub_le_sub_left (ht i j hi hij) _).trans (of_decide_eq_true h))
  rw [recent, upTo, le_length_filter_iff hm n 1 hkeep, decide_eq_true_eq]
  refine and_congr_right fun hle => ?_
  have hindex : 1 + n - m = n - m + 1 := by omega
  rw [hindex]

end

end Window
