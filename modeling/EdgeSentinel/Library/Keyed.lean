import Mathlib.Data.List.Nodup

/-!
# `EdgeSentinel.Library.Keyed`: lists of records with distinct keys

A system keeps its tasks, calls or jobs in a list, and finds one by its key. `replace` puts a
record in the place of the one with the same key, and `upsert` adds it when there is no such one.
The lemmas say that a record is found by its key (`find?_of_mem`), what is in the list after a
replacement (`mem_replace`), what is found after an upsert (`find?_upsert_self`,
`find?_upsert_of_ne`), and that the keys stay distinct (`nodup_append`, `map_key_map`,
`map_key_replace`). `filter_eq_of_sublist` compares a list with a part of it.
-/

set_option autoImplicit false

namespace Keyed

variable {α κ : Type*} [DecidableEq κ] (key : α → κ)

/-- Put `y` in the place of the record with the key `k`. -/
def replace (k : κ) (y : α) (xs : List α) : List α :=
  xs.map fun x => if key x = k then y else x

/-- Put `y` in the place of the record with its key, or at the end when there is none. -/
def upsert (y : α) (xs : List α) : List α :=
  if key y ∈ xs.map key then replace key (key y) y xs else xs ++ [y]

variable {key}

/-- A record is found by its key. -/
theorem find?_of_mem {xs : List α} (hkeys : (xs.map key).Nodup) {x : α} (hx : x ∈ xs) :
    xs.find? (fun y => key y = key x) = some x := by
  induction xs with
  | nil => cases hx
  | cons z xs ih =>
    rw [List.map_cons, List.nodup_cons] at hkeys
    rcases List.mem_cons.mp hx with rfl | hx
    · simp
    · have hne : key z ≠ key x := fun heq => hkeys.1 (heq ▸ List.mem_map_of_mem hx)
      rw [List.find?_cons_of_neg (by simpa using hne)]
      exact ih hkeys.2 hx

/-- An entry of a dictionary is found by its key. -/
theorem lookup_of_mem {β : Type*} {xs : List (κ × β)} (hkeys : (xs.map Prod.fst).Nodup) {k : κ}
    {y : β} (h : (k, y) ∈ xs) : xs.lookup k = some y := by
  induction xs with
  | nil => cases h
  | cons z xs ih =>
    obtain ⟨k', y'⟩ := z
    rw [List.map_cons, List.nodup_cons] at hkeys
    rcases List.mem_cons.mp h with heq | hmem
    · cases heq
      exact List.lookup_cons_self
    · have hne : k ≠ k' := fun heq => hkeys.1 (List.mem_map.mpr ⟨_, hmem, heq⟩)
      rw [List.lookup_cons, beq_eq_false_iff_ne.mpr hne]
      exact ih hkeys.2 hmem

/-- Two records with one key are the same record. -/
theorem eq_of_key_eq {xs : List α} (hkeys : (xs.map key).Nodup) {x y : α} (hx : x ∈ xs)
    (hy : y ∈ xs) (h : key x = key y) : x = y := by
  have hfind := find?_of_mem hkeys hx
  rw [h] at hfind
  exact Option.some.inj (hfind.symm.trans (find?_of_mem hkeys hy))

/-- One record has the key of `x`. -/
theorem filter_key_eq {xs : List α} (hkeys : (xs.map key).Nodup) {x : α} (hx : x ∈ xs) :
    xs.filter (fun y => key y = key x) = [x] := by
  induction xs with
  | nil => cases hx
  | cons z xs ih =>
    rw [List.map_cons, List.nodup_cons] at hkeys
    rcases List.mem_cons.mp hx with rfl | hx
    · rw [List.filter_cons_of_pos (by simp), List.filter_eq_nil_iff.mpr]
      intro y hy heq
      exact hkeys.1 (of_decide_eq_true heq ▸ List.mem_map_of_mem hy)
    · have hne : key z ≠ key x := fun heq => hkeys.1 (heq ▸ List.mem_map_of_mem hx)
      rw [List.filter_cons_of_neg (by simpa using hne)]
      exact ih hkeys.2 hx

omit [DecidableEq κ] in
/-- A record with a new key may be added. -/
theorem nodup_append {xs : List α} (hkeys : (xs.map key).Nodup) {x : α}
    (hx : key x ∉ xs.map key) : ((xs ++ [x]).map key).Nodup := by
  rw [List.map_append, List.nodup_append]
  refine ⟨hkeys, by simp, ?_⟩
  intro k hk k' hk' heq
  rw [List.map_singleton, List.mem_singleton] at hk'
  exact hx (hk' ▸ heq ▸ hk)

omit [DecidableEq κ] in
/-- A change of the records that leaves their keys keeps the keys. -/
theorem map_key_map {f : α → α} (hf : ∀ x, key (f x) = key x) (xs : List α) :
    (xs.map f).map key = xs.map key := by
  rw [List.map_map]
  exact List.map_congr_left fun x _ => hf x

/-- A replacement keeps the keys. -/
theorem map_key_replace {k : κ} {y : α} (hy : key y = k) (xs : List α) :
    (replace key k y xs).map key = xs.map key := by
  apply map_key_map
  intro x
  split
  · rename_i hx
    rw [hy, hx]
  · rfl

/-- After a replacement the list has the new record and the records with other keys. -/
theorem mem_replace {k : κ} {y z : α} {xs : List α} (h : z ∈ replace key k y xs) :
    z = y ∨ (z ∈ xs ∧ key z ≠ k) := by
  obtain ⟨x, hx, rfl⟩ := List.mem_map.mp h
  show (if key x = k then y else x) = y ∨ _
  split
  · exact Or.inl rfl
  · rename_i hne
    exact Or.inr ⟨hx, hne⟩

/-- The new record is in the list when its place was there. -/
theorem mem_replace_self {k : κ} {y : α} {xs : List α} (h : k ∈ xs.map key) :
    y ∈ replace key k y xs := by
  obtain ⟨x, hx, hk⟩ := List.mem_map.mp h
  exact List.mem_map.mpr ⟨x, hx, if_pos hk⟩

/-- A record with another key stays in the list. -/
theorem mem_replace_of_ne {k : κ} {y z : α} {xs : List α} (hz : z ∈ xs) (hne : key z ≠ k) :
    z ∈ replace key k y xs :=
  List.mem_map.mpr ⟨z, hz, if_neg hne⟩

/-- The replacement of the last record, whose key no other record has. -/
theorem replace_append_singleton {x y : α} {xs : List α} (h : key x ∉ xs.map key) :
    replace key (key x) y (xs ++ [x]) = xs ++ [y] := by
  have hkept : replace key (key x) y xs = xs := by
    refine (List.map_congr_left fun z hz => ?_).trans (List.map_id xs)
    have hne : key z ≠ key x := fun heq => h (heq ▸ List.mem_map_of_mem hz)
    exact if_neg hne
  show List.map _ (xs ++ [x]) = _
  rw [List.map_append]
  refine congr (congrArg _ hkept) ?_
  show [if key x = key x then y else x] = [y]
  rw [if_pos rfl]

/-- The replacement of a record in the middle. -/
theorem replace_middle {x y : α} {xs ys : List α} (h : ((xs ++ x :: ys).map key).Nodup) :
    replace key (key x) y (xs ++ x :: ys) = xs ++ y :: ys := by
  rw [List.map_append, List.map_cons, List.nodup_append] at h
  obtain ⟨-, hys, hdisjoint⟩ := h
  have hkept : ∀ zs : List α, (∀ z ∈ zs, key z ≠ key x) → replace key (key x) y zs = zs := by
    intro zs hne
    exact (List.map_congr_left fun z hz => if_neg (hne z hz)).trans (List.map_id zs)
  have hbefore : ∀ z ∈ xs, key z ≠ key x :=
    fun z hz => hdisjoint (key z) (List.mem_map_of_mem hz) (key x) List.mem_cons_self
  have hafter : ∀ z ∈ ys, key z ≠ key x := by
    intro z hz heq
    exact (List.nodup_cons.mp hys).1 (heq ▸ List.mem_map_of_mem hz)
  unfold replace at hkept ⊢
  rw [List.map_append, List.map_cons, hkept xs hbefore, hkept ys hafter, if_pos rfl]

/-- An upserted record is found. -/
theorem find?_upsert_self {k : κ} {y : α} (hy : key y = k) (xs : List α) :
    (upsert key y xs).find? (fun x => key x = k) = some y := by
  subst hy
  unfold upsert
  split
  · rename_i hmem
    cases hfind : (replace key (key y) y xs).find? (fun x => key x = key y) with
    | none =>
      have hnone := List.find?_eq_none.mp hfind y (mem_replace_self hmem)
      simp at hnone
    | some z =>
      -- The records with other keys are not found.
      rcases mem_replace (List.mem_of_find?_eq_some hfind) with rfl | ⟨-, hne⟩
      · rfl
      · have hkey := List.find?_some hfind
        exact absurd (by simpa using hkey) hne
  · rename_i hnew
    have hnone : xs.find? (fun x => key x = key y) = none := by
      rw [List.find?_eq_none]
      intro x hx heq
      exact hnew (List.mem_map.mpr ⟨x, hx, of_decide_eq_true heq⟩)
    rw [List.find?_append, hnone]
    simp

/-- An upsert does not change what is found by another key. -/
theorem find?_upsert_of_ne {k : κ} {y : α} (hne : key y ≠ k) (xs : List α) :
    (upsert key y xs).find? (fun x => key x = k) = xs.find? (fun x => key x = k) := by
  unfold upsert
  split
  · -- The replacement keeps the keys, and what is found by `k` is not replaced.
    have hkeys : ∀ x, key (if key x = key y then y else x) = key x := by
      intro x
      split
      · rename_i heq
        exact heq.symm
      · rfl
    have hsame : ∀ x ∈ xs.find? (fun x => key x = k), (if key x = key y then y else x) = x := by
      intro x hx
      have hk : key x = k := by simpa using List.find?_some hx
      exact if_neg fun heq => hne (heq.symm.trans hk)
    rw [replace, List.find?_map]
    simp only [Function.comp_def, hkeys]
    cases hfind : xs.find? (fun x => key x = k) with
    | none => rfl
    | some x => exact congrArg some (hsame x hfind)
  · rw [List.find?_append, List.find?_cons_of_neg (by simpa using hne)]
    simp

/-- Filtering does not tell a list from a part of it that has every element to be kept. -/
theorem filter_eq_of_sublist {p : α → Bool} {xs ys : List α} (h : xs.Sublist ys)
    (hnodup : ys.Nodup) (hkept : ∀ y ∈ ys, p y = true → y ∈ xs) : xs.filter p = ys.filter p := by
  induction h with
  | slnil => rfl
  | @cons xs ys y hsub ih =>
    obtain ⟨hy, hnodup⟩ := List.nodup_cons.mp hnodup
    have hdropped : p y = false := by
      by_contra hyes
      exact hy (hsub.subset (hkept y (List.mem_cons_self) (by simpa using hyes)))
    rw [List.filter_cons_of_neg (by simp [hdropped])]
    exact ih hnodup fun z hz hp => hkept z (List.mem_cons_of_mem _ hz) hp
  | @cons_cons xs ys y hsub ih =>
    obtain ⟨hy, hnodup⟩ := List.nodup_cons.mp hnodup
    have hrest := ih hnodup fun z hz hp =>
      (List.mem_cons.mp (hkept z (List.mem_cons_of_mem _ hz) hp)).resolve_left
        fun heq => hy (heq ▸ hz)
    simp only [List.filter_cons, hrest]

end Keyed
