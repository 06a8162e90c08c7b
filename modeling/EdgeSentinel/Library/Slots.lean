import Mathlib.Data.List.Basic

/-!
# `EdgeSentinel.Library.Slots`: iterating over a dictionary that changes

A Python dictionary keeps its records in slots, in the order of insertion. A deletion leaves an
empty slot, an insertion adds a slot at the end, and it may drop the empty slots first. An
assignment to a key that is there stays in its slot. An iterator remembers the size of the
dictionary it was made for, the next slot, and how many records it has yielded. It fails as
soon as the size is another one, and also when it meets a record after it has yielded as many
as there were.

`Cursor.rest` is what the iterator has not come to. A cursor that `Tracks` its dictionary does
not fail, and it comes to each record of `rest` in turn. Changes in place (`adjust`) keep it on
track.
-/

set_option autoImplicit false

namespace Slots

variable {α κ : Type*}

/-- The records, in order. -/
def live (slots : List (Option α)) : List α := slots.filterMap id

/-- Add a record with a new key. `compacts` says whether the empty slots are dropped. -/
def insert (compacts : Bool) (x : α) (slots : List (Option α)) : List (Option α) :=
  (if compacts then slots.filter Option.isSome else slots) ++ [some x]

/-- Delete the record with the key `k`. -/
def erase [DecidableEq κ] (key : α → κ) (k : κ) (slots : List (Option α)) : List (Option α) :=
  slots.map (Option.filter (key · ≠ k))

/-- Change the records in place. -/
def adjust (f : α → α) (slots : List (Option α)) : List (Option α) := slots.map (Option.map f)

/-- An iterator. -/
structure Cursor where
  /-- The size of the dictionary when the iterator was made. -/
  size : Nat
  /-- The next slot. -/
  pos : Nat := 0
  /-- The number of records yielded. -/
  visited : Nat := 0
  deriving DecidableEq, Repr

/-- What an iterator finds at its next slot. -/
inductive Found (α : Type*) where
  /-- The dictionary has changed: the iterator fails. -/
  | changed
  | exhausted
  | gap
  | record (x : α)

namespace Cursor

/-- An iterator over the dictionary. -/
def new (slots : List (Option α)) : Cursor := { size := (live slots).length }

/-- What the iterator finds. -/
def find (c : Cursor) (slots : List (Option α)) : Found α :=
  if c.size ≠ (live slots).length then .changed
  else
    match slots[c.pos]? with
    | none => .exhausted
    | some none => .gap
    | some (some x) => if c.size ≤ c.visited then .changed else .record x

/-- The iterator is past an empty slot. -/
def skip (c : Cursor) : Cursor := { c with pos := c.pos + 1 }

/-- The iterator is past a record. -/
def yielded (c : Cursor) : Cursor := { c with pos := c.pos + 1, visited := c.visited + 1 }

/-- The records the iterator has not come to. -/
def rest (c : Cursor) (slots : List (Option α)) : List α := live (slots.drop c.pos)

/-- The iterator is on track: the records it has yielded and the others are all records. -/
structure Tracks (c : Cursor) (slots : List (Option α)) : Prop where
  size : c.size = (live slots).length
  visited : c.visited + (c.rest slots).length = c.size

end Cursor

/-- The deletion of a key that is not there changes nothing. -/
theorem erase_of_not_mem [DecidableEq κ] {key : α → κ} {k : κ} {slots : List (Option α)}
    (h : k ∉ (live slots).map key) : erase key k slots = slots := by
  induction slots with
  | nil => rfl
  | cons slot slots ih =>
    cases slot with
    | none => exact congrArg (none :: ·) (ih h)
    | some x =>
      have hnot : k ≠ key x ∧ k ∉ (live slots).map key := by
        rw [← not_or, ← List.mem_cons]
        exact h
      have hkept : (some x).filter (key · ≠ k) = some x := by
        rw [Option.filter_some, if_pos (by simpa using hnot.1.symm)]
      show (some x).filter _ :: erase key k slots = _
      rw [hkept, ih hnot.2]

theorem live_adjust (f : α → α) (slots : List (Option α)) :
    live (adjust f slots) = (live slots).map f := by
  induction slots with
  | nil => rfl
  | cons slot slots ih =>
    cases slot with
    | none => exact ih
    | some x => exact congrArg (f x :: ·) ih

theorem mem_live {x : α} {slots : List (Option α)} : x ∈ live slots ↔ some x ∈ slots := by
  simp [live]

/-- A record that is added stands at the end. -/
theorem live_insert (compacts : Bool) (x : α) (slots : List (Option α)) :
    live (insert compacts x slots) = live slots ++ [x] := by
  have hkept : live (slots.filter Option.isSome) = live slots := by
    rw [live, live, List.filterMap_filter]
    refine List.filterMap_congr fun slot _ => ?_
    cases slot <;> rfl
  cases compacts with
  | true =>
    show live (slots.filter Option.isSome ++ [some x]) = _
    rw [live, List.filterMap_append, ← live, hkept]
    rfl
  | false => exact List.filterMap_append

theorem live_erase [DecidableEq κ] (key : α → κ) (k : κ) (slots : List (Option α)) :
    live (erase key k slots) = (live slots).filter (key · ≠ k) := by
  rw [live, erase, List.filterMap_map, live, List.filter_filterMap]
  exact List.filterMap_congr fun slot _ => rfl

theorem adjust_id (slots : List (Option α)) : adjust id slots = slots := by
  rw [adjust, Option.map_id, List.map_id]

theorem adjust_adjust (f g : α → α) (slots : List (Option α)) :
    adjust g (adjust f slots) = adjust (fun x => g (f x)) slots := by
  rw [adjust, adjust, adjust, List.map_map]
  refine List.map_congr_left fun slot _ => ?_
  cases slot <;> rfl

/-- A change in place is determined by what it does to the records. -/
theorem adjust_congr {f g : α → α} {slots : List (Option α)} (h : ∀ x ∈ live slots, f x = g x) :
    adjust f slots = adjust g slots := by
  refine List.map_congr_left fun slot hslot => ?_
  cases slot with
  | none => rfl
  | some x => exact congrArg some (h x (mem_live.mpr hslot))

theorem getElem?_adjust (f : α → α) (slots : List (Option α)) (i : Nat) :
    (adjust f slots)[i]? = slots[i]?.map (Option.map f) := List.getElem?_map

namespace Cursor

variable {c : Cursor} {slots : List (Option α)}

theorem tracks_new (slots : List (Option α)) : Tracks (new slots) slots where
  size := rfl
  visited := Nat.zero_add _

@[simp] theorem rest_adjust (c : Cursor) (f : α → α) (slots : List (Option α)) :
    c.rest (adjust f slots) = (c.rest slots).map f := by
  show live ((slots.map _).drop c.pos) = _
  rw [← List.map_drop]
  exact live_adjust f _

/-- A change in place keeps an iterator on track. -/
theorem Tracks.adjust (h : Tracks c slots) (f : α → α) : Tracks c (adjust f slots) where
  size := by rw [live_adjust, List.length_map, h.size]
  visited := by rw [rest_adjust, List.length_map, h.visited]

/-- The slots from the next one on. -/
theorem drop_of_getElem? {slot : Option α} (h : slots[c.pos]? = some slot) :
    slots.drop c.pos = slot :: slots.drop (c.pos + 1) := by
  obtain ⟨hlt, rfl⟩ := List.getElem?_eq_some_iff.mp h
  exact List.drop_eq_getElem_cons hlt

/-- The iterator is exhausted when it has come to everything. -/
theorem rest_of_exhausted (h : slots[c.pos]? = none) : c.rest slots = [] := by
  rw [rest, List.drop_eq_nil_of_le (List.getElem?_eq_none_iff.mp h)]
  rfl

/-- An empty slot is no record. -/
theorem rest_of_gap (h : slots[c.pos]? = some none) : c.skip.rest slots = c.rest slots := by
  show live (slots.drop (c.pos + 1)) = live (slots.drop c.pos)
  rw [drop_of_getElem? h]
  rfl

/-- The record that the iterator finds is the first of the rest. -/
theorem rest_of_record {x : α} (h : slots[c.pos]? = some (some x)) :
    c.rest slots = x :: c.yielded.rest slots := by
  show live (slots.drop c.pos) = x :: live (slots.drop (c.pos + 1))
  rw [drop_of_getElem? h]
  rfl

theorem Tracks.skip (h : Tracks c slots) (hgap : slots[c.pos]? = some none) :
    Tracks c.skip slots where
  size := h.size
  visited := by
    rw [rest_of_gap hgap]
    exact h.visited

theorem Tracks.yielded (h : Tracks c slots) {x : α} (hx : slots[c.pos]? = some (some x)) :
    Tracks c.yielded slots where
  size := h.size
  visited := by
    have hvisited := h.visited
    rw [rest_of_record hx, List.length_cons] at hvisited
    show c.visited + 1 + _ = c.size
    omega

/-- What an iterator on track finds. It does not fail. -/
theorem Tracks.find_cases (h : Tracks c slots) :
    (c.find slots = .exhausted ∧ slots[c.pos]? = none) ∨
      (c.find slots = .gap ∧ slots[c.pos]? = some none) ∨
      ∃ x, c.find slots = .record x ∧ slots[c.pos]? = some (some x) := by
  unfold find
  rw [if_neg (not_not.mpr h.size)]
  split
  · rename_i hnone
    exact Or.inl ⟨rfl, hnone⟩
  · rename_i hgap
    exact Or.inr (Or.inl ⟨rfl, hgap⟩)
  · rename_i x hx
    have hvisited := h.visited
    rw [rest_of_record hx, List.length_cons] at hvisited
    rw [if_neg (by omega)]
    exact Or.inr (Or.inr ⟨x, rfl, hx⟩)

end Cursor

end Slots
