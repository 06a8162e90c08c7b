import EdgeSentinel.Diagnostics.Timestamps
import EdgeSentinel.Proofs.Diagnostics.SeverityScan

/-!
# `EdgeSentinel.Proofs.Diagnostics.TimeBounds`: the order of the texts and the order in time

The text of a timestamp is a list of fixed fields, so two texts are ordered by the readings of
the wall clocks, microseconds included: a text without microseconds goes on with the sign of the
offset, which comes before the point (`characters_lt_iff`). Equal readings are ordered by the
texts of the offsets, where `+` comes before `-` (`formatOffset_lt_iff`).

The order in time also reads the offsets. `InTextOrder` says when it is the order of the texts, and
`timeBounds_iff` is what follows for the bounds of a query and of a pruning. A query also hands its
limit to SQLite, and it reads a timestamp back from its text (`IsReadBack`).
-/

set_option autoImplicit false

namespace EdgeSentinel.Proofs.Diagnostics

open EdgeSentinel.Core
open EdgeSentinel.Diagnostics
open EdgeSentinel.Diagnostics.DateTime
open FixedWidth

/-! ### The calendar -/

/-- A quotient grows when the dividend reaches a multiple. -/
theorem succ_div_eq (y k : Nat) :
    (y + 1) / k = y / k + if (y + 1) % k = 0 then 1 else 0 := by
  rw [Nat.succ_div]
  simp only [Nat.dvd_iff_mod_eq_zero]

theorem daysBeforeYear_succ {year : Nat} (h : 1 ≤ year) :
    daysBeforeYear (year + 1) = daysBeforeYear year + (if isLeap year then 366 else 365) := by
  obtain ⟨y, rfl⟩ : ∃ y, year = y + 1 := ⟨year - 1, by omega⟩
  -- Every 400th year is a 100th one, and every 100th year is a fourth one.
  have hcenturies : (y + 1) % 400 = 0 → (y + 1) % 100 = 0 := by omega
  have hfourths : (y + 1) % 100 = 0 → (y + 1) % 4 = 0 := by omega
  have hle : y / 100 ≤ y / 4 := Nat.div_le_div_left (by omega) (by omega)
  simp only [daysBeforeYear, Nat.add_sub_cancel, succ_div_eq y, isLeap]
  generalize y / 4 = q at hle ⊢
  generalize y / 100 = c at hle ⊢
  by_cases h4 : (y + 1) % 4 = 0
  · by_cases h100 : (y + 1) % 100 = 0
    · by_cases h400 : (y + 1) % 400 = 0
      · simp [h4, h100, h400]
        omega
      · simp [h4, h100, h400]
        omega
    · simp [h4, h100, mt hcenturies h100]
      omega
  · simp [h4, mt hfourths h4, mt hcenturies (mt hfourths h4)]
    omega

theorem monotone_daysBeforeYear {y z : Nat} (hy : 1 ≤ y) (h : y ≤ z) :
    daysBeforeYear y ≤ daysBeforeYear z := by
  induction z, h using Nat.le_induction with
  | base => exact Nat.le_refl _
  | succ z hz ih =>
    rw [daysBeforeYear_succ (hy.trans hz)]
    omega

theorem daysBeforeMonth_succ (year : Nat) {month : Nat} (h : 1 ≤ month) :
    daysBeforeMonth year (month + 1) = daysBeforeMonth year month + daysInMonth year month := by
  obtain ⟨m, rfl⟩ : ∃ m, month = m + 1 := ⟨month - 1, by omega⟩
  rfl

theorem monotone_daysBeforeMonth (year : Nat) {m n : Nat} (hm : 1 ≤ m) (h : m ≤ n) :
    daysBeforeMonth year m ≤ daysBeforeMonth year n := by
  induction n, h using Nat.le_induction with
  | base => exact Nat.le_refl _
  | succ n hn ih =>
    rw [daysBeforeMonth_succ year (hm.trans hn)]
    omega

/-- The months make up the year. -/
theorem daysBeforeMonth_end (year : Nat) :
    daysBeforeMonth year 13 = if isLeap year then 366 else 365 := by
  by_cases h : isLeap year = true <;> simp [daysBeforeMonth, daysInMonth, h]

section
variable {d e : DateTime}

theorem toordinal_lt_of_day (hyear : d.year = e.year) (hmonth : d.month = e.month)
    (h : d.day < e.day) : d.toordinal < e.toordinal := by
  unfold toordinal
  rw [hyear, hmonth]
  omega

theorem toordinal_lt_of_month (hyear : d.year = e.year) (h : d.month < e.month) :
    d.toordinal < e.toordinal := by
  have hnext := daysBeforeMonth_succ d.year d.month_mem.1
  have hmono := monotone_daysBeforeMonth d.year (Nat.le_add_left 1 d.month) h
  have hday := d.day_mem
  have hday' := e.day_mem
  unfold toordinal
  rw [← hyear]
  omega

theorem toordinal_lt_of_year (h : d.year < e.year) : d.toordinal < e.toordinal := by
  have hnext := daysBeforeMonth_succ d.year d.month_mem.1
  have hmonth := d.month_mem
  have hwhole := monotone_daysBeforeMonth d.year (Nat.le_add_left 1 d.month)
    (Nat.succ_le_succ hmonth.2)
  rw [daysBeforeMonth_end, ← Nat.add_le_add_iff_left, ← daysBeforeYear_succ d.year_mem.1] at hwhole
  have hyears := monotone_daysBeforeYear (Nat.le_add_left 1 d.year) h
  have hday := d.day_mem
  have hday' := e.day_mem
  unfold toordinal
  omega

/-- Dates are ordered by year, month and day. -/
theorem toordinal_lt_iff : d.toordinal < e.toordinal ↔
    d.year < e.year ∨ (d.year = e.year ∧ (d.month < e.month ∨ (d.month = e.month ∧
      d.day < e.day))) := by
  constructor
  · intro h
    rcases Nat.lt_trichotomy d.year e.year with hyear | hyear | hyear
    · exact Or.inl hyear
    · refine Or.inr ⟨hyear, ?_⟩
      rcases Nat.lt_trichotomy d.month e.month with hmonth | hmonth | hmonth
      · exact Or.inl hmonth
      · refine Or.inr ⟨hmonth, ?_⟩
        unfold toordinal at h
        rw [hyear, hmonth] at h
        omega
      · exact absurd h (Nat.lt_asymm (toordinal_lt_of_month hyear.symm hmonth))
    · exact absurd h (Nat.lt_asymm (toordinal_lt_of_year hyear))
  · rintro (hyear | ⟨hyear, hmonth | ⟨hmonth, hday⟩⟩)
    · exact toordinal_lt_of_year hyear
    · exact toordinal_lt_of_month hyear hmonth
    · exact toordinal_lt_of_day hyear hmonth hday

theorem toordinal_inj : d.toordinal = e.toordinal ↔
    d.year = e.year ∧ d.month = e.month ∧ d.day = e.day := by
  constructor
  · intro h
    have hlt := mt toordinal_lt_iff.mpr (Nat.not_lt_of_le h.symm.le)
    have hgt := mt toordinal_lt_iff.mpr (Nat.not_lt_of_le h.le)
    omega
  · rintro ⟨hyear, hmonth, hday⟩
    unfold toordinal
    rw [hyear, hmonth, hday]

/-- Readings of the wall clock are ordered field by field. -/
theorem wall_lt_iff : d.wall < e.wall ↔
    d.toordinal < e.toordinal ∨ (d.toordinal = e.toordinal ∧ (d.hour < e.hour ∨
      (d.hour = e.hour ∧ (d.minute < e.minute ∨ (d.minute = e.minute ∧ (d.second < e.second ∨
        (d.second = e.second ∧ d.microsecond < e.microsecond))))))) := by
  unfold wall
  rw [mixed_lt_iff d.microsecond_lt e.microsecond_lt, mixed_lt_iff d.second_lt e.second_lt,
    mixed_inj d.second_lt e.second_lt, mixed_lt_iff d.minute_lt e.minute_lt,
    mixed_inj d.minute_lt e.minute_lt, mixed_lt_iff d.hour_lt e.hour_lt,
    mixed_inj d.hour_lt e.hour_lt]
  simp only [and_or_left, or_assoc, and_assoc]

theorem wall_inj : d.wall = e.wall ↔ d.toordinal = e.toordinal ∧ d.hour = e.hour ∧
    d.minute = e.minute ∧ d.second = e.second ∧ d.microsecond = e.microsecond := by
  unfold wall
  rw [mixed_inj d.microsecond_lt e.microsecond_lt, mixed_inj d.second_lt e.second_lt,
    mixed_inj d.minute_lt e.minute_lt, mixed_inj d.hour_lt e.hour_lt]
  simp only [and_assoc]

end

/-! ### The texts -/

theorem fraction_lt_iff {u v : Nat} (hu : u < 1000000) (hv : v < 1000000) :
    fraction u < fraction v ↔ u < v := by
  unfold fraction
  split
  · split
    · simp only [List.not_lt_nil, false_iff]
      omega
    · simp only [List.nil_lt_cons, true_iff]
      omega
  · split
    · simp only [List.not_lt_nil, false_iff]
      omega
    · rw [cons_lt_cons_self_iff, digits_lt_iff (by omega) (by omega)]

theorem offsetSeconds_lt_iff {r s : Nat} (hr : r < 60000000) (hs : s < 60000000) :
    offsetSeconds r < offsetSeconds s ↔ r < s := by
  unfold offsetSeconds
  split
  · split
    · simp only [List.not_lt_nil, false_iff]
      omega
    · simp only [List.nil_lt_cons, true_iff]
      omega
  · split
    · simp only [List.not_lt_nil, false_iff]
      omega
    · rw [cons_lt_cons_self_iff, digits_append_lt_iff (by omega) (by omega),
        fraction_lt_iff (by omega) (by omega)]
      omega

/-- The sizes of offsets are ordered as their texts are. -/
theorem offsetSize_lt_iff {m n : Nat} (hm : m < 86400000000) (hn : n < 86400000000) :
    offsetSize m < offsetSize n ↔ m < n := by
  unfold offsetSize
  rw [digits_append_lt_iff (by omega) (by omega), cons_lt_cons_self_iff,
    digits_append_lt_iff (by omega) (by omega), offsetSeconds_lt_iff (by omega) (by omega)]
  omega

/-- Offsets are ordered by their signs, `+` first, and then by their sizes. -/
theorem formatOffset_lt_iff {o q : Int} (ho : o.natAbs < 86400000000)
    (hq : q.natAbs < 86400000000) :
    formatOffset o < formatOffset q ↔
      (0 ≤ o ∧ q < 0) ∨ ((o < 0 ↔ q < 0) ∧ o.natAbs < q.natAbs) := by
  unfold formatOffset
  rw [List.cons_lt_cons_iff, offsetSize_lt_iff ho hq]
  have hsigns : ('+' : Char) < '-' ∧ ¬ ('-' : Char) < '+' ∧ ¬ ('+' : Char) < '+' ∧
      ¬ ('-' : Char) < '-' ∧ ('+' : Char) ≠ '-' := by decide
  obtain ⟨hlt, hnot, hplus, hminus, hne⟩ := hsigns
  by_cases hso : o < 0 <;> by_cases hsq : q < 0
  · simp [hso, hsq]
  · simp [hso, hsq, hnot, hne.symm]
  · simp [hso, hsq, hlt]
    omega
  · simp [hso, hsq]

/-- A text without microseconds comes first: both signs come before the point. -/
theorem fraction_append_lt_iff {u v : Nat} (hu : u < 1000000) (hv : v < 1000000) (o q : Int) :
    fraction u ++ formatOffset o < fraction v ++ formatOffset q ↔
      u < v ∨ (u = v ∧ formatOffset o < formatOffset q) := by
  have hpoint : ∀ o : Int, (if o < 0 then '-' else '+') < ('.' : Char) ∧
      ¬ ('.' : Char) < (if o < 0 then '-' else '+') ∧
      ('.' : Char) ≠ (if o < 0 then '-' else '+') := by
    intro o
    split <;> decide
  unfold fraction
  by_cases hu0 : u = 0
  · by_cases hv0 : v = 0
    · simp [hu0, hv0]
    · rw [if_pos hu0, if_neg hv0, List.nil_append, List.cons_append]
      show formatOffset o < '.' :: (digits 6 v ++ formatOffset q) ↔ _
      rw [formatOffset, List.cons_lt_cons_iff]
      simp only [hpoint o, true_or, true_iff]
      omega
  · by_cases hv0 : v = 0
    · rw [if_neg hu0, if_pos hv0, List.nil_append, List.cons_append]
      show '.' :: (digits 6 u ++ formatOffset o) < formatOffset q ↔ _
      rw [formatOffset.eq_def q, List.cons_lt_cons_iff]
      simp only [(hpoint q).2.1, (hpoint q).2.2, false_and, or_false, false_iff]
      omega
    · rw [if_neg hu0, if_neg hv0, List.cons_append, List.cons_append, cons_lt_cons_self_iff,
        digits_append_lt_iff (by omega) (by omega)]

/-- Texts are ordered by the readings of the wall clocks, and then by the offsets. -/
theorem characters_lt_iff (d e : DateTime) :
    d.characters < e.characters ↔ d.wall < e.wall ∨
      (d.wall = e.wall ∧ formatOffset d.utcoffset < formatOffset e.utcoffset) := by
  have hd := d.year_mem
  have he := e.year_mem
  have hdm := d.month_mem
  have hem := e.month_mem
  -- Every field is below the power of ten of its width.
  have hbound : ∀ d : DateTime, d.day < 10 ^ 2 := by
    intro d
    have hday := d.day_mem.2
    have hmonth : daysInMonth d.year d.month ≤ 31 := by
      unfold daysInMonth
      split
      · split <;> omega
      · split <;> omega
    omega
  have hdh := d.hour_lt
  have heh := e.hour_lt
  have hdi := d.minute_lt
  have hei := e.minute_lt
  have hds := d.second_lt
  have hes := e.second_lt
  unfold characters
  rw [digits_append_lt_iff (by omega) (by omega), cons_lt_cons_self_iff,
    digits_append_lt_iff (by omega) (by omega), cons_lt_cons_self_iff,
    digits_append_lt_iff (hbound d) (hbound e), cons_lt_cons_self_iff,
    digits_append_lt_iff (by omega) (by omega), cons_lt_cons_self_iff,
    digits_append_lt_iff (by omega) (by omega), cons_lt_cons_self_iff,
    digits_append_lt_iff (by omega) (by omega),
    fraction_append_lt_iff d.microsecond_lt e.microsecond_lt,
    wall_lt_iff, wall_inj, toordinal_lt_iff, toordinal_inj]
  simp only [and_or_left, or_assoc, and_assoc]

/-! ### The two orders -/

/-- The order of the texts of two timestamps is their order in time. The difference of the
offsets does not outweigh the difference of the wall clocks. Where these read the same, the
offsets are the same, or one of them is negative. -/
def InTextOrder (d e : DateTime) : Prop :=
  (d.wall < e.wall → e.utcoffset - d.utcoffset ≤ (e.wall : Int) - d.wall) ∧
    (e.wall < d.wall → (e.wall : Int) - d.wall < e.utcoffset - d.utcoffset) ∧
    (d.wall = e.wall → d.utcoffset = e.utcoffset ∨ d.utcoffset < 0 ∨ e.utcoffset < 0)

/-- Timestamps of one offset are in order. -/
theorem inTextOrder_of_utcoffset_eq {d e : DateTime} (h : d.utcoffset = e.utcoffset) :
    InTextOrder d e := by
  refine ⟨?_, ?_, fun _ => Or.inl h⟩
  · intro hlt
    omega
  · intro hlt
    omega

theorem lt_iff_wall {d e : DateTime} : d < e ↔ d.wall < e.wall ∨
    (d.wall = e.wall ∧ ((0 ≤ d.utcoffset ∧ e.utcoffset < 0) ∨
      ((d.utcoffset < 0 ↔ e.utcoffset < 0) ∧ d.utcoffset.natAbs < e.utcoffset.natAbs))) := by
  have htext : d < e ↔ d.characters < e.characters := by
    show String.ofList d.characters < String.ofList e.characters ↔ _
    rw [String.lt_iff, String.toList_ofList, String.toList_ofList]
  rw [htext, characters_lt_iff, formatOffset_lt_iff d.utcoffset_lt e.utcoffset_lt]

/-- The comparison of the texts is right exactly for timestamps in order. -/
theorem le_iff_instant {d e : DateTime} :
    (d ≤ e ↔ d.instant ≤ e.instant) ↔ InTextOrder d e := by
  show (¬ e < d ↔ _) ↔ _
  rw [lt_iff_wall]
  unfold InTextOrder instant
  -- The texts compare the wall clocks first, and the instants compare them less the offsets.
  rcases Nat.lt_trichotomy d.wall e.wall with hlt | heq | hgt
  · omega
  · omega
  · omega

theorem lt_iff_instant {d e : DateTime} :
    (e < d ↔ e.instant < d.instant) ↔ InTextOrder d e := by
  rw [← le_iff_instant]
  show _ ↔ (¬ e < d ↔ _)
  rw [← Int.not_lt, not_iff_not]

/-! ### Queries and prunings -/

/-- The time is within the bounds. -/
def Within (since until_ : Option DateTime) (d : DateTime) : Prop :=
  (∀ b ∈ since, b.instant ≤ d.instant) ∧ ∀ b ∈ until_, d.instant ≤ b.instant

instance (since until_ : Option DateTime) (d : DateTime) : Decidable (Within since until_ d) :=
  inferInstanceAs (Decidable
    ((∀ b ∈ since, b.instant ≤ d.instant) ∧ ∀ b ∈ until_, d.instant ≤ b.instant))

/-- The timestamp is in order with the bounds, as far as it matters. It may be out of order with
one bound when it is in order with the other one and lies outside of it, and with both when it
lies within exactly one of them. -/
def InTextOrderWithin (since until_ : Option DateTime) (d : DateTime) : Prop :=
  ((∀ b ∈ since, InTextOrder b d) ∧ ∀ b ∈ until_, InTextOrder d b) ∨
    ((∀ b ∈ since, InTextOrder b d) ∧ ¬ ∀ b ∈ since, b.instant ≤ d.instant) ∨
    ((∀ b ∈ until_, InTextOrder d b) ∧ ¬ ∀ b ∈ until_, d.instant ≤ b.instant) ∨
    ((¬ ∀ b ∈ since, InTextOrder b d) ∧ (¬ ∀ b ∈ until_, InTextOrder d b) ∧
      ((∀ b ∈ since, b.instant ≤ d.instant) ↔ ¬ ∀ b ∈ until_, d.instant ≤ b.instant))

/-- The offset is none, or not below one second. -/
def IsReadBack (d : DateTime) : Prop := d.utcoffset = 0 ∨ 1000000 ≤ d.utcoffset.natAbs

/-- `fromisoformat` gives the timestamp back. -/
theorem readBack_eq_self_iff {d : DateTime} : d.readBack = d ↔ IsReadBack d := by
  obtain ⟨year, month, day, hour, minute, second, microsecond, utcoffset⟩ := d
  simp only [readBack, DateTime.mk.injEq, true_and, IsReadBack]
  split <;> omega

/-- A list in the order of a query. -/
def listed {α : Type} (newestFirst : Bool) (xs : List α) : List α :=
  if newestFirst then xs.reverse else xs

/-- A query reads the rows of the events within the bounds and returns these events as they were
recorded, and a pruning deletes the events before its bound. -/
def Chronological (events : List (Event DateTime)) (since until_ : Option DateTime)
    (olderThan : DateTime) (limit : Int) (newestFirst : Bool) : Prop :=
  (EventLog.record events).loadEvents { since := since, until_ := until_ } limit newestFirst
    = .ok (listed newestFirst
        ((EventLog.record events).rows.filter fun row => Within since until_ row.timestamp)) ∧
  EventLog.query (EventLog.record events) { since := since, until_ := until_ } none limit
      newestFirst readBack
    = .ok (listed newestFirst (events.filter fun e => Within since until_ e.timestamp)) ∧
  ((EventLog.record events).pruneEventsOlderThan olderThan).1.rows
    = (EventLog.record events).rows.filter fun row =>
        ¬ row.timestamp.instant < olderThan.instant

theorem filter_eq_filter_iff {α : Type} {p q : α → Bool} (xs : List α) :
    xs.filter p = xs.filter q ↔ ∀ x ∈ xs, p x = q x := by
  constructor
  · intro h x hx
    have hmem : x ∈ xs.filter p ↔ x ∈ xs.filter q := by rw [h]
    rw [List.mem_filter, List.mem_filter, and_iff_right hx, and_iff_right hx] at hmem
    exact Bool.eq_iff_iff.mpr hmem
  · exact List.filter_congr

/-- The bounds as the query compares them. -/
def withinText (since until_ : Option DateTime) (d : DateTime) : Bool :=
  since.all (· ≤ d) && until_.all (d ≤ ·)

/-- The rows that a query between two bounds reads. -/
theorem matching_bounds (t : EventTable DateTime) (since until_ : Option DateTime)
    (newestFirst : Bool) :
    matching t { since := since, until_ := until_ } newestFirst
      = listed newestFirst (t.rows.filter fun row => withinText since until_ row.timestamp) := by
  have hmatches : ({ since := since, until_ := until_ } : Filters DateTime).matches
      = fun row => withinText since until_ row.timestamp := by
    funext row
    simp [Filters.matches, withinText]
  rw [matching, hmatches]
  rfl

theorem listed_inj {α : Type} {newestFirst : Bool} {xs ys : List α} :
    listed newestFirst xs = listed newestFirst ys ↔ xs = ys := by
  cases newestFirst with
  | true => exact List.reverse_inj
  | false => exact Iff.rfl

theorem map_listed {α β : Type} (g : α → β) (newestFirst : Bool) (xs : List α) :
    (listed newestFirst xs).map g = listed newestFirst (xs.map g) := by
  cases newestFirst with
  | true => exact List.map_reverse
  | false => rfl

/-- The events of the rows within the bounds. -/
theorem map_eventOf_within (events : List (Event DateTime)) (since until_ : Option DateTime) :
    ((EventLog.record events).rows.filter fun row => Within since until_ row.timestamp).map eventOf
      = events.filter fun e => Within since until_ e.timestamp := by
  show ((EventLog.record events).rows.filter
    ((fun e => decide (Within since until_ e.timestamp)) ∘ eventOf)).map eventOf = _
  rw [← List.filter_map, map_eventOf_record]

/-- A property of the timestamps of the rows is one of the recorded events. -/
theorem forall_rows_record (events : List (Event DateTime)) (P : DateTime → Prop) :
    (∀ row ∈ (EventLog.record events).rows, P row.timestamp) ↔ ∀ e ∈ events, P e.timestamp := by
  conv_rhs => rw [← map_eventOf_record events]
  rw [List.forall_mem_map]
  rfl

/-- Two conjunctions agree where their parts agree, or where a part that agrees fails, or where
the parts are exchanged. -/
theorem and_iff_and_iff {P P' Q Q' : Prop} :
    ((P ∧ Q) ↔ (P' ∧ Q')) ↔ ((P ↔ P') ∧ (Q ↔ Q')) ∨ ((P ↔ P') ∧ ¬ P') ∨ ((Q ↔ Q') ∧ ¬ Q') ∨
      (¬ (P ↔ P') ∧ ¬ (Q ↔ Q') ∧ (P' ↔ ¬ Q')) := by
  by_cases hP : P <;> by_cases hP' : P' <;> simp [hP, hP'] <;> tauto

/-- The bounds are compared rightly exactly when the timestamp is in order with them, as far as
it matters. -/
theorem bounds_iff (since until_ : Option DateTime) (d : DateTime) :
    (withinText since until_ d = decide (Within since until_ d)) ↔
      InTextOrderWithin since until_ d := by
  have hsince : ((∀ b ∈ since, b ≤ d) ↔ ∀ b ∈ since, b.instant ≤ d.instant) ↔
      ∀ b ∈ since, InTextOrder b d := by
    cases since with
    | none => simp
    | some b => simpa using le_iff_instant
  have huntil : ((∀ b ∈ until_, d ≤ b) ↔ ∀ b ∈ until_, d.instant ≤ b.instant) ↔
      ∀ b ∈ until_, InTextOrder d b := by
    cases until_ with
    | none => simp
    | some b => simpa using le_iff_instant
  have htext : withinText since until_ d = true ↔
      (∀ b ∈ since, b ≤ d) ∧ ∀ b ∈ until_, d ≤ b := by
    simp [withinText, Option.all_eq_true]
  rw [Bool.eq_iff_iff, htext, decide_eq_true_iff, Within, InTextOrderWithin, ← hsince, ← huntil]
  exact and_iff_and_iff

/-- A pruning deletes the events before its bound exactly when the timestamps are in order with
it. -/
theorem prune_iff (events : List (Event DateTime)) (olderThan : DateTime) :
    ((EventLog.record events).pruneEventsOlderThan olderThan).1.rows
        = (EventLog.record events).rows.filter (fun row =>
            ¬ row.timestamp.instant < olderThan.instant) ↔
      ∀ e ∈ events, InTextOrder olderThan e.timestamp := by
  show (EventLog.record events).rows.filter _ = _ ↔ _
  rw [filter_eq_filter_iff]
  rw [← forall_rows_record events]
  refine forall₂_congr fun row _ => ?_
  rw [← lt_iff_instant, decide_eq_decide, not_iff_not]

/-- A query reads the rows within its bounds exactly when SQLite has its limit and the timestamps
are in order with the bounds, as far as it matters. -/
theorem loadEvents_iff (events : List (Event DateTime)) (since until_ : Option DateTime)
    (limit : Int) (hlimit : events.length ≤ limit) (newestFirst : Bool) :
    (EventLog.record events).loadEvents { since := since, until_ := until_ } limit newestFirst
      = .ok (listed newestFirst
          ((EventLog.record events).rows.filter fun row => Within since until_ row.timestamp)) ↔
      isSqlInteger limit ∧ ∀ e ∈ events, InTextOrderWithin since until_ e.timestamp := by
  by_cases hint : isSqlInteger limit
  · have hlength : (EventLog.record events).rows.length = events.length := by
      rw [← map_eventOf_record events, List.length_map, map_eventOf_record]
    have hall : sqlLimit limit
        (matching (EventLog.record events) { since := since, until_ := until_ } newestFirst)
          = matching (EventLog.record events) { since := since, until_ := until_ } newestFirst := by
      rw [sqlLimit, if_neg (by omega)]
      refine List.take_of_length_le ?_
      have hle := (List.filter_sublist (l := (EventLog.record events).rows)
        (p := fun row => withinText since until_ row.timestamp)).length_le
      rw [matching_bounds, listed]
      split
      · rw [List.length_reverse]
        omega
      · omega
    rw [loadEvents_eq hint, hall, matching_bounds, Except.ok.injEq, listed_inj,
      filter_eq_filter_iff, and_iff_right hint, ← forall_rows_record events]
    exact forall₂_congr fun row _ => bounds_iff since until_ row.timestamp
  · refine iff_of_false ?_ fun h => hint h.1
    rw [EventTable.loadEvents, if_neg hint]
    intro h
    cases h

/-- A query that reads the rows within its bounds returns their events as they were recorded exactly
when `fromisoformat` gives their timestamps back. -/
theorem query_iff (events : List (Event DateTime)) (since until_ : Option DateTime) (limit : Int)
    (newestFirst : Bool)
    (hload : (EventLog.record events).loadEvents { since := since, until_ := until_ } limit
        newestFirst
      = .ok (listed newestFirst
          ((EventLog.record events).rows.filter fun row => Within since until_ row.timestamp))) :
    EventLog.query (EventLog.record events) { since := since, until_ := until_ } none limit
        newestFirst readBack
      = .ok (listed newestFirst (events.filter fun e => Within since until_ e.timestamp)) ↔
      ∀ e ∈ events, Within since until_ e.timestamp → IsReadBack e.timestamp := by
  have hread := mapM_toEvent readBack fun row (hrow : row ∈ listed newestFirst
      ((EventLog.record events).rows.filter fun row => Within since until_ row.timestamp)) =>
    validSeverities_record events row (by
      cases newestFirst with
      | true => exact (List.mem_filter.mp (List.mem_reverse.mp hrow)).1
      | false => exact (List.mem_filter.mp hrow).1)
  have hquery : EventLog.query (EventLog.record events) { since := since, until_ := until_ } none
      limit newestFirst readBack
        = .ok ((listed newestFirst
            (events.filter fun e => Within since until_ e.timestamp)).map
              (readBackEvent readBack)) := by
    simp only [EventLog.query, Option.isNone_none, if_true, hload, hread, bind, Except.bind, pure,
      Except.pure]
    rw [← map_eventOf_within, ← map_listed, List.map_map]
    rfl
  rw [hquery, map_listed, Except.ok.injEq, listed_inj]
  conv_lhs => rhs; rw [← List.map_id (events.filter _)]
  rw [List.map_inj_left]
  simp only [List.mem_filter, decide_eq_true_eq, and_imp, id_eq]
  refine forall₃_congr fun e _ _ => ?_
  rw [← readBack_eq_self_iff]
  exact ⟨congrArg Event.timestamp, fun h => by rw [readBackEvent, h]⟩

/-- The bounds of queries and prunings are chronological exactly when SQLite has the limit, the
timestamps are in order with the bounds, and those that the query finds are read back. -/
theorem timeBounds_iff (events : List (Event DateTime)) (since until_ : Option DateTime)
    (olderThan : DateTime) (limit : Int) (hlimit : events.length ≤ limit) (newestFirst : Bool) :
    Chronological events since until_ olderThan limit newestFirst ↔
      isSqlInteger limit ∧ (∀ e ∈ events, InTextOrderWithin since until_ e.timestamp) ∧
        (∀ e ∈ events, Within since until_ e.timestamp → IsReadBack e.timestamp) ∧
        ∀ e ∈ events, InTextOrder olderThan e.timestamp := by
  rw [Chronological, prune_iff, ← and_assoc, ← and_assoc (a := isSqlInteger limit),
    ← loadEvents_iff events since until_ limit hlimit newestFirst, and_assoc]
  exact and_congr_right fun hload =>
    and_congr_left fun _ => query_iff events since until_ limit newestFirst hload

/-- An hour of the first of January, in a timezone. -/
def onNewYear (hour : Nat) (h : hour < 24) (utcoffset : Int)
    (ho : utcoffset.natAbs < 86400000000) : DateTime :=
  { year := 2024, month := 1, day := 1, hour := hour, utcoffset := utcoffset, hour_lt := h,
    utcoffset_lt := ho }

/-- An event at a time. -/
def notedAt (d : DateTime) : Event DateTime where
  type := "noted"
  component := "runtime"
  timestamp := d

/-- Ten o'clock in UTC. -/
def ten : DateTime := onNewYear 10 (by decide) 0 (by decide)

/-- Eleven in the evening in UTC. -/
def elevenPm : DateTime := onNewYear 23 (by decide) 0 (by decide)

/-- Ten o'clock in UTC, read from a clock two hours ahead. -/
def noonInHelsinki : DateTime := onNewYear 12 (by decide) 7200000000 (by decide)

/-- In UTC the bounds are chronological. -/
theorem timeBounds_iff_utc :
    Chronological [notedAt ten] (some ten) (some elevenPm) elevenPm (1 : Int) true := by
  refine (timeBounds_iff _ _ _ _ _ (by decide) _).mpr ⟨by decide, ?_, ?_, ?_⟩
  · intro e he
    rw [List.mem_singleton.mp he]
    refine Or.inl ⟨?_, ?_⟩
    · intro b hb
      rw [← Option.some.inj hb]
      exact inTextOrder_of_utcoffset_eq rfl
    · intro b hb
      rw [← Option.some.inj hb]
      exact inTextOrder_of_utcoffset_eq rfl
  · intro e he _
    rw [List.mem_singleton.mp he]
    exact Or.inl rfl
  · intro e he
    rw [List.mem_singleton.mp he]
    exact inTextOrder_of_utcoffset_eq rfl

/-- An event at ten is not found by a query since ten in another timezone. -/
theorem offset_hides_event :
    ¬ ∀ (events : List (Event DateTime)) (since until_ : Option DateTime) (olderThan : DateTime)
      (limit : Int), events.length ≤ limit → ∀ newestFirst : Bool,
      Chronological events since until_ olderThan limit newestFirst := by
  intro h
  have hload := (h [notedAt ten] (some noonInHelsinki) (some elevenPm) elevenPm 1 (by decide)
    true).1
  have hquery := ((loadEvents_iff _ _ _ _ (by decide) _).mp hload).2
  have hmissed : withinText (some noonInHelsinki) (some elevenPm) ten = false := by
    decide +kernel
  have hwithin : Within (some noonInHelsinki) (some elevenPm) ten := by decide +kernel
  have hsame := (bounds_iff _ _ _).mpr (hquery (notedAt ten) List.mem_cons_self)
  rw [show (notedAt ten).timestamp = ten from rfl, hmissed, decide_eq_true hwithin] at hsame
  cases hsame

end EdgeSentinel.Proofs.Diagnostics
