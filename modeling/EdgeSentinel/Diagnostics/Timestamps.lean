import EdgeSentinel.Diagnostics.Timeline
import EdgeSentinel.Library.FixedWidth

/-!
# `EdgeSentinel.Diagnostics.Timestamps`: timestamps and their texts

`DateTime` is a timezone-aware `datetime`. It has the reading of the wall clock (`wall`) and the
offset from UTC, and `instant` is the time that it stands for, by which Python compares two of
them. The event table holds what `isoformat` writes, and SQLite compares these texts: the order
on `DateTime` is the order of the texts. All their characters are ASCII, where the order of the
bytes is the order of the characters.
-/

set_option autoImplicit false

namespace EdgeSentinel.Diagnostics

open FixedWidth (digits)

/-! ### The calendar -/

/-- `_is_leap`. -/
def isLeap (year : Nat) : Bool := year % 4 = 0 && (year % 100 ≠ 0 || year % 400 = 0)

/-- `_days_in_month`. -/
def daysInMonth (year month : Nat) : Nat :=
  if month = 2 then if isLeap year then 29 else 28
  else if month ∈ [4, 6, 9, 11] then 30
  else 31

/-- `_days_before_month`. -/
def daysBeforeMonth (year : Nat) : Nat → Nat
  | 0 | 1 => 0
  | month + 2 => daysBeforeMonth year (month + 1) + daysInMonth year (month + 1)

/-- `_days_before_year`. -/
def daysBeforeYear (year : Nat) : Nat :=
  let y := year - 1
  y * 365 + y / 4 - y / 100 + y / 400

/-- A `datetime` with a timezone. `utcoffset` is in microseconds. -/
structure DateTime where
  year : Nat
  month : Nat
  day : Nat
  hour : Nat := 0
  minute : Nat := 0
  second : Nat := 0
  microsecond : Nat := 0
  utcoffset : Int := 0
  year_mem : 1 ≤ year ∧ year ≤ 9999 := by decide
  month_mem : 1 ≤ month ∧ month ≤ 12 := by decide
  day_mem : 1 ≤ day ∧ day ≤ daysInMonth year month := by decide
  hour_lt : hour < 24 := by decide
  minute_lt : minute < 60 := by decide
  second_lt : second < 60 := by decide
  microsecond_lt : microsecond < 1000000 := by decide
  utcoffset_lt : utcoffset.natAbs < 86400000000 := by decide
  deriving DecidableEq

namespace DateTime

/-- `toordinal`: the days since the end of the year 0. -/
def toordinal (d : DateTime) : Nat :=
  daysBeforeYear d.year + daysBeforeMonth d.year d.month + d.day

/-- The reading of the wall clock, in microseconds. -/
def wall (d : DateTime) : Nat :=
  (((d.toordinal * 24 + d.hour) * 60 + d.minute) * 60 + d.second) * 1000000 + d.microsecond

/-- The time in UTC, in microseconds. -/
def instant (d : DateTime) : Int := d.wall - d.utcoffset

/-! ### `isoformat` -/

/-- The microseconds, when there are any. -/
def fraction (microsecond : Nat) : List Char :=
  if microsecond = 0 then [] else '.' :: digits 6 microsecond

/-- The seconds and microseconds of an offset, when there are any. -/
def offsetSeconds (rest : Nat) : List Char :=
  if rest = 0 then [] else ':' :: (digits 2 (rest / 1000000) ++ fraction (rest % 1000000))

/-- The text of the offset without its sign. -/
def offsetSize (size : Nat) : List Char :=
  digits 2 (size / 3600000000) ++ ':' :: (digits 2 (size / 60000000 % 60)
    ++ offsetSeconds (size % 60000000))

/-- `_format_offset`. -/
def formatOffset (offset : Int) : List Char :=
  (if offset < 0 then '-' else '+') :: offsetSize offset.natAbs

/-- The characters of `isoformat`. -/
def characters (d : DateTime) : List Char :=
  digits 4 d.year ++ '-' :: (digits 2 d.month ++ '-' :: (digits 2 d.day ++ 'T' ::
    (digits 2 d.hour ++ ':' :: (digits 2 d.minute ++ ':' :: (digits 2 d.second
      ++ (fraction d.microsecond ++ formatOffset d.utcoffset))))))

/-- `isoformat`. -/
def isoformat (d : DateTime) : String := String.ofList d.characters

/-- What `fromisoformat` makes of the text: it reads an offset below one second as UTC. -/
def readBack (d : DateTime) : DateTime :=
  { d with
    utcoffset := if d.utcoffset.natAbs < 1000000 then 0 else d.utcoffset
    utcoffset_lt := by
      split
      · exact Nat.zero_lt_of_lt d.utcoffset_lt
      · exact d.utcoffset_lt }

/-- The order in which SQLite compares the texts. -/
instance : LT DateTime := ⟨fun d e => d.isoformat < e.isoformat⟩

instance : LE DateTime := ⟨fun d e => ¬ e < d⟩

instance : DecidableLT DateTime :=
  fun d e => inferInstanceAs (Decidable (d.isoformat < e.isoformat))

instance : DecidableLE DateTime := fun d e => inferInstanceAs (Decidable (¬ e < d))

end DateTime

example : (DateTime.mk 2024 1 2 3 0 0 4500 (-19800000000)).isoformat
    = "2024-01-02T03:00:00.004500-05:30" := by decide

end EdgeSentinel.Diagnostics
