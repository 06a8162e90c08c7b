import EdgeSentinel.Diagnostics.Incidents
import EdgeSentinel.Diagnostics.Timestamps

/-!
# `EdgeSentinel.Diagnostics.Report`: the summary of incidents

`summarizeIncidents` is `summarize_incidents` of `diagnostics/report.py`. A `Summary` holds the
values that it writes. A `timedelta` is its number of microseconds, and the difference of two
timestamps is exact.
-/

set_option autoImplicit false

namespace EdgeSentinel.Diagnostics

open FixedWidth (digits)

/-- The property `duration`. -/
def Incident.duration (x : Incident DateTime) : Option Int :=
  x.endedAt.map fun endedAt => endedAt.instant - x.startedAt.instant

/-- `str` of a `timedelta`. -/
def timedeltaStr (microseconds : Int) : String :=
  let days := microseconds / 86400000000
  let rest := (microseconds % 86400000000).toNat
  let seconds := rest / 1000000
  (if days = 0 then "" else toString days ++ (if days.natAbs ≠ 1 then " days, " else " day, "))
    ++ toString (seconds / 3600) ++ String.ofList (':' :: (digits 2 (seconds / 60 % 60)
      ++ ':' :: (digits 2 (seconds % 60) ++ DateTime.fraction (rest % 1000000))))

/-- What a summary says. -/
structure Summary where
  resolved : Nat
  ongoing : Nat
  /-- The total downtime, in microseconds. -/
  total : Int
  deriving DecidableEq, Repr

def Summary.text (s : Summary) : String :=
  toString s.resolved ++ " resolved incident(s), " ++ toString s.ongoing ++ " ongoing, "
    ++ timedeltaStr s.total ++ " total downtime"

/-- The values that `summarize_incidents` computes. -/
def summary (incidents : List (Incident DateTime)) : Summary :=
  let closed := incidents.filter fun x => !x.isOpen
  { resolved := closed.length
    ongoing := incidents.length - closed.length
    total := (closed.filterMap (·.duration)).sum }

/-- `summarize_incidents`. -/
def summarizeIncidents (incidents : List (Incident DateTime)) : String := (summary incidents).text

end EdgeSentinel.Diagnostics
