import EdgeSentinel.Library.Text
import EdgeSentinel.Monitoring.Monitors
import Mathlib.Algebra.Order.Ring.Rat
import Mathlib.Data.List.AList

/-!
# `EdgeSentinel.Monitoring.Memory`: the memory in use

`memoryUsedRatio` is `memory_used_ratio` of `metrics/checks.py`. A file is what opening and
reading it gives: its content, or what is raised. The numbers are integers of any size. A quotient
of two of them is exact, but one that is too large for a double raises `OverflowError`.
-/

set_option autoImplicit false

namespace EdgeSentinel.Monitoring

open Text (Interpreter)

/-- What reading the file and computing with its numbers may raise. -/
inductive Raised where
  | osError
  | unicodeDecodeError
  | valueError
  | overflowError
  | zeroDivisionError
  deriving DecidableEq, Repr

/-- The numbers from here on are rounded to more than the largest finite double. -/
def doubleBound : ℕ := 2 ^ 1024 - 2 ^ 970

/-- `a / b`. -/
def trueDivide (a b : ℕ) : Except Raised ℚ :=
  if b = 0 then .error .zeroDivisionError
  else if doubleBound * b ≤ a then .error .overflowError
  else .ok (a / b)

/-- The dictionary `values`. -/
abbrev Values : Type := AList fun _ : List Char => ℕ

def memTotal : List Char := "MemTotal".toList

def memAvailable : List Char := "MemAvailable".toList

def memFree : List Char := "MemFree".toList

/-- `key.strip()`. -/
def lineKey (line : List Char) : List Char := Text.strip (Text.partition ':' line).1

variable (py : Interpreter)

/-- `digits`. -/
def lineDigits (line : List Char) : List Char :=
  (Text.partition ':' line).2.2.filter py.isdigit

/-- The loop body, for one line. -/
def readLine (values : Values) (line : List Char) : Except Raised Values :=
  if lineDigits py line ≠ [] then
    match py.int (lineDigits py line) with
    | none => .error .valueError
    | some number => .ok (values.insert (lineKey line) number)
  else .ok values

/-- `memory_used_ratio` after the loop. -/
def usedRatio (values : Values) : Except Raised ℚ :=
  match values.lookup memTotal with
  | none => .ok 0
  | some total =>
    if total = 0 then .ok 0
    else match (values.lookup memAvailable).or (values.lookup memFree) with
      | none => .ok 0
      | some available => do
        let quotient ← trueDivide available total
        return max 0 (min 1 (1 - quotient))

/-- `memory_used_ratio`. -/
def memoryUsedRatio (file : Except Raised (List Char)) : Except Raised ℚ :=
  match file with
  | .error .osError => .ok 0
  | .error e => .error e
  | .ok text => do
    let values ← (Text.readlines text).foldlM (readLine py) ∅
    usedRatio values

example : memoryUsedRatio Text.python311
    (.ok "MemTotal:       1000 kB\r\nMemAvailable:    250 kB\n".toList) = .ok (3 / 4) := by
  decide +kernel

/-- `read_hardware_status`. `cpu` and `temperature` are what `cpu_load_ratio` and
`read_temperature` return or raise. -/
def readHardwareStatus (cpu : Except Raised ℚ) (meminfo : Except Raised (List Char))
    (temperature : Except Raised (Option ℚ)) : Except Raised HardwareStatus := do
  let cpuLoadRatio ← cpu
  let memoryUsedRatio ← memoryUsedRatio py meminfo
  let temperatureCelsius ← temperature
  return { cpuLoadRatio, memoryUsedRatio, temperatureCelsius }

end EdgeSentinel.Monitoring
