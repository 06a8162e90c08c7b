import EdgeSentinel.Monitoring.Memory

/-!
# `EdgeSentinel.Proofs.Monitoring.MemoryUsed`: when the memory in use is told

`memory_used_ratio` keeps the digits of a line by `isdigit` and converts them by `int`. A line
with a digit that `int` does not convert ends it with a `ValueError`, under any key. So does a
line with more digits than `int` takes. Otherwise the dictionary holds the last number of every
key (`foldlM_readLine`), and a quotient that is too large for a double is all that can still be
raised (`usedRatio_cases`). `memoryUsedRatio_iff` puts them together.

A key without a total, or with the total 0, is caught before the division.
-/

set_option autoImplicit false

namespace EdgeSentinel.Proofs.Monitoring

open EdgeSentinel.Core
open EdgeSentinel.Monitoring
open Text (Interpreter readlines)

variable {py : Interpreter}

/-! ### The loop -/

variable (py) in
/-- The number on the last of the lines that has the key and a digit. -/
def lastNumber (lines : List (List Char)) (key : List Char) : Option ℕ :=
  (lines.filter fun line => lineKey line = key ∧ lineDigits py line ≠ []).getLast?.map
    fun line => py.value (lineDigits py line)

theorem lastNumber_append_singleton (lines : List (List Char)) (line key : List Char) :
    lastNumber py (lines ++ [line]) key =
      if lineKey line = key ∧ lineDigits py line ≠ [] then some (py.value (lineDigits py line))
      else lastNumber py lines key := by
  rw [lastNumber, List.filter_append]
  split
  case isTrue h =>
    rw [List.filter_cons_of_pos (by simpa using h), List.getLast?_append]
    rfl
  case isFalse h =>
    rw [List.filter_cons_of_neg (by simpa using h), List.filter_nil, List.append_nil]
    rfl

/-- A line that is converted sets its own key, if it has a digit. -/
theorem readLine_of_convertible {line : List Char} (h : py.Convertible (lineDigits py line))
    (values : Values) :
    ∃ values', readLine py values line = .ok values' ∧ ∀ key, values'.lookup key =
      if lineKey line = key ∧ lineDigits py line ≠ [] then some (py.value (lineDigits py line))
      else values.lookup key := by
  rw [readLine]
  split
  case isFalse hnone =>
    refine ⟨values, rfl, fun key => ?_⟩
    rw [if_neg fun hboth => hnone hboth.2]
  case isTrue hsome =>
    rw [Interpreter.int_of_convertible hsome h]
    refine ⟨_, rfl, fun key => ?_⟩
    split
    case isTrue hkey =>
      obtain ⟨rfl, -⟩ := hkey
      exact AList.lookup_insert values
    case isFalse hkey =>
      have hne : key ≠ lineKey line := fun heq => hkey ⟨heq.symm, hsome⟩
      exact AList.lookup_insert_ne hne

theorem readLine_of_not_convertible {line : List Char}
    (h : ¬ py.Convertible (lineDigits py line)) (values : Values) :
    readLine py values line = .error .valueError := by
  have hsome : lineDigits py line ≠ [] := by
    intro hnone
    rw [hnone] at h
    exact h ⟨by simp, Or.inr (Nat.zero_le _)⟩
  rw [readLine, if_pos hsome, Interpreter.int_of_not_convertible h]

/-- When all lines are converted, the dictionary holds the last number of every key. -/
theorem foldlM_readLine {lines : List (List Char)}
    (h : ∀ line ∈ lines, py.Convertible (lineDigits py line)) :
    ∃ values, lines.foldlM (readLine py) ∅ = .ok values ∧
      ∀ key, values.lookup key = lastNumber py lines key := by
  -- The last line overrides what the lines before it have set.
  induction lines using List.reverseRecOn with
  | nil => exact ⟨∅, rfl, fun key => AList.lookup_empty key⟩
  | append_singleton lines line ih =>
    obtain ⟨values, hrun, hlast⟩ := ih fun l hl => h l (List.mem_append_left _ hl)
    obtain ⟨values', hstep, hkeys⟩ := readLine_of_convertible
      (h line (List.mem_append_right _ (List.mem_singleton_self line))) values
    refine ⟨values', ?_, fun key => ?_⟩
    · rw [List.foldlM_append, hrun]
      exact (bind_pure _).trans hstep
    · rw [hkeys, hlast, lastNumber_append_singleton]

/-- The first line that is not converted ends the loop. -/
theorem foldlM_readLine_error {lines : List (List Char)} {line : List Char} (hline : line ∈ lines)
    (h : ¬ py.Convertible (lineDigits py line)) (values : Values) :
    lines.foldlM (readLine py) values = .error .valueError := by
  induction lines generalizing values with
  | nil => cases hline
  | cons first rest ih =>
    rw [List.foldlM_cons]
    by_cases hfirst : py.Convertible (lineDigits py first)
    case neg =>
      rw [readLine_of_not_convertible hfirst]
      rfl
    case pos =>
      obtain ⟨values', hstep, -⟩ := readLine_of_convertible hfirst values
      rw [hstep]
      refine ih ?_ values'
      rcases List.mem_cons.mp hline with rfl | hrest
      · exact absurd hfirst h
      · exact hrest

/-! ### The ratio -/

/-- The total and the memory that is left, where both are given and the total is not 0. -/
def Given (number : List Char → Option ℕ) (total available : ℕ) : Prop :=
  number memTotal = some total ∧ 0 < total ∧
    (number memAvailable).or (number memFree) = some available

/-- The ratio is 0 where nothing is given. Else it is clamped, if a double holds the quotient. -/
theorem usedRatio_cases (values : Values) :
    (usedRatio values = .ok 0 ∧ ∀ total available, ¬ Given values.lookup total available) ∨
      ∃ total available, Given values.lookup total available ∧
        ((doubleBound * total ≤ available ∧ usedRatio values = .error .overflowError) ∨
          (available < doubleBound * total ∧
            usedRatio values = .ok (max 0 (min 1 (1 - (available : ℚ) / total))))) := by
  unfold usedRatio
  cases htotal : values.lookup memTotal with
  | none => exact Or.inl ⟨rfl, fun _ _ hgiven => nomatch htotal.symm.trans hgiven.1⟩
  | some total =>
    dsimp only
    split
    case isTrue hzero =>
      refine Or.inl ⟨rfl, fun total' _ hgiven => ?_⟩
      have heq : total = total' := Option.some.inj (htotal.symm.trans hgiven.1)
      exact absurd (heq.symm.trans hzero) (Nat.ne_of_gt hgiven.2.1)
    case isFalse hne =>
      cases havailable : (values.lookup memAvailable).or (values.lookup memFree) with
      | none => exact Or.inl ⟨rfl, fun _ _ hgiven => nomatch havailable.symm.trans hgiven.2.2⟩
      | some available =>
        refine Or.inr ⟨total, available, ⟨htotal, Nat.pos_of_ne_zero hne, havailable⟩, ?_⟩
        dsimp only
        -- The total is not 0, so there is no division by zero.
        rw [trueDivide, if_neg hne]
        split
        case isTrue hlarge => exact Or.inl ⟨hlarge, rfl⟩
        case isFalse hfits => exact Or.inr ⟨Nat.lt_of_not_le hfits, rfl⟩

theorem Given.unique {number : List Char → Option ℕ} {total available total' available' : ℕ}
    (h : Given number total available) (h' : Given number total' available') :
    total = total' ∧ available = available' :=
  ⟨Option.some.inj (h.1.symm.trans h'.1), Option.some.inj (h.2.2.symm.trans h'.2.2)⟩

/-- A ratio that is returned lies between 0 and 1, and belongs to what is given. -/
theorem mem_of_usedRatio {values : Values} {ratio : ℚ} (h : usedRatio values = .ok ratio) :
    0 ≤ ratio ∧ ratio ≤ 1 ∧ ∀ total available, Given values.lookup total available →
      available < doubleBound * total ∧ ratio = max 0 (min 1 (1 - (available : ℚ) / total)) := by
  rcases usedRatio_cases values with
    ⟨hzero, hnone⟩ | ⟨total, available, hgiven, ⟨-, herror⟩ | ⟨hfits, hratio⟩⟩
  · obtain rfl := Except.ok.inj (hzero.symm.trans h)
    exact ⟨le_refl 0, zero_le_one, fun total available hgiven => absurd hgiven (hnone _ _)⟩
  · cases herror.symm.trans h
  · obtain rfl := Except.ok.inj (hratio.symm.trans h)
    refine ⟨le_max_left _ _, max_le zero_le_one (min_le_left _ _), fun total' available' hgiven' => ?_⟩
    obtain ⟨rfl, rfl⟩ := hgiven.unique hgiven'
    exact ⟨hfits, rfl⟩

/-- A ratio is returned when the quotient of what is given fits a double. -/
theorem exists_usedRatio {values : Values}
    (h : ∀ total available, Given values.lookup total available →
      available < doubleBound * total) : ∃ ratio, usedRatio values = .ok ratio := by
  rcases usedRatio_cases values with
    ⟨hzero, -⟩ | ⟨total, available, hgiven, ⟨hlarge, -⟩ | ⟨-, hratio⟩⟩
  · exact ⟨_, hzero⟩
  · exact absurd (h total available hgiven) (Nat.not_lt.mpr hlarge)
  · exact ⟨_, hratio⟩

theorem usedRatio_ne_zeroDivisionError (values : Values) :
    usedRatio values ≠ .error .zeroDivisionError := by
  rcases usedRatio_cases values with ⟨heq, -⟩ | ⟨_, _, -, ⟨-, heq⟩ | ⟨-, heq⟩⟩ <;> rw [heq] <;> nofun

variable (py) in
/-- The text is not converted, or the ratio is that of the last numbers. -/
theorem memoryUsedRatio_cases (text : List Char) :
    ((¬ ∀ line ∈ readlines text, py.Convertible (lineDigits py line)) ∧
        memoryUsedRatio py (.ok text) = .error .valueError) ∨
      ((∀ line ∈ readlines text, py.Convertible (lineDigits py line)) ∧
        ∃ values : Values, (∀ key, values.lookup key = lastNumber py (readlines text) key) ∧
          memoryUsedRatio py (.ok text) = usedRatio values) := by
  have hloop : memoryUsedRatio py (.ok text)
      = (readlines text).foldlM (readLine py) ∅ >>= usedRatio := rfl
  by_cases hall : ∀ line ∈ readlines text, py.Convertible (lineDigits py line)
  case pos =>
    obtain ⟨values, hrun, hlast⟩ := foldlM_readLine hall
    refine Or.inr ⟨hall, values, hlast, ?_⟩
    rw [hloop, hrun]
    rfl
  case neg =>
    obtain ⟨line, hline, hnot⟩ : ∃ line ∈ readlines text, ¬ py.Convertible (lineDigits py line) := by
      simpa using hall
    refine Or.inl ⟨hall, ?_⟩
    rw [hloop, foldlM_readLine_error hline hnot]
    rfl

/-- A poll that reads such a text raises, and leaves the runtime and the flag of the monitor. -/
theorem poll_of_not_convertible {τ : Type} (m : MetricsMonitor) {text : List Char}
    (h : ¬ ∀ line ∈ readlines text, py.Convertible (lineDigits py line)) (cpu : Except Raised ℚ)
    (temperature : Except Raised (Option ℚ)) (now : τ) (state : RuntimeState)
    (g : Gauge HardwareStatus) :
    m.pressure.checkOnce now (readHardwareStatus py cpu (.ok text) temperature).toOption state g
      = { current := state, attributes := g } := by
  have herror : memoryUsedRatio py (.ok text) = .error .valueError := by
    rcases memoryUsedRatio_cases py text with ⟨-, herror⟩ | ⟨hall, -⟩
    · exact herror
    · exact absurd hall h
  have hnone : (readHardwareStatus py cpu (.ok text) temperature).toOption = none := by
    rw [readHardwareStatus, herror]
    cases cpu <;> rfl
  rw [hnone, PressureMonitor.checkOnce]

/-! ### What a well-formed text says -/

variable (py) in
/-- The line has one number, written in ASCII, after the colon. -/
def OneNumber (line : List Char) (n : ℕ) : Prop :=
  ∃ before numeral after, (Text.partition ':' line).2.2 = before ++ numeral ++ after ∧
    numeral ≠ [] ∧ (∀ c ∈ numeral, c.isDigit = true) ∧ Nat.ofDigitChars 10 numeral 0 = n ∧
    (∀ c ∈ before, py.isdigit c = false) ∧ ∀ c ∈ after, py.isdigit c = false

variable (py) in
/-- The last line with the key that has a digit at all has this number. -/
def LastCarries (lines : List (List Char)) (key : List Char) (n : ℕ) : Prop :=
  ∃ before line after, lines = before ++ line :: after ∧ lineKey line = key ∧
    OneNumber py line n ∧ ∀ later ∈ after, lineKey later = key → lineDigits py later = []

theorem OneNumber.lineDigits_eq {line : List Char} {n : ℕ} (h : OneNumber py line n) :
    lineDigits py line ≠ [] ∧ py.value (lineDigits py line) = n := by
  obtain ⟨before, numeral, after, hrest, hne, hnumeral, hn, hbefore, hafter⟩ := h
  have hdigits : lineDigits py line = numeral := by
    rw [lineDigits, hrest]
    exact Interpreter.filter_isdigit_numeral hnumeral hbefore hafter
  rw [hdigits]
  exact ⟨hne, (Interpreter.value_numeral hnumeral).trans hn⟩

/-- Lines without a digit do not change the last number. -/
theorem lastNumber_append_of_none {key : List Char} {lines after : List (List Char)}
    (h : ∀ later ∈ after, lineKey later = key → lineDigits py later = []) :
    lastNumber py (lines ++ after) key = lastNumber py lines key := by
  have hnone : (after.filter fun line => lineKey line = key ∧ lineDigits py line ≠ []) = [] := by
    refine List.filter_eq_nil_iff.mpr fun later hlater => ?_
    simpa using h later hlater
  rw [lastNumber, List.filter_append, hnone, List.append_nil]
  rfl

theorem LastCarries.lastNumber_eq {lines : List (List Char)} {key : List Char} {n : ℕ}
    (h : LastCarries py lines key n) : lastNumber py lines key = some n := by
  obtain ⟨before, line, after, rfl, hkey, hnumber, hlater⟩ := h
  obtain ⟨hne, hvalue⟩ := hnumber.lineDigits_eq
  rw [List.append_cons, lastNumber_append_of_none hlater, lastNumber_append_singleton,
    if_pos ⟨hkey, hne⟩, hvalue]

theorem given_of_lastCarries {lines : List (List Char)} {total available : ℕ}
    (htotal : LastCarries py lines memTotal total)
    (havailable : LastCarries py lines memAvailable available) (hpos : 0 < total) :
    Given (lastNumber py lines) total available := by
  refine ⟨htotal.lastNumber_eq, hpos, ?_⟩
  rw [havailable.lastNumber_eq]
  rfl

variable (py) in
/-- The text has a ratio between 0 and 1, which is `1 - available / total` cut to this range when
the last lines of the two keys carry the numbers. A ratio is returned only when no line has failed,
so nothing is assumed of the other lines. -/
def Told (text : List Char) : Prop :=
  ∃ ratio, memoryUsedRatio py (.ok text) = .ok ratio ∧ 0 ≤ ratio ∧ ratio ≤ 1 ∧
    ∀ total available : ℕ, LastCarries py (readlines text) memTotal total →
      LastCarries py (readlines text) memAvailable available → 0 < total →
        ratio = max 0 (min 1 (1 - (available : ℚ) / total))

/-- The division is never one by zero. The text has its ratio exactly when every line is converted,
and the quotient of the last numbers, where they are given, fits a double. -/
theorem memoryUsedRatio_iff (py : Interpreter) (text : List Char) :
    memoryUsedRatio py (.ok text) ≠ .error .zeroDivisionError ∧
      (Told py text ↔
        (∀ line ∈ readlines text, py.Convertible (lineDigits py line)) ∧
          ∀ total available, Given (lastNumber py (readlines text)) total available →
            available < doubleBound * total) := by
  rcases memoryUsedRatio_cases py text with ⟨hnot, herror⟩ | ⟨hall, values, hlast, heq⟩
  · refine ⟨by rw [herror]; nofun, ?_, fun h => absurd h.1 hnot⟩
    rintro ⟨ratio, hratio, -⟩
    cases herror.symm.trans hratio
  · rw [← funext hlast, heq]
    refine ⟨usedRatio_ne_zeroDivisionError values, ?_, ?_⟩
    · rintro ⟨ratio, hratio, -⟩
      obtain ⟨-, -, hgiven⟩ := mem_of_usedRatio (heq.symm.trans hratio)
      exact ⟨hall, fun total available h => (hgiven total available h).1⟩
    · rintro ⟨-, hfits⟩
      obtain ⟨ratio, hratio⟩ := exists_usedRatio hfits
      obtain ⟨hnonneg, hle, hgiven⟩ := mem_of_usedRatio hratio
      refine ⟨ratio, heq.trans hratio, hnonneg, hle, fun total available htotal havailable hpos => ?_⟩
      have h := given_of_lastCarries htotal havailable hpos
      rw [← funext hlast] at h
      exact (hgiven total available h).2

/-- A superscript is a digit that is not converted, on any line. -/
theorem superscript_raises :
    ¬ Told Text.python311
      "MemTotal: 1000 kB\nMemAvailable: 250 kB\nUnit: m²\n".toList := by
  have hraises : memoryUsedRatio Text.python311
      (.ok "MemTotal: 1000 kB\nMemAvailable: 250 kB\nUnit: m²\n".toList)
      = .error .valueError := by decide
  rintro ⟨ratio, hratio, -⟩
  rw [hraises] at hratio
  cases hratio

end EdgeSentinel.Proofs.Monitoring
