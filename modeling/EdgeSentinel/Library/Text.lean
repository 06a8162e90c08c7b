import Mathlib.Data.List.DropRight
import Mathlib.Data.Nat.Notation

/-!
# `EdgeSentinel.Library.Text`: texts as Python reads them

A text is a list of characters. `readlines`, `partition`, `strip` and `int` are the functions of
these names, and `int` is given for texts of digits only: without a sign, spaces or underscores.

Python has two notions of a digit. `isdigit` is true of superscripts and of digits in circles,
and `int` converts decimal digits only, those of any script. Which characters they are depends on
the Unicode version, and how many of them `int` takes is a setting: an `Interpreter` has both.
`int_of_convertible` and `int_of_not_convertible` say which texts `int` converts, and
`value_numeral` says what a numeral in ASCII is converted to.
-/

set_option autoImplicit false

namespace Text

/-! ### Lines and parts of lines -/

/-- What a file opened in text mode makes of the ends of lines. -/
def universalNewlines : List Char → List Char
  | [] => []
  | '\r' :: '\n' :: text => '\n' :: universalNewlines text
  | '\r' :: text => '\n' :: universalNewlines text
  | c :: text => c :: universalNewlines text

/-- The lines of a text, each with its `'\n'`. The last one may have none. -/
def splitLines : List Char → List (List Char)
  | [] => []
  | c :: text =>
    if c = '\n' then [c] :: splitLines text
    else match splitLines text with
      | [] => [[c]]
      | line :: lines => (c :: line) :: lines

/-- `f.readlines()`, of a file with the content `text`. -/
def readlines (text : List Char) : List (List Char) := splitLines (universalNewlines text)

/-- `str.partition`: what is before the first `sep`, the separator, and what comes after it. -/
def partition (sep : Char) (s : List Char) : List Char × List Char × List Char :=
  let found := s.dropWhile (· ≠ sep)
  (s.takeWhile (· ≠ sep), found.take 1, found.drop 1)

/-- The code point of the character is in one of the ranges. -/
def within (ranges : List (ℕ × ℕ)) (c : Char) : Bool :=
  ranges.any fun (first, last) => first ≤ c.toNat && c.toNat ≤ last

/-- `str.isspace`, of one character. -/
def isspace : Char → Bool :=
  within [(0x09, 0x0d), (0x1c, 0x20), (0x85, 0x85), (0xa0, 0xa0), (0x1680, 0x1680),
    (0x2000, 0x200a), (0x2028, 0x2029), (0x202f, 0x202f), (0x205f, 0x205f), (0x3000, 0x3000)]

/-- `str.strip`. -/
def strip (s : List Char) : List Char := (s.dropWhile isspace).rdropWhile isspace

/-! ### Digits -/

/-- What `str.isdigit` and `int` depend on. -/
structure Interpreter where
  /-- The value of a decimal digit. -/
  decimal : Char → Option ℕ
  /-- `str.isdigit`, of one character. -/
  isdigit : Char → Bool
  /-- `sys.get_int_max_str_digits()`. There is no limit when it is 0. -/
  maxStrDigits : ℕ
  decimal_ascii : ∀ c : Char, c.isDigit = true → decimal c = some (c.toNat - '0'.toNat)
  isdigit_of_decimal : ∀ c : Char, (decimal c).isSome → isdigit c = true

namespace Interpreter

variable (py : Interpreter)

/-- The number with these decimal digits. -/
def value (s : List Char) : ℕ := s.foldl (fun n c => 10 * n + (py.decimal c).getD 0) 0

/-- The characters are decimal digits, and not too many. -/
def Convertible (s : List Char) : Prop :=
  (∀ c ∈ s, (py.decimal c).isSome) ∧ (py.maxStrDigits = 0 ∨ s.length ≤ py.maxStrDigits)

-- A `∀` over characters could also be decided by trying all of them.
instance (s : List Char) : Decidable (py.Convertible s) :=
  @instDecidableAnd _ _ (List.decidableBAll (fun c => (py.decimal c).isSome = true) s) inferInstance

/-- `int(s)`, of a text of digits. `none` is a `ValueError`. -/
def int (s : List Char) : Option ℕ :=
  if s ≠ [] ∧ py.Convertible s then some (py.value s) else none

variable {py}

theorem int_of_convertible {s : List Char} (hne : s ≠ []) (h : py.Convertible s) :
    py.int s = some (py.value s) := if_pos ⟨hne, h⟩

theorem int_of_not_convertible {s : List Char} (h : ¬ py.Convertible s) : py.int s = none :=
  if_neg fun hboth => h hboth.2

/-- The digits of ASCII have their usual value. -/
theorem value_numeral {numeral : List Char} (h : ∀ c ∈ numeral, c.isDigit = true) :
    py.value numeral = Nat.ofDigitChars 10 numeral 0 := by
  rw [value, Nat.ofDigitChars_eq_foldl]
  refine List.foldl_ext _ _ _ fun n c hc => ?_
  rw [py.decimal_ascii c (h c hc), Option.getD_some]

/-- A numeral in ASCII between other characters is what `isdigit` finds. -/
theorem filter_isdigit_numeral {before numeral after : List Char}
    (hnumeral : ∀ c ∈ numeral, c.isDigit = true)
    (hbefore : ∀ c ∈ before, py.isdigit c = false) (hafter : ∀ c ∈ after, py.isdigit c = false) :
    (before ++ numeral ++ after).filter py.isdigit = numeral := by
  have hnone : ∀ {s : List Char}, (∀ c ∈ s, py.isdigit c = false) → s.filter py.isdigit = [] :=
    fun h => List.filter_eq_nil_iff.mpr fun c hc => by simp [h c hc]
  have hall : numeral.filter py.isdigit = numeral := by
    refine List.filter_eq_self.mpr fun c hc => py.isdigit_of_decimal c ?_
    rw [py.decimal_ascii c (hnumeral c hc)]
    rfl
  rw [List.filter_append, List.filter_append, hnone hbefore, hnone hafter, hall, List.nil_append,
    List.append_nil]

end Interpreter

/-! ### Unicode 14.0 -/

/-- The zeros of the decimal digits. The other nine digits of a script come after its zero. -/
def decimalZeros : List ℕ :=
  [0x30, 0x660, 0x6f0, 0x7c0, 0x966, 0x9e6, 0xa66, 0xae6, 0xb66, 0xbe6, 0xc66, 0xce6, 0xd66, 0xde6,
    0xe50, 0xed0, 0xf20, 0x1040, 0x1090, 0x17e0, 0x1810, 0x1946, 0x19d0, 0x1a80, 0x1a90, 0x1b50,
    0x1bb0, 0x1c40, 0x1c50, 0xa620, 0xa8d0, 0xa900, 0xa9d0, 0xa9f0, 0xaa50, 0xabf0, 0xff10, 0x104a0,
    0x10d30, 0x11066, 0x110f0, 0x11136, 0x111d0, 0x112f0, 0x11450, 0x114d0, 0x11650, 0x116c0,
    0x11730, 0x118e0, 0x11950, 0x11c50, 0x11d50, 0x11da0, 0x16a60, 0x16ac0, 0x16b50, 0x1d7ce,
    0x1d7d8, 0x1d7e2, 0x1d7ec, 0x1d7f6, 0x1e140, 0x1e2f0, 0x1e950, 0x1fbf0]

/-- The digits that are not decimal digits. -/
def otherDigits : List (ℕ × ℕ) :=
  [(0xb2, 0xb3), (0xb9, 0xb9), (0x1369, 0x1371), (0x19da, 0x19da), (0x2070, 0x2070),
    (0x2074, 0x2079), (0x2080, 0x2089), (0x2460, 0x2468), (0x2474, 0x247c), (0x2488, 0x2490),
    (0x24ea, 0x24ea), (0x24f5, 0x24fd), (0x24ff, 0x24ff), (0x2776, 0x277e), (0x2780, 0x2788),
    (0x278a, 0x2792), (0x10a40, 0x10a43), (0x10e60, 0x10e68), (0x11052, 0x1105a),
    (0x1f100, 0x1f10a)]

/-- The decimal digit at the place of the character in its script. -/
def decimalValue (c : Char) : Option ℕ :=
  (decimalZeros.find? fun first => first ≤ c.toNat && c.toNat < first + 10).map (c.toNat - ·)

theorem decimalValue_ascii (c : Char) (h : c.isDigit = true) :
    decimalValue c = some (c.toNat - '0'.toNat) := by
  have hrange : 0x30 ≤ c.toNat ∧ c.toNat < 0x30 + 10 := by
    obtain ⟨hfirst, hlast⟩ := Char.isDigit_iff_toNat.mp h
    exact ⟨hfirst, Nat.lt_succ_of_le hlast⟩
  rw [decimalValue, decimalZeros, List.find?_cons_of_pos (by simpa using hrange)]
  rfl

/-- Python 3.11 with its default settings. -/
def python311 : Interpreter where
  decimal := decimalValue
  isdigit c := (decimalValue c).isSome || within otherDigits c
  maxStrDigits := 4300
  decimal_ascii := decimalValue_ascii
  isdigit_of_decimal c h := by rw [h, Bool.true_or]

end Text
