import Mathlib.Data.List.Basic
import Mathlib.Tactic.IntervalCases

/-!
# `EdgeSentinel.Library.FixedWidth`: the order of texts with fixed fields

Texts are compared character by character. Two texts that begin with fields of one length are
ordered by the fields first, and by the rest when the fields are the same
(`append_lt_append_iff`). `digits width n` is a number with leading zeros. Below `10 ^ width` its
order is the order of the numbers (`digits_lt_iff`), so a text of such fields is ordered as the
numbers of a mixed radix are (`mixed_lt_iff`). `readDigits` reads such a field, in front of whatever
follows it (`readDigits_digits`).
-/

set_option autoImplicit false

namespace FixedWidth

/-- The last `width` decimal digits of `n`. -/
def digits : Nat → Nat → List Char
  | 0, _ => []
  | width + 1, n => digits width (n / 10) ++ [(n % 10).digitChar]

@[simp] theorem length_digits (width n : Nat) : (digits width n).length = width := by
  induction width generalizing n with
  | zero => rfl
  | succ width ih => rw [digits, List.length_append, ih, List.length_singleton]

/-- Fields of one length come first. -/
theorem append_lt_append_iff {α : Type*} [LT α] [Std.Irrefl (α := α) (· < ·)] {x y : List α} :
    ∀ {a b : List α}, a.length = b.length → (a ++ x < b ++ y ↔ a < b ∨ (a = b ∧ x < y)) := by
  intro a
  induction a with
  | nil =>
    intro b h
    obtain rfl : b = [] := List.eq_nil_of_length_eq_zero h.symm
    simp
  | cons c a ih =>
    intro b h
    cases b with
    | nil => cases h
    | cons d b =>
      have hrest := ih (b := b) (Nat.succ.inj h)
      rw [List.cons_append, List.cons_append, List.cons_lt_cons_iff, List.cons_lt_cons_iff, hrest,
        List.cons.injEq, and_or_left, and_assoc, or_assoc]

/-- A shared first character does not matter. -/
theorem cons_lt_cons_self_iff {α : Type*} [LT α] [Std.Irrefl (α := α) (· < ·)] {c : α}
    {x y : List α} : c :: x < c :: y ↔ x < y := by
  rw [List.cons_lt_cons_iff]
  constructor
  · rintro (h | ⟨-, h⟩)
    · exact absurd h (Std.Irrefl.irrefl c)
    · exact h
  · exact fun h => Or.inr ⟨rfl, h⟩

theorem digitChar_lt_iff {i j : Nat} (hi : i < 10) (hj : j < 10) :
    i.digitChar < j.digitChar ↔ i < j := by
  interval_cases i <;> interval_cases j <;> decide

theorem digitChar_inj {i j : Nat} (hi : i < 10) (hj : j < 10) :
    i.digitChar = j.digitChar ↔ i = j := by
  interval_cases i <;> interval_cases j <;> decide

theorem append_inj_iff {α : Type*} {a b x y : List α} (h : a.length = b.length) :
    a ++ x = b ++ y ↔ a = b ∧ x = y := by
  constructor
  · exact fun heq => List.append_inj heq h
  · rintro ⟨rfl, rfl⟩
    rfl

theorem digits_inj {width n m : Nat} (hn : n < 10 ^ width) (hm : m < 10 ^ width) :
    digits width n = digits width m ↔ n = m := by
  induction width generalizing n m with
  | zero =>
    rw [Nat.pow_zero] at hn hm
    simp only [digits, true_iff]
    omega
  | succ width ih =>
    rw [Nat.pow_succ] at hn hm
    rw [digits, digits, append_inj_iff (by simp), ih (by omega) (by omega),
      List.singleton_inj, digitChar_inj (by omega) (by omega)]
    omega

/-- Numbers with leading zeros are ordered as numbers. -/
theorem digits_lt_iff {width n m : Nat} (hn : n < 10 ^ width) (hm : m < 10 ^ width) :
    digits width n < digits width m ↔ n < m := by
  induction width generalizing n m with
  | zero =>
    rw [Nat.pow_zero] at hn hm
    simp only [digits, List.not_lt_nil, false_iff]
    omega
  | succ width ih =>
    rw [Nat.pow_succ] at hn hm
    rw [digits, digits, append_lt_append_iff (by simp), ih (by omega) (by omega),
      digits_inj (by omega) (by omega), List.cons_lt_cons_iff,
      digitChar_lt_iff (by omega) (by omega)]
    simp only [List.not_lt_nil, and_false, or_false]
    omega

/-- A number with leading zeros comes first. -/
theorem digits_append_lt_iff {width n m : Nat} {x y : List Char} (hn : n < 10 ^ width)
    (hm : m < 10 ^ width) :
    digits width n ++ x < digits width m ++ y ↔ n < m ∨ (n = m ∧ x < y) := by
  rw [append_lt_append_iff (by simp), digits_lt_iff hn hm, digits_inj hn hm]

/-- The order of two numbers of a mixed radix. -/
theorem mixed_lt_iff {k n m r s : Nat} (hr : r < k) (hs : s < k) :
    n * k + r < m * k + s ↔ n < m ∨ (n = m ∧ r < s) := by
  constructor
  · intro h
    rcases Nat.lt_trichotomy n m with hlt | rfl | hgt
    · exact Or.inl hlt
    · exact Or.inr ⟨rfl, by omega⟩
    · have hmul : (m + 1) * k ≤ n * k := Nat.mul_le_mul_right k hgt
      rw [Nat.add_mul, Nat.one_mul] at hmul
      omega
  · rintro (hlt | ⟨rfl, hlt⟩)
    · have hmul : (n + 1) * k ≤ m * k := Nat.mul_le_mul_right k hlt
      rw [Nat.add_mul, Nat.one_mul] at hmul
      omega
    · omega

/-- Two numbers of a mixed radix are the same when their parts are. -/
theorem mixed_inj {k n m r s : Nat} (hr : r < k) (hs : s < k) :
    n * k + r = m * k + s ↔ n = m ∧ r = s := by
  have hlt := mixed_lt_iff (n := n) (m := m) hr hs
  have hgt := mixed_lt_iff (n := m) (m := n) hs hr
  constructor
  · intro h
    rw [h] at hlt hgt
    simp only [Nat.lt_irrefl, false_iff, not_or, not_and] at hlt hgt
    have hnm : n = m := by omega
    exact ⟨hnm, by have := hlt.2 hnm; have := hgt.2 hnm.symm; omega⟩
  · rintro ⟨rfl, rfl⟩
    rfl

/-! ### Reading a field -/

/-- Read a field of `width` digits, and give back the rest of the text. -/
def readDigits (width : Nat) (s : List Char) : Option (Nat × List Char) :=
  if (s.take width).length = width ∧ (s.take width).all (·.isDigit) then
    some (Nat.ofDigitChars 10 (s.take width) 0, s.drop width)
  else none

theorem isDigit_digits (width n : Nat) : ∀ c ∈ digits width n, c.isDigit = true := by
  induction width generalizing n with
  | zero => exact fun _ hc => by cases hc
  | succ width ih =>
    intro c hc
    rw [digits, List.mem_append, List.mem_singleton] at hc
    rcases hc with hc | rfl
    · exact ih _ c hc
    · have hlt : n % 10 < 10 := Nat.mod_lt _ (by decide)
      generalize n % 10 = d at hlt
      interval_cases d <;> decide

theorem ofDigitChars_digits {width n : Nat} (hn : n < 10 ^ width) :
    Nat.ofDigitChars 10 (digits width n) 0 = n := by
  induction width generalizing n with
  | zero =>
    rw [Nat.pow_zero] at hn
    simp only [digits, Nat.ofDigitChars_nil]
    omega
  | succ width ih =>
    rw [Nat.pow_succ] at hn
    rw [digits, Nat.ofDigitChars_append, ih (by omega),
      Nat.ofDigitChars_cons_digitChar_of_lt_ten (Nat.mod_lt _ (by decide)), Nat.ofDigitChars_nil]
    omega

/-- A field is read back, whatever follows it. -/
theorem readDigits_digits {width n : Nat} (hn : n < 10 ^ width) (s : List Char) :
    readDigits width (digits width n ++ s) = some (n, s) := by
  have htake : (digits width n ++ s).take width = digits width n :=
    List.take_left' (length_digits width n)
  have hdrop : (digits width n ++ s).drop width = s := List.drop_left' (length_digits width n)
  have hdigits : (digits width n).all (·.isDigit) = true :=
    List.all_eq_true.mpr (isDigit_digits width n)
  rw [readDigits, htake, hdrop, if_pos ⟨length_digits width n, hdigits⟩, ofDigitChars_digits hn]

end FixedWidth
