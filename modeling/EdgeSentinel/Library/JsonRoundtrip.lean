import EdgeSentinel.Library.Json
import Mathlib.Tactic.IntervalCases

/-!
# `EdgeSentinel.Library.JsonRoundtrip`: `json.loads` inverts `json.dumps`

The leaves come first: characters, strings and numerals are read back, whatever follows them. A
numeral needs a text after it that does not go on with the numeral (`Stops`). The theorem about
values is by recursion on the value, together with those about the elements of an array and the
members of an object. `cost` is the fuel that the scanner needs. It is at most the length of the
text.
-/

set_option autoImplicit false

namespace Json

/-! ### Strings -/

theorem hexValue_digitChar {d : Nat} (h : d < 16) : hexValue d.digitChar = some d := by
  interval_cases d <;> decide

/-- Four hexadecimal digits are read back. -/
theorem scanHex4_hex4 {n : Nat} (h : n < 0x10000) (c : Char) (r : List Char) :
    scanHex4 ((hex4 n).drop 2 ++ c :: r) = some (n, c :: r) := by
  have h₃ := hexValue_digitChar (d := n / 4096) (by omega)
  have h₂ := hexValue_digitChar (d := n / 256 % 16) (by omega)
  have h₁ := hexValue_digitChar (d := n / 16 % 16) (by omega)
  have h₀ := hexValue_digitChar (d := n % 16) (by omega)
  have hsum : ((n / 4096 * 16 + n / 256 % 16) * 16 + n / 16 % 16) * 16 + n % 16 = n := by omega
  simp [hex4, scanHex4, h₃, h₂, h₁, h₀, hsum]

/-- No character is a surrogate. -/
theorem not_surrogate (c : Char) : ¬ (0xd800 ≤ c.toNat ∧ c.toNat ≤ 0xdfff) := by
  have hvalid := c.valid
  rcases hvalid with h | ⟨h, -⟩
  · have : c.toNat < 0xd800 := h
    omega
  · have : 0xdfff < c.toNat := h
    omega

/-- A character of the first plane. -/
theorem scanUnicode_hex4 {ch : Char} (h : ch.toNat < 0x10000) (c : Char) (r : List Char) :
    scanUnicode ((hex4 ch.toNat).drop 2 ++ c :: r) = .ok (ch, c :: r) := by
  have hno := not_surrogate ch
  rw [scanUnicode, scanHex4_hex4 h]
  have hhigh : ¬ (0xd800 ≤ ch.toNat ∧ ch.toNat ≤ 0xdbff) := by omega
  have hlow : ¬ (0xdc00 ≤ ch.toNat ∧ ch.toNat ≤ 0xdfff) := by omega
  simp only [hhigh, hlow, if_false, Char.ofNat_toNat]

/-- A character of another plane, as two surrogates. -/
theorem scanUnicode_pair {ch : Char} (h : 0x10000 ≤ ch.toNat) (c : Char) (r : List Char) :
    scanUnicode ((hex4 (0xd800 + (ch.toNat - 0x10000) / 0x400)).drop 2 ++
      (hex4 (0xdc00 + (ch.toNat - 0x10000) % 0x400) ++ c :: r)) = .ok (ch, c :: r) := by
  have hlt : ch.toNat < 0x110000 := by
    rcases ch.valid with h' | ⟨-, h'⟩
    · have : ch.toNat < 0xd800 := h'
      omega
    · exact h'
  obtain ⟨low, hlow⟩ : ∃ low, low = 0xdc00 + (ch.toNat - 0x10000) % 0x400 := ⟨_, rfl⟩
  have hsecond := scanHex4_hex4 (n := low) (by omega) c r
  rw [scanUnicode, ← hlow, show hex4 low = '\\' :: 'u' :: (hex4 low).drop 2 from rfl,
    List.cons_append, scanHex4_hex4 (by omega)]
  have hhigh : 0xd800 ≤ 0xd800 + (ch.toNat - 0x10000) / 0x400 ∧
      0xd800 + (ch.toNat - 0x10000) / 0x400 ≤ 0xdbff := by omega
  have hlength : ¬ ((hex4 low).drop 2 ++ c :: r).length < 5 := by
    simp [hex4]
  have hrange : 0xdc00 ≤ low ∧ low ≤ 0xdfff := by omega
  have hvalue : 0x10000 + (0xd800 + (ch.toNat - 0x10000) / 0x400 - 0xd800) * 0x400 +
      (low - 0xdc00) = ch.toNat := by omega
  simp only [List.cons_append, hhigh, hlength, hsecond, hrange, and_self, if_true, if_false, hvalue,
    Char.ofNat_toNat]

theorem hex4_eq (n : Nat) : hex4 n = '\\' :: 'u' :: (hex4 n).drop 2 := rfl

theorem scanCharacter_unicode (start s : List Char) :
    scanCharacter start ('\\' :: 'u' :: s) = (scanUnicode s).to some := rfl

/-- A character is read back from what is written for it. -/
theorem scanCharacter_escape (start : List Char) (ch c : Char) (r : List Char) :
    scanCharacter start (escape ch ++ c :: r) = .ok (some ch, c :: r) := by
  unfold escape
  split_ifs with h₁ h₂ h₃ h₄ h₅ h₆ h₇ h₈ h₉
  · rw [h₁]; rfl
  · rw [h₂]; rfl
  · rw [h₃]; rfl
  · rw [h₄]; rfl
  · rw [h₅]; rfl
  · rw [h₆]; rfl
  · rw [h₇]; rfl
  · have hprintable : ¬ ch.toNat ≤ 0x1f := by
      have : 0x20 ≤ ch.toNat := h₈.1
      omega
    simp [scanCharacter, hprintable]
  · rw [hex4_eq, List.cons_append, List.cons_append, scanCharacter_unicode, scanUnicode_hex4 h₉]
    rfl
  · rw [List.append_assoc, hex4_eq, List.cons_append, List.cons_append, scanCharacter_unicode,
      scanUnicode_pair (Nat.le_of_not_lt h₉)]
    rfl

/-- A text after which something follows begins with a character. -/
theorem exists_cons_of_flatMap_escape (cs : List Char) (r : List Char) :
    ∃ c r', cs.flatMap escape ++ '"' :: r = c :: r' := by
  cases h : cs.flatMap escape with
  | nil => exact ⟨_, _, rfl⟩
  | cons c t => exact ⟨_, _, rfl⟩

/-- The characters of a string are read back. The induction is on the characters. -/
theorem scanCharacters_flatMap_escape (start : List Char) (r : List Char) (cs : List Char) :
    ∀ n, cs.length < n →
      scanCharacters start n (cs.flatMap escape ++ '"' :: r) = .ok (cs, r) := by
  induction cs with
  | nil =>
    intro n hn
    obtain ⟨n, rfl⟩ := Nat.exists_eq_add_of_lt hn
    rfl
  | cons ch cs ih =>
    intro n hn
    obtain ⟨n, rfl⟩ := Nat.exists_eq_add_of_lt hn
    obtain ⟨c, r', hcons⟩ := exists_cons_of_flatMap_escape cs r
    have hrest := ih (cs.length + 1 + n) (by omega)
    rw [hcons] at hrest
    rw [List.flatMap_cons, List.append_assoc, hcons, List.length_cons, scanCharacters,
      scanCharacter_escape]
    show (scanCharacters start (cs.length + 1 + n) (c :: r')).to (ch :: ·) = _
    rw [hrest]
    rfl

theorem length_le_flatMap_escape (cs : List Char) : cs.length ≤ (cs.flatMap escape).length := by
  induction cs with
  | nil => exact Nat.le_refl 0
  | cons c cs ih =>
    have hone : 1 ≤ (escape c).length := by
      unfold escape
      split_ifs <;> simp [hex4]
    rw [List.flatMap_cons, List.length_append, List.length_cons]
    omega

/-- A string is read back, after its opening quote. -/
theorem scanString_quote (s : String) (r : List Char) :
    scanString ((quote s).tail ++ r) = .ok (s, r) := by
  have htext : (quote s).tail ++ r = s.toList.flatMap escape ++ '"' :: r := by
    simp [quote]
  have hlength := length_le_flatMap_escape s.toList
  rw [htext, scanString, scanCharacters_flatMap_escape]
  · exact congrArg (fun t => Except.ok (t, r)) (String.ofList_toList)
  · rw [List.length_append]
    omega

/-! ### Numerals -/

/-- The text does not go on with a numeral. -/
def Stops (r : List Char) : Prop :=
  ∀ c ∈ r.head?, c.isDigit = false ∧ c ≠ '.' ∧ c ≠ 'e' ∧ c ≠ 'E'

theorem takeWhile_isDigit {digits r : List Char} (hdigits : ∀ c ∈ digits, c.isDigit = true)
    (hr : ∀ c ∈ r.head?, c.isDigit = false) :
    (digits ++ r).takeWhile (·.isDigit) = digits ∧ (digits ++ r).dropWhile (·.isDigit) = r := by
  rw [List.takeWhile_append_of_pos hdigits, List.dropWhile_append_of_pos hdigits]
  cases r with
  | nil => simp
  | cons c r =>
    have hc := hr c rfl
    simp [hc]

/-- A positive number begins with a digit other than 0. -/
theorem toDigits_eq_cons {n : Nat} (h : 0 < n) : ∃ c cs, Nat.toDigits 10 n = c :: cs ∧ c ≠ '0' := by
  induction n using Nat.strongRecOn with
  | _ n ih =>
    rw [Nat.toDigits_eq_if (by decide)]
    split
    · rename_i hlt
      refine ⟨_, [], rfl, ?_⟩
      interval_cases n <;> decide
    · obtain ⟨c, cs, hcons, hc⟩ := ih (n / 10) (by omega) (by omega)
      exact ⟨c, _, congrArg (· ++ _) hcons, hc⟩

theorem isDigit_toDigits (n : Nat) : ∀ c ∈ Nat.toDigits 10 n, c.isDigit = true :=
  fun _ hc => Nat.isDigit_of_mem_toDigits (by decide) (by decide) hc

/-- A whole number is read back. Only the number 0 begins with the digit 0. -/
theorem scanWhole_toDigits (n : Nat) {r : List Char} (hr : ∀ c ∈ r.head?, c.isDigit = false) :
    scanWhole (Nat.toDigits 10 n ++ r) = some (Nat.toDigits 10 n, r) := by
  rcases Nat.eq_zero_or_pos n with rfl | hpos
  · rw [Nat.toDigits_zero]
    rfl
  · obtain ⟨c, cs, hcons, hc⟩ := toDigits_eq_cons hpos
    have hdigits := isDigit_toDigits n
    rw [hcons] at hdigits ⊢
    obtain ⟨hdigit, hdigits⟩ := List.forall_mem_cons.mp hdigits
    obtain ⟨htake, hdrop⟩ := takeWhile_isDigit hdigits hr
    rw [List.cons_append, scanWhole, if_neg hc, if_pos hdigit, htake, hdrop]

/-- The digits of a numeral begin with no sign. -/
theorem scanSign_toDigits (negative : Bool) (n : Nat) (r : List Char) :
    scanSign ((if negative then ['-'] else []) ++ (Nat.toDigits 10 n ++ r))
      = ((if negative then ['-'] else []), Nat.toDigits 10 n ++ r) := by
  cases negative with
  | true => rfl
  | false =>
    obtain ⟨c, cs, hcons⟩ := List.exists_cons_of_ne_nil (Nat.toDigits_ne_nil (n := n) (b := 10))
    have hc := isDigit_toDigits n c (by simp [hcons])
    have hne : c ≠ '-' := by
      rintro rfl
      cases hc
    rw [hcons]
    show scanSign (c :: (cs ++ r)) = ([], c :: (cs ++ r))
    unfold scanSign
    split
    · rename_i heq
      exact absurd (List.cons.inj heq).1 hne
    · rfl

namespace Stops

variable {r : List Char} (hr : Stops r)
include hr

theorem not_digit : ∀ c ∈ r.head?, c.isDigit = false := fun c hc => (hr c hc).1

theorem fraction : scanFraction r = ([], r) := by
  unfold scanFraction
  split
  · exact absurd rfl (hr '.' rfl).2.1
  · rfl

theorem exponent : scanExponent r = ([], r) := by
  cases r with
  | nil => rfl
  | cons c r =>
    obtain ⟨-, -, he, hE⟩ := hr c rfl
    rw [scanExponent, if_neg (not_or.mpr ⟨he, hE⟩)]

end Stops

variable {φ : Type} {py : Numbers φ}

/-- A whole number is read back. -/
theorem scanNumber_int {i : Int} (h : py.converts (Nat.toDigits 10 i.natAbs) = true) {r : List Char}
    (hr : Stops r) : scanNumber py (intText i ++ r) = .ok (.int i, r) := by
  have hsign := scanSign_toDigits (decide (i < 0)) i.natAbs r
  simp only [decide_eq_true_eq] at hsign
  rw [intText, List.append_assoc, scanNumber, hsign]
  simp only [scanWhole_toDigits _ hr.not_digit, hr.fraction, hr.exponent, and_self, if_true, h,
    Nat.ofDigitChars_ten_toDigits]
  by_cases hneg : i < 0
  · simp only [hneg, if_true, reduceCtorEq, if_false]
    rw [show -(i.natAbs : Int) = i by omega]
  · simp only [hneg, if_false, if_true]
    rw [show (i.natAbs : Int) = i by omega]

namespace FloatText

variable (t : FloatText)

/-- What follows the digits of the whole number does not go on with them. -/
theorem not_digit_exponent {r : List Char} (hr : Stops r) :
    ∀ c ∈ (t.exponentCharacters ++ r).head?, c.isDigit = false ∧ c ≠ '.' := by
  unfold exponentCharacters
  split
  · exact fun c hc => ⟨(hr c hc).1, (hr c hc).2.1⟩
  · rintro c ⟨⟩
    decide

theorem not_digit_fraction {r : List Char} (hr : Stops r) :
    ∀ c ∈ (t.fractionCharacters ++ (t.exponentCharacters ++ r)).head?, c.isDigit = false := by
  unfold fractionCharacters
  split
  · exact fun c hc => (t.not_digit_exponent hr c hc).1
  · rintro c ⟨⟩
    rfl

theorem scanFraction_characters {r : List Char} (hr : Stops r) :
    scanFraction (t.fractionCharacters ++ (t.exponentCharacters ++ r))
      = (t.fractionCharacters, t.exponentCharacters ++ r) := by
  have hexponent := t.not_digit_exponent hr
  unfold fractionCharacters
  split
  · unfold scanFraction
    split
    · rename_i heq
      simp only [List.nil_append] at heq
      rw [heq] at hexponent
      exact absurd rfl (hexponent '.' rfl).2
    · rfl
  · rename_i hne
    obtain ⟨c, cs, hcons⟩ := List.exists_cons_of_ne_nil hne
    have hdigits := t.fraction_digits
    rw [hcons] at hdigits ⊢
    obtain ⟨hdigit, hdigits⟩ := List.forall_mem_cons.mp hdigits
    obtain ⟨htake, hdrop⟩ := takeWhile_isDigit hdigits fun c hc => (hexponent c hc).1
    simp only [List.cons_append, scanFraction, hdigit, if_true, htake, hdrop]

theorem scanExponent_characters {r : List Char} (hr : Stops r) :
    scanExponent (t.exponentCharacters ++ r) = (t.exponentCharacters, r) := by
  unfold exponentCharacters
  split
  · exact hr.exponent
  · rename_i sign digits heq
    obtain ⟨hsign, hne, hdigits⟩ := t.exponent_digits (sign, digits) heq
    obtain ⟨htake, hdrop⟩ := takeWhile_isDigit hdigits hr.not_digit
    have hsign : sign = '+' ∨ sign = '-' := by simpa using hsign
    simp only [List.cons_append, scanExponent, true_or, if_true, scanExponentSign, hsign, htake,
      hdrop, hne, if_false]
    rfl

theorem characters_ne_nil : ¬ (t.fractionCharacters = [] ∧ t.exponentCharacters = []) := by
  rintro ⟨hfraction, hexponent⟩
  rcases t.isFloat with h | h
  · simp [fractionCharacters, h] at hfraction
  · obtain ⟨e, he⟩ := Option.isSome_iff_exists.mp h
    simp [exponentCharacters, he] at hexponent

end FloatText

/-- A float is read back. -/
theorem scanNumber_float (x : φ) {r : List Char} (hr : Stops r) :
    scanNumber py ((py.repr x).characters ++ r) = .ok (.float x, r) := by
  have hfloat := py.float_repr x
  generalize py.repr x = t at hfloat
  rw [FloatText.characters] at hfloat ⊢
  rw [List.append_assoc, List.append_assoc, List.append_assoc, scanNumber, scanSign_toDigits]
  simp only [scanWhole_toDigits _ (t.not_digit_fraction hr), t.scanFraction_characters hr,
    t.scanExponent_characters hr, t.characters_ne_nil, if_false, hfloat]
  rfl

/-! ### Values -/

mutual

/-- The fuel that the scanner needs for the text of a value. -/
def cost : Json φ → Nat
  | arr vs => 1 + costElements vs
  | obj ms => 1 + costMembers ms
  | _ => 1

def costElements : List (Json φ) → Nat
  | [] => 0
  | v :: vs => 1 + cost v + costElements vs

def costMembers : List (String × Json φ) → Nat
  | [] => 0
  | (_, v) :: ms => 1 + cost v + costMembers ms

end

/-- Distinct pairs are a dictionary. -/
theorem dict_eq_self {pairs : List (String × Json φ)} (h : (pairs.map Prod.fst).Nodup) :
    dict pairs = pairs := by
  suffices haux : ∀ (d pairs : List (String × Json φ)), ((d ++ pairs).map Prod.fst).Nodup →
      pairs.foldl (fun d p => setItem d p.1 p.2) d = d ++ pairs from haux [] pairs h
  intro d pairs
  induction pairs generalizing d with
  | nil => simp
  | cons p pairs ih =>
    intro h
    obtain ⟨k, v⟩ := p
    have hk : k ∉ d.map Prod.fst := by
      rw [List.map_append, List.nodup_append] at h
      exact fun hmem => h.2.2 k hmem k (by simp) rfl
    have hset : setItem d k v = d ++ [(k, v)] := if_neg hk
    rw [List.append_cons] at h
    show pairs.foldl (fun d p => setItem d p.1 p.2) (setItem d k v) = _
    rw [hset, ih _ h, ← List.append_cons]

/-- A character that begins a value: no space, no byte order mark, and not the end of an array or
object. -/
def Begins (c : Char) : Prop := c ∉ [' ', '\t', '\n', '\r', '\ufeff', ']', '\x7d']

theorem begins_of_isDigit {c : Char} (h : c.isDigit = true) : Begins c := by
  intro hmem
  simp only [List.mem_cons, List.not_mem_nil, or_false] at hmem
  rcases hmem with rfl | rfl | rfl | rfl | rfl | rfl | rfl <;> cases h

/-- A numeral begins with its sign or with a digit. -/
theorem begins_numeral (negative : Bool) (n : Nat) (r : List Char) :
    ∃ c cs, (if negative then ['-'] else []) ++ (Nat.toDigits 10 n ++ r) = c :: cs ∧ Begins c ∧
      (c = '-' ∧ (∃ d ds, cs = d :: ds ∧ d.isDigit = true) ∨ c.isDigit = true) := by
  obtain ⟨d, ds, hcons⟩ := List.exists_cons_of_ne_nil (Nat.toDigits_ne_nil (n := n) (b := 10))
  have hd := isDigit_toDigits n d (by simp [hcons])
  rw [hcons]
  cases negative with
  | true => exact ⟨'-', _, rfl, by simp [Begins], .inl ⟨rfl, d, _, rfl, hd⟩⟩
  | false => exact ⟨d, _, rfl, begins_of_isDigit hd, .inr hd⟩

variable (py) in
theorem text_begins (v : Json φ) : ∃ c cs, text py v = c :: cs ∧ Begins c := by
  cases v with
  | null => exact ⟨_, _, rfl, by simp [Begins]⟩
  | bool b => cases b <;> exact ⟨_, _, rfl, by simp [Begins]⟩
  | int i =>
    obtain ⟨c, cs, hcons, hc, -⟩ := begins_numeral (decide (i < 0)) i.natAbs []
    refine ⟨c, cs, ?_, hc⟩
    simpa [text, intText] using hcons
  | float x =>
    obtain ⟨c, cs, hcons, hc, -⟩ := begins_numeral (py.repr x).negative (py.repr x).whole
      ((py.repr x).fractionCharacters ++ (py.repr x).exponentCharacters)
    exact ⟨c, cs, hcons, hc⟩
  | constant c => cases c <;> exact ⟨_, _, rfl, by simp [Begins]⟩
  | str s => exact ⟨_, _, rfl, by simp [Begins]⟩
  | arr vs => cases vs <;> exact ⟨_, _, rfl, by simp [Begins]⟩
  | obj ms => cases ms <;> exact ⟨_, _, rfl, by simp [Begins]⟩

/-- The scanner of a numeral takes over from the scanner of values. -/
theorem scanOnce_numeral (fuel : Nat) {c : Char} {cs : List Char}
    (h : c = '-' ∧ (∃ d ds, cs = d :: ds ∧ d.isDigit = true) ∨ c.isDigit = true) :
    scanOnce py (fuel + 1) (c :: cs) = scanNumber py (c :: cs) := by
  unfold scanOnce
  split <;> try rfl
  all_goals
    rename_i heq
    cases heq
    rcases h with ⟨hminus, d, ds, hcons, hd⟩ | hc
    · first
        | exact absurd hminus (by decide)
        | exact absurd ((List.cons.inj hcons).1 ▸ hd) (by decide)
    · cases hc

theorem skipSpace_of_begins {c : Char} (h : Begins c) (r : List Char) :
    skipSpace (c :: r) = c :: r := by
  simp only [Begins, List.mem_cons, List.not_mem_nil, or_false, not_or] at h
  simp [skipSpace, h]

/-- A space before a value is skipped. -/
theorem skipSpace_text (v : Json φ) (r : List Char) :
    skipSpace (' ' :: (text py v ++ r)) = text py v ++ r := by
  obtain ⟨c, cs, hcons, hc⟩ := text_begins py v
  rw [hcons]
  exact skipSpace_of_begins hc (cs ++ r)

theorem skipSpace_quote (s : String) (r : List Char) :
    skipSpace (' ' :: (quote s ++ r)) = quote s ++ r := rfl

theorem stops_elementsText (vs : List (Json φ)) (r : List Char) :
    Stops (elementsText py vs ++ r) := by
  cases vs <;> (rintro c ⟨⟩; decide)

theorem stops_membersText (ms : List (String × Json φ)) (r : List Char) :
    Stops (membersText py ms ++ r) := by
  cases ms <;> (rintro c ⟨⟩; decide)

/-- An array that does not end at once has elements. -/
theorem scanOnce_array (n : Nat) (v : Json φ) (r : List Char) :
    scanOnce py (n + 1) ('[' :: (text py v ++ r)) = (scanElements py n (text py v ++ r)).to .arr := by
  obtain ⟨c, cs, hcons, hc⟩ := text_begins py v
  have hskip := skipSpace_of_begins hc (cs ++ r)
  rw [hcons, List.cons_append]
  simp only [scanOnce, hskip]
  split
  · rename_i heq
    cases heq
    exact absurd hc (by simp [Begins])
  · rfl

theorem scanOnce_object (n : Nat) (k : String) (r : List Char) :
    scanOnce py (n + 1) ('\x7b' :: (quote k ++ r))
      = (scanMembers py n (quote k ++ r)).to fun pairs => Json.obj (dict pairs) := rfl

/-- A member is read, and what follows it decides whether there are more. -/
theorem scanMembers_member {n : Nat} (k : String) {v : Json φ} {r : List Char}
    (h : scanOnce py n (text py v ++ r) = .ok (v, r)) :
    scanMembers py (n + 1) (quote k ++ ':' :: ' ' :: (text py v ++ r)) =
      match skipSpace r with
      | '\x7d' :: r => .ok ([(k, v)], r)
      | ',' :: r => Scan.to ((k, v) :: ·) (scanMembers py n (skipSpace r))
      | r => .error (.malformed "Expecting ',' delimiter" r) := by
  have hkey := scanString_quote k (':' :: ' ' :: (text py v ++ r))
  rw [quote, List.cons_append, scanMembers]
  show Scan.andThen (scanString ((quote k).tail ++ _)) _ = _
  rw [hkey]
  show Scan.andThen (scanOnce py n (skipSpace (' ' :: (text py v ++ _)))) _ = _
  rw [skipSpace_text, h]
  rfl

mutual

/-- A value is read back. The recursion is on the value. -/
theorem scanOnce_text : ∀ (v : Json φ), writable py v = true → distinct v → ∀ n, cost v ≤ n →
    ∀ r, Stops r → scanOnce py n (text py v ++ r) = .ok (v, r)
  | .null, _, _, n, hn, r, _ => by
    obtain ⟨n, rfl⟩ := Nat.exists_eq_add_of_le' hn
    rfl
  | .bool b, _, _, n, hn, r, _ => by
    obtain ⟨n, rfl⟩ := Nat.exists_eq_add_of_le' hn
    cases b <;> rfl
  | .constant c, _, _, n, hn, r, _ => by
    obtain ⟨n, rfl⟩ := Nat.exists_eq_add_of_le' hn
    cases c <;> rfl
  | .int i, hw, _, n, hn, r, hr => by
    obtain ⟨n, rfl⟩ := Nat.exists_eq_add_of_le' hn
    obtain ⟨c, cs, hcons, -, hbegin⟩ := begins_numeral (decide (i < 0)) i.natAbs r
    have htext : text py (.int i) ++ r = c :: cs := by
      simpa [text, intText] using hcons
    rw [htext]
    refine (scanOnce_numeral n hbegin).trans ?_
    rw [← htext]
    exact scanNumber_int hw hr
  | .float x, _, _, n, hn, r, hr => by
    obtain ⟨n, rfl⟩ := Nat.exists_eq_add_of_le' hn
    obtain ⟨c, cs, hcons, -, hbegin⟩ := begins_numeral (py.repr x).negative (py.repr x).whole
      ((py.repr x).fractionCharacters ++ (py.repr x).exponentCharacters ++ r)
    have htext : text py (.float x) ++ r = c :: cs := by
      simpa [text, FloatText.characters] using hcons
    rw [htext]
    refine (scanOnce_numeral n hbegin).trans ?_
    rw [← htext]
    exact scanNumber_float x hr
  | .str s, _, _, n, hn, r, _ => by
    obtain ⟨n, rfl⟩ := Nat.exists_eq_add_of_le' hn
    show (scanString ((quote s).tail ++ r)).to Json.str = _
    rw [scanString_quote]
    rfl
  | .arr [], _, _, n, hn, r, _ => by
    obtain ⟨n, rfl⟩ := Nat.exists_eq_add_of_le' hn
    rfl
  | .arr (v :: vs), hw, hd, n, hn, r, _ => by
    have hn : 1 + costElements (v :: vs) ≤ n := hn
    obtain ⟨n, rfl⟩ := Nat.exists_eq_add_of_le' (Nat.le_of_add_right_le hn)
    have htext : text py (.arr (v :: vs)) ++ r
        = '[' :: (text py v ++ (elementsText py vs ++ r)) := by
      simp [text]
    rw [htext, scanOnce_array, scanElements_text v vs hw hd n (by omega) r]
    rfl
  | .obj [], _, _, n, hn, r, _ => by
    obtain ⟨n, rfl⟩ := Nat.exists_eq_add_of_le' hn
    rfl
  | .obj ((k, v) :: ms), hw, hd, n, hn, r, _ => by
    have hn : 1 + costMembers ((k, v) :: ms) ≤ n := hn
    obtain ⟨n, rfl⟩ := Nat.exists_eq_add_of_le' (Nat.le_of_add_right_le hn)
    have htext : text py (.obj ((k, v) :: ms)) ++ r
        = '\x7b' :: (quote k ++ ':' :: ' ' :: (text py v ++ (membersText py ms ++ r))) := by
      simp [text]
    rw [htext, scanOnce_object, scanMembers_text k v ms hw hd.2 n (by omega) r]
    exact congrArg (fun d => Except.ok (Json.obj d, r)) (dict_eq_self hd.1)
termination_by v => sizeOf v

/-- The elements of an array are read back. -/
theorem scanElements_text : ∀ (v : Json φ) (vs : List (Json φ)),
    writableElements py (v :: vs) = true → distinctElements (v :: vs) →
    ∀ n, costElements (v :: vs) ≤ n → ∀ r,
      scanElements py n (text py v ++ (elementsText py vs ++ r)) = .ok (v :: vs, r)
  | v, vs, hw, hd, n, hn, r => by
    have hw : writable py v = true ∧ writableElements py vs = true := by
      simpa [writableElements] using hw
    have hn : 1 + cost v + costElements vs ≤ n := hn
    obtain ⟨n, rfl⟩ := Nat.exists_eq_add_of_le' (show 1 ≤ n by omega)
    rw [scanElements, scanOnce_text v hw.1 hd.1 n (by omega) _ (stops_elementsText vs r)]
    cases vs with
    | nil => rfl
    | cons v' vs =>
      have hrest := scanElements_text v' vs hw.2 hd.2 n (by omega) r
      have htext : elementsText py (v' :: vs) ++ r
          = ',' :: ' ' :: (text py v' ++ (elementsText py vs ++ r)) := by
        simp [elementsText]
      rw [htext]
      show Scan.to (v :: ·) (scanElements py n (skipSpace (' ' :: (text py v' ++ _)))) = _
      rw [skipSpace_text, hrest]
      rfl
termination_by v vs => sizeOf v + sizeOf vs + 1

/-- The members of an object are read back. -/
theorem scanMembers_text : ∀ (k : String) (v : Json φ) (ms : List (String × Json φ)),
    writableMembers py ((k, v) :: ms) = true → distinctMembers ((k, v) :: ms) →
    ∀ n, costMembers ((k, v) :: ms) ≤ n → ∀ r,
      scanMembers py n (quote k ++ ':' :: ' ' :: (text py v ++ (membersText py ms ++ r)))
        = .ok ((k, v) :: ms, r)
  | k, v, [], hw, hd, n, hn, r => by
    have hw : writable py v = true := by
      simpa [writableMembers] using hw
    have hn : 1 + cost v ≤ n := hn
    obtain ⟨n, rfl⟩ := Nat.exists_eq_add_of_le' (show 1 ≤ n by omega)
    have hvalue := scanOnce_text v hw hd.1 n (by omega) (membersText py [] ++ r)
      (stops_membersText [] r)
    rw [scanMembers_member k hvalue]
    rfl
  | k, v, (k', v') :: ms, hw, hd, n, hn, r => by
    have hw : writable py v = true ∧ writableMembers py ((k', v') :: ms) = true := by
      simpa [writableMembers] using hw
    have hn : 1 + cost v + costMembers ((k', v') :: ms) ≤ n := hn
    obtain ⟨n, rfl⟩ := Nat.exists_eq_add_of_le' (show 1 ≤ n by omega)
    have hvalue := scanOnce_text v hw.1 hd.1 n (by omega) (membersText py ((k', v') :: ms) ++ r)
      (stops_membersText _ r)
    have hrest := scanMembers_text k' v' ms hw.2 hd.2 n (by omega) r
    have htext : membersText py ((k', v') :: ms) ++ r
        = ',' :: ' ' :: (quote k' ++ ':' :: ' ' :: (text py v' ++ (membersText py ms ++ r))) := by
      simp [membersText]
    rw [scanMembers_member k hvalue, htext]
    show Scan.to ((k, v) :: ·) (scanMembers py n (skipSpace (' ' :: (quote k' ++ _)))) = _
    rw [skipSpace_quote, hrest]
    rfl
termination_by _ v ms => sizeOf v + sizeOf ms + 1

end

/-! ### Whole texts -/

theorem length_quote (s : String) : 2 ≤ (quote s).length := by
  simp [quote]

theorem one_le_length_text (v : Json φ) : 1 ≤ (text py v).length := by
  obtain ⟨c, cs, hcons, -⟩ := text_begins py v
  simp [hcons]

mutual

/-- The text of a value is at least as long as the fuel that it needs. -/
theorem cost_le_length : ∀ v : Json φ, cost v ≤ (text py v).length
  | .arr [] => by simp [cost, costElements, text]
  | .arr (v :: vs) => by
    have hv := cost_le_length v
    have hvs := costElements_lt_length vs
    simp only [cost, costElements, text, List.length_cons, List.length_append]
    omega
  | .obj [] => by simp [cost, costMembers, text]
  | .obj ((k, v) :: ms) => by
    have hv := cost_le_length v
    have hms := costMembers_lt_length ms
    simp only [cost, costMembers, text, List.length_cons, List.length_append]
    omega
  | .null | .bool _ | .int _ | .float _ | .constant _ | .str _ => one_le_length_text _

theorem costElements_lt_length : ∀ vs : List (Json φ),
    costElements vs < (elementsText py vs).length
  | [] => Nat.zero_lt_one
  | v :: vs => by
    have hv := cost_le_length v
    have hvs := costElements_lt_length vs
    simp only [costElements, elementsText, List.length_cons, List.length_append]
    omega

theorem costMembers_lt_length : ∀ ms : List (String × Json φ),
    costMembers ms < (membersText py ms).length
  | [] => Nat.zero_lt_one
  | (k, v) :: ms => by
    have hv := cost_le_length v
    have hms := costMembers_lt_length ms
    simp only [costMembers, membersText, List.length_cons, List.length_append]
    omega

end

/-- `json.loads` inverts `json.dumps`: what `dumps` writes for a value without repeated keys,
`loads` reads back as the same value. -/
theorem loads_dumps {v : Json φ} (hd : distinct v) {t : String} (h : dumps py v = .ok t) :
    loads py t = .ok v := by
  unfold dumps at h
  split at h
  · rename_i hw
    obtain rfl : String.ofList (text py v) = t := Except.ok.inj h
    obtain ⟨c, cs, hcons, hc⟩ := text_begins py v
    have hcost : cost v ≤ (text py v).length := cost_le_length v
    have hfuel : cost v ≤ 2 * (text py v).length + 2 := by omega
    have hread := scanOnce_text v hw hd (2 * (text py v).length + 2)
      hfuel [] nofun
    rw [List.append_nil] at hread
    have hskip : skipSpace (text py v) = text py v := by
      rw [hcons]
      exact skipSpace_of_begins hc cs
    unfold loads
    rw [String.toList_ofList]
    split
    · rename_i hbom
      rw [hcons] at hbom
      cases hbom
      exact absurd hc (by simp [Begins])
    · rw [hskip, hread]
      rfl
  · cases h

end Json
