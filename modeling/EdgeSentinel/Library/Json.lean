import Mathlib.Data.List.Basic

/-!
# `EdgeSentinel.Library.Json`: JSON texts as Python writes and reads them

`dumps` is `json.dumps` with its default arguments, and `loads` is `json.loads`. The scanner
follows the one of CPython: `scanOnce` reads a value, `scanElements` the elements of an array,
`scanMembers` those of an object. A string is a text of Unicode scalar values. A lone surrogate
is none, and an escape for one is an error here.

Python's numbers are a parameter, `Numbers`. `φ` is the type of the finite floats.
-/

set_option autoImplicit false

/-- `NaN`, `Infinity` and `-Infinity`. -/
inductive Json.Constant where
  | nan
  | infinity
  | negInfinity
  deriving DecidableEq, Repr

/-- What `json.loads` returns. A dictionary is the list of its items. -/
inductive Json (φ : Type) where
  | null
  | bool (b : Bool)
  | int (i : Int)
  | float (x : φ)
  | constant (c : Json.Constant)
  | str (s : String)
  | arr (elements : List (Json φ))
  | obj (members : List (String × Json φ))

namespace Json

variable {φ : Type}

mutual

/-- No object has two members with one key, as no dictionary has. -/
def distinct : Json φ → Prop
  | arr vs => distinctElements vs
  | obj ms => (ms.map Prod.fst).Nodup ∧ distinctMembers ms
  | _ => True

def distinctElements : List (Json φ) → Prop
  | [] => True
  | v :: vs => distinct v ∧ distinctElements vs

def distinctMembers : List (String × Json φ) → Prop
  | [] => True
  | (_, v) :: ms => distinct v ∧ distinctMembers ms

end

/-! ### Numbers -/

/-- The text of a finite float: a whole number with a fraction, an exponent, or both. The
exponent has its sign and its digits. -/
structure FloatText where
  negative : Bool
  whole : Nat
  fraction : List Char := []
  exponent : Option (Char × List Char) := none
  fraction_digits : ∀ c ∈ fraction, c.isDigit = true
  exponent_digits : ∀ e ∈ exponent, e.1 ∈ ['+', '-'] ∧ e.2 ≠ [] ∧ ∀ c ∈ e.2, c.isDigit = true
  isFloat : fraction ≠ [] ∨ exponent.isSome

namespace FloatText

variable (t : FloatText)

def fractionCharacters : List Char := if t.fraction = [] then [] else '.' :: t.fraction

def exponentCharacters : List Char :=
  match t.exponent with
  | none => []
  | some (sign, digits) => 'e' :: sign :: digits

def characters : List Char :=
  (if t.negative then ['-'] else []) ++ (Nat.toDigits 10 t.whole ++
    (t.fractionCharacters ++ t.exponentCharacters))

end FloatText

/-- How Python writes and reads numbers. -/
structure Numbers (φ : Type) where
  /-- `sys.get_int_max_str_digits()`. There is no limit when it is 0. -/
  maxStrDigits : Nat
  /-- `float.__repr__`. -/
  repr : φ → FloatText
  /-- `float`, of a numeral. It may overflow. -/
  float : List Char → φ ⊕ Constant
  /-- `float(repr(x)) == x`. -/
  float_repr : ∀ x, float (repr x).characters = .inl x

variable (py : Numbers φ)

/-- Python converts between texts and whole numbers of this many digits. -/
def Numbers.converts (digits : List Char) : Bool :=
  py.maxStrDigits = 0 || digits.length ≤ py.maxStrDigits

/-! ### `json.dumps` -/

/-- `'\\u{0:04x}'.format(n)`. -/
def hex4 (n : Nat) : List Char :=
  ['\\', 'u', (n / 4096).digitChar, (n / 256 % 16).digitChar, (n / 16 % 16).digitChar,
    (n % 16).digitChar]

/-- One character between the quotes. -/
def escape (c : Char) : List Char :=
  if c = '\\' then ['\\', '\\']
  else if c = '"' then ['\\', '"']
  else if c = '\n' then ['\\', 'n']
  else if c = '\r' then ['\\', 'r']
  else if c = '\t' then ['\\', 't']
  else if c = '\x0c' then ['\\', 'f']
  else if c = '\x08' then ['\\', 'b']
  else if ' ' ≤ c ∧ c ≤ '~' then [c]
  else if c.toNat < 0x10000 then hex4 c.toNat
  else hex4 (0xd800 + (c.toNat - 0x10000) / 0x400) ++ hex4 (0xdc00 + (c.toNat - 0x10000) % 0x400)

/-- A string literal. -/
def quote (s : String) : List Char := '"' :: (s.toList.flatMap escape ++ ['"'])

/-- `int.__repr__`. -/
def intText (i : Int) : List Char :=
  (if i < 0 then ['-'] else []) ++ Nat.toDigits 10 i.natAbs

def Constant.text : Constant → List Char
  | nan => ['N', 'a', 'N']
  | infinity => ['I', 'n', 'f', 'i', 'n', 'i', 't', 'y']
  | negInfinity => ['-', 'I', 'n', 'f', 'i', 'n', 'i', 't', 'y']

mutual

/-- The text of a value. -/
def text : Json φ → List Char
  | null => ['n', 'u', 'l', 'l']
  | bool true => ['t', 'r', 'u', 'e']
  | bool false => ['f', 'a', 'l', 's', 'e']
  | int i => intText i
  | float x => (py.repr x).characters
  | constant c => c.text
  | str s => quote s
  | arr [] => ['[', ']']
  | arr (v :: vs) => '[' :: (text v ++ elementsText vs)
  | obj [] => ['\x7b', '\x7d']
  | obj ((k, v) :: ms) => '\x7b' :: (quote k ++ ':' :: ' ' :: (text v ++ membersText ms))

/-- The text of the elements after the first, and the end of the array. -/
def elementsText : List (Json φ) → List Char
  | [] => [']']
  | v :: vs => ',' :: ' ' :: (text v ++ elementsText vs)

/-- The text of the members after the first, and the end of the object. -/
def membersText : List (String × Json φ) → List Char
  | [] => ['\x7d']
  | (k, v) :: ms => ',' :: ' ' :: (quote k ++ ':' :: ' ' :: (text v ++ membersText ms))

end

mutual

/-- Python can write every `int` in the value. -/
def writable : Json φ → Bool
  | int i => py.converts (Nat.toDigits 10 i.natAbs)
  | arr vs => writableElements vs
  | obj ms => writableMembers ms
  | _ => true

def writableElements : List (Json φ) → Bool
  | [] => true
  | v :: vs => writable v && writableElements vs

def writableMembers : List (String × Json φ) → Bool
  | [] => true
  | (_, v) :: ms => writable v && writableMembers ms

end

/-- `json.dumps`. The error is the `ValueError` of an `int` that has too many digits. -/
def dumps (v : Json φ) : Except String String :=
  if writable py v then .ok (String.ofList (text py v))
  else .error s!"Exceeds the limit ({py.maxStrDigits} digits) for integer string conversion; use sys.set_int_max_str_digits() to increase the limit"

/-! ### `json.loads` -/

/-- What `json.loads` raises. -/
inductive DecodeError where
  /-- `JSONDecodeError`, with the text from its position on. -/
  | malformed (message : String) (rest : List Char)
  /-- `ValueError` of `int`. -/
  | tooManyDigits
  /-- The string has a lone surrogate. -/
  | surrogate
  /-- The scanner has run out of fuel. -/
  | tooDeep
  deriving DecidableEq, Repr

/-- A scanner returns what it has read and the rest of the text. -/
abbrev Scan (α : Type) : Type := Except DecodeError (α × List Char)

/-- Go on with the rest of the text. -/
def Scan.andThen {α β : Type} : Scan α → (α → List Char → Scan β) → Scan β
  | .error e, _ => .error e
  | .ok (a, rest), f => f a rest

/-- Change what was read. -/
def Scan.to {α β : Type} (f : α → β) (x : Scan α) : Scan β := x.andThen fun a rest => .ok (f a, rest)

/-- `[ \t\n\r]*`. -/
def skipSpace (s : List Char) : List Char :=
  s.dropWhile fun c => c = ' ' || c = '\t' || c = '\n' || c = '\r'

/-- The value of a hexadecimal digit. -/
def hexValue (c : Char) : Option Nat :=
  if '0' ≤ c ∧ c ≤ '9' then some (c.toNat - 0x30)
  else if 'a' ≤ c ∧ c ≤ 'f' then some (c.toNat - 0x61 + 10)
  else if 'A' ≤ c ∧ c ≤ 'F' then some (c.toNat - 0x41 + 10)
  else none

/-- Four hexadecimal digits. The text must go on after them. -/
def scanHex4 : List Char → Option (Nat × List Char)
  | a :: b :: c :: d :: e :: s => do
    let a ← hexValue a
    let b ← hexValue b
    let c ← hexValue c
    let d ← hexValue d
    return (((a * 16 + b) * 16 + c) * 16 + d, e :: s)
  | _ => none

/-- What follows `\u`. Two surrogates are one character. -/
def scanUnicode (s : List Char) : Scan Char :=
  match scanHex4 s with
  | none => .error (.malformed "Invalid \\uXXXX escape" ('u' :: s))
  | some (n, rest) =>
    if 0xd800 ≤ n ∧ n ≤ 0xdbff then
      match rest with
      | '\\' :: 'u' :: rest' =>
        if rest'.length < 5 then .error .surrogate
        else match scanHex4 rest' with
          | none => .error (.malformed "Invalid \\uXXXX escape" ('u' :: rest'))
          | some (m, rest'') =>
            if 0xdc00 ≤ m ∧ m ≤ 0xdfff then
              .ok (Char.ofNat (0x10000 + (n - 0xd800) * 0x400 + (m - 0xdc00)), rest'')
            else .error .surrogate
      | _ => .error .surrogate
    else if 0xdc00 ≤ n ∧ n ≤ 0xdfff then .error .surrogate
    else .ok (Char.ofNat n, rest)

/-- What follows a backslash. `start` is the string from its opening quote on. -/
def scanEscape (start : List Char) : List Char → Scan Char
  | '"' :: s => .ok ('"', s)
  | '\\' :: s => .ok ('\\', s)
  | '/' :: s => .ok ('/', s)
  | 'b' :: s => .ok ('\x08', s)
  | 'f' :: s => .ok ('\x0c', s)
  | 'n' :: s => .ok ('\n', s)
  | 'r' :: s => .ok ('\r', s)
  | 't' :: s => .ok ('\t', s)
  | 'u' :: s => scanUnicode s
  | c :: s => .error (.malformed "Invalid \\escape" ('\\' :: c :: s))
  | [] => .error (.malformed "Unterminated string starting at" start)

/-- A character of a string, or the quote at its end. -/
def scanCharacter (start : List Char) : List Char → Scan (Option Char)
  | '"' :: s => .ok (none, s)
  | '\\' :: s => (scanEscape start s).to some
  | c :: s =>
    if c.toNat ≤ 0x1f then .error (.malformed "Invalid control character at" (c :: s))
    else .ok (some c, s)
  | [] => .error (.malformed "Unterminated string starting at" start)

/-- The characters up to the closing quote. Each one takes some of the text. -/
def scanCharacters (start : List Char) : Nat → List Char → Scan (List Char)
  | 0, _ => .error .tooDeep
  | fuel + 1, s => (scanCharacter start s).andThen fun c? rest =>
    match c? with
    | none => .ok ([], rest)
    | some c => (scanCharacters start fuel rest).to (c :: ·)

/-- `scanstring`, of a text after an opening quote. -/
def scanString (s : List Char) : Scan String :=
  (scanCharacters ('"' :: s) (s.length + 1) s).to String.ofList

/-- The sign of a numeral. -/
def scanSign : List Char → List Char × List Char
  | '-' :: s => (['-'], s)
  | s => ([], s)

/-- The digits before the point. A numeral that begins with 0 has no other. -/
def scanWhole : List Char → Option (List Char × List Char)
  | [] => none
  | c :: s =>
    if c = '0' then some (['0'], s)
    else if c.isDigit then some (c :: s.takeWhile (·.isDigit), s.dropWhile (·.isDigit))
    else none

/-- The point and the digits after it. -/
def scanFraction : List Char → List Char × List Char
  | '.' :: c :: s =>
    if c.isDigit then ('.' :: c :: s.takeWhile (·.isDigit), s.dropWhile (·.isDigit))
    else ([], '.' :: c :: s)
  | s => ([], s)

/-- The sign of an exponent. -/
def scanExponentSign : List Char → List Char × List Char
  | c :: s => if c = '+' ∨ c = '-' then ([c], s) else ([], c :: s)
  | [] => ([], [])

/-- The exponent, when there is one. -/
def scanExponent : List Char → List Char × List Char
  | [] => ([], [])
  | e :: s =>
    if e = 'e' ∨ e = 'E' then
      let (sign, rest) := scanExponentSign s
      let digits := rest.takeWhile (·.isDigit)
      if digits = [] then ([], e :: s)
      else (e :: sign ++ digits, rest.dropWhile (·.isDigit))
    else ([], e :: s)

/-- A numeral. -/
def scanNumber (s : List Char) : Scan (Json φ) :=
  let (sign, s₁) := scanSign s
  match scanWhole s₁ with
  | none => .error (.malformed "Expecting value" s)
  | some (whole, s₂) =>
    let (fraction, s₃) := scanFraction s₂
    let (exponent, s₄) := scanExponent s₃
    if fraction = [] ∧ exponent = [] then
      if py.converts whole then
        let n := Nat.ofDigitChars 10 whole 0
        .ok (.int (if sign = [] then n else -n), s₂)
      else .error .tooManyDigits
    else
      .ok ((py.float (sign ++ (whole ++ (fraction ++ exponent)))).elim .float .constant, s₄)

/-- `d[k] = v`. -/
def setItem (d : List (String × Json φ)) (k : String) (v : Json φ) : List (String × Json φ) :=
  if k ∈ d.map Prod.fst then d.map fun item => if item.1 = k then (k, v) else item
  else d ++ [(k, v)]

/-- `dict(pairs)`. -/
def dict (pairs : List (String × Json φ)) : List (String × Json φ) :=
  pairs.foldl (fun d (k, v) => setItem d k v) []

mutual

/-- A value. -/
def scanOnce : Nat → List Char → Scan (Json φ)
  | 0, _ => .error .tooDeep
  | fuel + 1, s =>
    match s with
    | '"' :: rest => (scanString rest).to .str
    | '\x7b' :: rest =>
      match skipSpace rest with
      | '\x7d' :: rest => .ok (.obj [], rest)
      | rest => (scanMembers fuel rest).to fun pairs => .obj (dict pairs)
    | '[' :: rest =>
      match skipSpace rest with
      | ']' :: rest => .ok (.arr [], rest)
      | rest => (scanElements fuel rest).to .arr
    | 'n' :: 'u' :: 'l' :: 'l' :: rest => .ok (.null, rest)
    | 't' :: 'r' :: 'u' :: 'e' :: rest => .ok (.bool true, rest)
    | 'f' :: 'a' :: 'l' :: 's' :: 'e' :: rest => .ok (.bool false, rest)
    | 'N' :: 'a' :: 'N' :: rest => .ok (.constant .nan, rest)
    | 'I' :: 'n' :: 'f' :: 'i' :: 'n' :: 'i' :: 't' :: 'y' :: rest => .ok (.constant .infinity, rest)
    | '-' :: 'I' :: 'n' :: 'f' :: 'i' :: 'n' :: 'i' :: 't' :: 'y' :: rest =>
      .ok (.constant .negInfinity, rest)
    | s => scanNumber py s

/-- The elements of an array that is not empty. -/
def scanElements : Nat → List Char → Scan (List (Json φ))
  | 0, _ => .error .tooDeep
  | fuel + 1, s => Scan.andThen (scanOnce fuel s) fun value rest =>
    match skipSpace rest with
    | ']' :: rest => .ok ([value], rest)
    | ',' :: rest => Scan.to (value :: ·) (scanElements fuel (skipSpace rest))
    | rest => .error (.malformed "Expecting ',' delimiter" rest)

/-- The members of an object that is not empty. -/
def scanMembers : Nat → List Char → Scan (List (String × Json φ))
  | 0, _ => .error .tooDeep
  | fuel + 1, s =>
    match s with
    | '"' :: rest => Scan.andThen (scanString rest) fun key rest =>
      match skipSpace rest with
      | ':' :: rest => Scan.andThen (scanOnce fuel (skipSpace rest)) fun value rest =>
        match skipSpace rest with
        | '\x7d' :: rest => .ok ([(key, value)], rest)
        | ',' :: rest => Scan.to ((key, value) :: ·) (scanMembers fuel (skipSpace rest))
        | rest => .error (.malformed "Expecting ',' delimiter" rest)
      | rest => .error (.malformed "Expecting ':' delimiter" rest)
    | s => .error (.malformed "Expecting property name enclosed in double quotes" s)

end

/-- `json.loads`. -/
def loads (s : String) : Except DecodeError (Json φ) :=
  match s.toList with
  | '\ufeff' :: rest =>
    .error (.malformed "Unexpected UTF-8 BOM (decode using utf-8-sig)" ('\ufeff' :: rest))
  | characters =>
    match scanOnce py (2 * characters.length + 2) (skipSpace characters) with
    | .error e => .error e
    | .ok (value, rest) =>
      match skipSpace rest with
      | [] => .ok value
      | rest => .error (.malformed "Extra data" rest)

end Json
