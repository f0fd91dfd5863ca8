import Mathlib.Tactic

/-!
# Texts

The texts of byte strings in hexadecimal (`Hex`) and in base 64 (`Base64`), each with the round trip,
and texts in lower case (`LowerCase`).
-/

/-!
## Hexadecimal texts of byte strings

Two digits for a byte, as `bytes.hex()` writes them in lower case and `bytes.fromhex(…)` reads them,
which also takes upper case and skips blanks between bytes. Reading what was written gives the bytes
back (`ofText_toText`).
-/

namespace Hex

/-- The digit of a value below sixteen. -/
def digit (value : ℕ) : Char :=
  if value < 10 then Char.ofNat (48 + value) else Char.ofNat (87 + value)

/-- The value of a digit. -/
def digitValue (c : Char) : Option ℕ :=
  if 48 ≤ c.toNat ∧ c.toNat ≤ 57 then some (c.toNat - 48)
  else if 97 ≤ c.toNat ∧ c.toNat ≤ 102 then some (c.toNat - 87)
  else if 65 ≤ c.toNat ∧ c.toNat ≤ 70 then some (c.toNat - 55)
  else none

theorem digitValue_digit {value : ℕ} (h : value < 16) : digitValue (digit value) = some value := by
  interval_cases value <;> rfl

/-- A blank of the ASCII range. -/
def IsBlank (c : Char) : Prop := c.toNat = 32 ∨ (9 ≤ c.toNat ∧ c.toNat ≤ 13)

instance (c : Char) : Decidable (IsBlank c) := inferInstanceAs (Decidable (_ ∨ _))

theorem not_isBlank_digit {value : ℕ} (h : value < 16) : ¬ IsBlank (digit value) := by
  interval_cases value <;> decide

/-- The two digits of every byte. -/
def toDigits : List UInt8 → List Char
  | [] => []
  | byte :: bytes => digit (byte.toNat / 16) :: digit (byte.toNat % 16) :: toDigits bytes

/-- The bytes of a text of digits, or nothing when it is malformed. -/
def ofDigits : List Char → Option (List UInt8)
  | [] => some []
  | [c] => if IsBlank c then some [] else none
  | c :: d :: rest =>
    if IsBlank c then ofDigits (d :: rest)
    else do
      let high ← digitValue c
      let low ← digitValue d
      let bytes ← ofDigits rest
      return UInt8.ofNat (16 * high + low) :: bytes

variable (bytes : List UInt8)

theorem ofDigits_toDigits : ofDigits (toDigits bytes) = some bytes := by
  induction bytes with
  | nil => rfl
  | cons byte bytes ih =>
    have hbyte : byte.toNat < 256 := byte.toNat_lt
    have hhigh : byte.toNat / 16 < 16 := by omega
    have hlow : byte.toNat % 16 < 16 := by omega
    have hsplit : 16 * (byte.toNat / 16) + byte.toNat % 16 = byte.toNat := by omega
    rw [toDigits, ofDigits, if_neg (not_isBlank_digit hhigh), digitValue_digit hhigh,
      digitValue_digit hlow, ih]
    simp only [Option.bind_eq_bind, Option.bind_some, hsplit, UInt8.ofNat_toNat]
    rfl

theorem length_toDigits : (toDigits bytes).length = 2 * bytes.length := by
  induction bytes with
  | nil => rfl
  | cons byte bytes ih =>
    rw [toDigits, List.length_cons, List.length_cons, ih, List.length_cons]
    omega

/-- The text of a byte string. -/
def toText (bytes : List UInt8) : String := String.ofList (toDigits bytes)

theorem length_toText : (toText bytes).length = 2 * bytes.length := by
  rw [toText, String.length_ofList, length_toDigits]

/-- The bytes of a text. -/
def ofText (text : String) : Option (List UInt8) := ofDigits text.toList

@[simp]
theorem ofText_toText : ofText (toText bytes) = some bytes := by
  rw [ofText, toText, String.toList_ofList, ofDigits_toDigits]

/-- A text without a prefix `0x`. -/
def stripPrefix (text : List Char) : List Char :=
  if ['0', 'x'].isPrefixOf text then text.drop 2 else text

theorem stripPrefix_toDigits : stripPrefix (toDigits bytes) = toDigits bytes := by
  cases bytes with
  | nil => rfl
  | cons byte bytes =>
    have hdigit : ∀ value : ℕ, value < 16 → 'x' ≠ digit value := by
      intro value hvalue
      interval_cases value <;> decide
    have hbyte : byte.toNat < 256 := byte.toNat_lt
    rw [stripPrefix, if_neg]
    rw [toDigits]
    simp only [List.isPrefixOf, Bool.and_eq_true, beq_iff_eq, not_and]
    intro _ hx
    exact absurd hx (hdigit _ (by omega))

end Hex

/-!
## Base64 texts of byte strings

Four digits for three bytes, with the padding `=` in the last group. A text is read group by group;
the bits that the padding leaves over are not checked, so that several texts have the same bytes.
Reading what was written gives the bytes back (`decode_encode`).
-/

namespace Base64

/-- The digit of a value below 64. -/
def digit (value : ℕ) : Char :=
  if value < 26 then Char.ofNat (65 + value)
  else if value < 52 then Char.ofNat (71 + value)
  else if value < 62 then Char.ofNat (value - 4)
  else if value = 62 then '+'
  else '/'

/-- The value of a digit. -/
def digitValue (c : Char) : Option ℕ :=
  if 65 ≤ c.toNat ∧ c.toNat ≤ 90 then some (c.toNat - 65)
  else if 97 ≤ c.toNat ∧ c.toNat ≤ 122 then some (c.toNat - 71)
  else if 48 ≤ c.toNat ∧ c.toNat ≤ 57 then some (c.toNat + 4)
  else if c = '+' then some 62
  else if c = '/' then some 63
  else none

variable {value : ℕ}

theorem digitValue_digit (h : value < 64) : digitValue (digit value) = some value := by
  interval_cases value <;> rfl

theorem digit_ne_pad (h : value < 64) : digit value ≠ '=' := by
  interval_cases value <;> decide

/-- The text of a byte string. -/
def encode : List UInt8 → List Char
  | [] => []
  | [a] => [digit (a.toNat / 4), digit (a.toNat % 4 * 16), '=', '=']
  | [a, b] =>
    [digit (a.toNat / 4), digit (a.toNat % 4 * 16 + b.toNat / 16), digit (b.toNat % 16 * 4), '=']
  | a :: b :: c :: rest =>
    digit (a.toNat / 4) :: digit (a.toNat % 4 * 16 + b.toNat / 16) ::
      digit (b.toNat % 16 * 4 + c.toNat / 64) :: digit (c.toNat % 64) :: encode rest

/-- The bytes of a text, or nothing when it is malformed. -/
def decode : List Char → Option (List UInt8)
  | [] => some []
  | p :: q :: r :: s :: rest => do
    let first ← digitValue p
    let second ← digitValue q
    let a := UInt8.ofNat (first * 4 + second / 16)
    if rest = [] ∧ r = '=' ∧ s = '=' then return [a]
    let third ← digitValue r
    let b := UInt8.ofNat (second % 16 * 16 + third / 4)
    if rest = [] ∧ s = '=' then return [a, b]
    let fourth ← digitValue s
    let c := UInt8.ofNat (third % 4 * 64 + fourth)
    let bytes ← decode rest
    return a :: b :: c :: bytes
  | _ => none

theorem ofNat_parts (byte : UInt8) (h : value = byte.toNat) : UInt8.ofNat value = byte := by
  rw [h, UInt8.ofNat_toNat]

@[simp]
theorem decode_encode (bytes : List UInt8) : decode (encode bytes) = some bytes := by
  fun_induction encode with
  | case1 => rfl
  | case2 a =>
    have ha : a.toNat < 256 := a.toNat_lt
    rw [decode, digitValue_digit (by omega), digitValue_digit (by omega)]
    simp only [Option.bind_eq_bind, Option.bind_some, and_self, if_true]
    rw [ofNat_parts a (by omega)]
    rfl
  | case3 a b =>
    have ha : a.toNat < 256 := a.toNat_lt
    have hb : b.toNat < 256 := b.toNat_lt
    have hpad : digit (b.toNat % 16 * 4) ≠ '=' := digit_ne_pad (by omega)
    rw [decode, digitValue_digit (by omega), digitValue_digit (by omega),
      digitValue_digit (by omega)]
    simp only [Option.bind_eq_bind, Option.bind_some, hpad, false_and, and_false, if_false, and_self,
      if_true]
    rw [ofNat_parts a (by omega), ofNat_parts b (by omega)]
    rfl
  | case4 a b c rest ih =>
    have ha : a.toNat < 256 := a.toNat_lt
    have hb : b.toNat < 256 := b.toNat_lt
    have hc : c.toNat < 256 := c.toNat_lt
    have hpad : digit (b.toNat % 16 * 4 + c.toNat / 64) ≠ '=' := digit_ne_pad (by omega)
    have hpad' : digit (c.toNat % 64) ≠ '=' := digit_ne_pad (by omega)
    rw [decode, digitValue_digit (by omega), digitValue_digit (by omega),
      digitValue_digit (by omega), digitValue_digit (by omega), ih]
    simp only [Option.bind_eq_bind, Option.bind_some, hpad, hpad', and_false, if_false]
    rw [ofNat_parts a (by omega), ofNat_parts b (by omega), ofNat_parts c (by omega)]
    rfl

end Base64

/-!
## Lower case

`str.lower` maps a text by tables of the Unicode standard. What a program may rely on are its laws:
lower-casing again changes nothing, and only the empty text becomes empty. `LowerCase.ascii` is the
mapping of the ASCII letters.
-/

/-- A mapping to lower case. -/
structure LowerCase where
  lower : String → String
  lower_lower : ∀ s, lower (lower s) = lower s
  lower_ne_empty : ∀ s, s ≠ "" → lower s ≠ ""

namespace LowerCase

attribute [simp] lower_lower

theorem toLower_of_isUpper_eq_false {c : Char} (h : c.isUpper = false) : c.toLower = c := by
  delta Char.isUpper at h
  delta Char.toLower
  grind

theorem isUpper_toLower (c : Char) : c.toLower.isUpper = false := by
  delta Char.toLower Char.isUpper
  grind

/-- The mapping of the ASCII letters. -/
def ascii : LowerCase where
  lower s := String.ofList (s.toList.map Char.toLower)
  lower_lower s := by
    rw [String.toList_ofList, List.map_map]
    congr 1
    exact List.map_congr_left fun c _ => toLower_of_isUpper_eq_false (isUpper_toLower c)
  lower_ne_empty s h := by
    intro hempty
    have hnil : s.toList.map Char.toLower = [] := by
      simpa using congrArg String.toList hempty
    exact h (by simpa using hnil)

end LowerCase
