import Mathlib.Data.String.Basic
import Verathos.Lib.Texts
import Verathos.Lib.OrderedDict

/-!
# JSON texts

JSON values with the compact ASCII text that a writer gives them and the reader that takes any JSON
text apart, as Python's `json.dumps(value, sort_keys=True, separators=(",", ":"))` and `json.loads`
do.

The module introduces:

* `Json`: the values. An object is the list of its pairs in the order of the text, a number that is
  not an integer is the text of it;
* `Json.dumps` and `Json.sortKeys`: the writer, and the order in which it writes the members;
* `Json.loads`: the reader. It also takes blanks between tokens, escapes that the writer does not
  use and the constants `NaN`, `Infinity` and `-Infinity`;
* `Json.dict`: an object as a dictionary, in which the last of several equal keys counts.

A text is a list of Unicode scalar values: the reader refuses the escape of an unpaired surrogate.
What was written is read back (`Json.loads_dumps`).
-/

/-- A JSON value. -/
inductive Json where
  | null
  | bool (b : Bool)
  | int (n : ℤ)
  /-- A number with a fraction or an exponent, by its text. -/
  | float (text : List Char)
  | constant (text : List Char)
  | str (s : String)
  | arr (items : List Json)
  | obj (members : List (String × Json))

namespace Json

/-- The characters that delimit a string and start an escape. -/
def quote : Char := '\x22'

/-- See `quote`. -/
def backslash : Char := '\x5c'

/-- The braces of an object. -/
def openBrace : Char := '\x7b'

/-- See `openBrace`. -/
def closeBrace : Char := '\x7d'

/-! ## Characters of a string -/

/-- The escape of a UTF-16 code unit. -/
def unicodeEscape (unit : ℕ) : List Char :=
  [backslash, 'u', Hex.digit (unit / 4096), Hex.digit (unit / 256 % 16),
    Hex.digit (unit / 16 % 16), Hex.digit (unit % 16)]

/-- The letter of a two-character escape. -/
def shortEscape (c : Char) : Option Char :=
  if c = quote then some quote
  else if c = backslash then some backslash
  else if c = '\n' then some 'n'
  else if c = '\r' then some 'r'
  else if c = '\t' then some 't'
  else if c = '\x0c' then some 'f'
  else if c = '\x08' then some 'b'
  else none

/-- What stands for a character between quotes. -/
def escape (c : Char) : List Char :=
  match shortEscape c with
  | some letter => [backslash, letter]
  | none =>
    if 32 ≤ c.toNat ∧ c.toNat ≤ 126 then [c]
    else if c.toNat < 65536 then unicodeEscape c.toNat
    else
      unicodeEscape (55296 + (c.toNat - 65536) / 1024) ++
        unicodeEscape (56320 + (c.toNat - 65536) % 1024)

/-- Four hexadecimal digits. -/
def readUnit : List Char → Option (ℕ × List Char)
  | a :: b :: c :: d :: rest => do
    let a ← Hex.digitValue a
    let b ← Hex.digitValue b
    let c ← Hex.digitValue c
    let d ← Hex.digitValue d
    return (4096 * a + 256 * b + 16 * c + d, rest)
  | _ => none

/-- The second unit of a surrogate pair. -/
def readLow : List Char → Option (ℕ × List Char)
  | c :: d :: rest => do
    guard (c = backslash ∧ d = 'u')
    let (low, rest) ← readUnit rest
    guard (56320 ≤ low ∧ low < 57344)
    return (low, rest)
  | _ => none

/-- The character of a `\u` escape. -/
def readUnicode (text : List Char) : Option (Char × List Char) := do
  let (unit, rest) ← readUnit text
  if 55296 ≤ unit ∧ unit < 56320 then
    let (low, rest) ← readLow rest
    return (Char.ofNat (65536 + (unit - 55296) * 1024 + (low - 56320)), rest)
  else
    guard (unit < 55296 ∨ 57344 ≤ unit)
    return (Char.ofNat unit, rest)

/-- The character that a letter after a backslash stands for. -/
def unescape (letter : Char) : Option Char :=
  if letter = quote then some quote
  else if letter = backslash then some backslash
  else if letter = '/' then some '/'
  else if letter = 'b' then some '\x08'
  else if letter = 'f' then some '\x0c'
  else if letter = 'n' then some '\n'
  else if letter = 'r' then some '\r'
  else if letter = 't' then some '\t'
  else none

/-- One character of a string. -/
def readChar : List Char → Option (Char × List Char)
  | [] => none
  | c :: rest =>
    if c = backslash then
      match rest with
      | [] => none
      | letter :: rest =>
        if letter = 'u' then readUnicode rest
        else (unescape letter).map fun c => (c, rest)
    else if c.toNat < 32 then none
    else some (c, rest)

/-- The characters up to the closing quote. -/
def readString : ℕ → List Char → Option (List Char × List Char)
  | 0, _ => none
  | fuel + 1, text =>
    if text.head? = some quote then some ([], text.tail)
    else do
      let (c, rest) ← readChar text
      let (cs, rest) ← readString fuel rest
      return (c :: cs, rest)

/-- The text of a string. -/
def dumpsString (s : String) : List Char :=
  quote :: (s.toList.flatMap escape ++ [quote])

theorem readUnit_unicodeEscape {unit : ℕ} (h : unit < 65536) (rest : List Char) :
    readUnit ((unicodeEscape unit).drop 2 ++ rest) = some (unit, rest) := by
  have hvalue : 4096 * (unit / 4096) + 256 * (unit / 256 % 16) + 16 * (unit / 16 % 16) +
      unit % 16 = unit := by omega
  change readUnit (Hex.digit (unit / 4096) :: Hex.digit (unit / 256 % 16) ::
    Hex.digit (unit / 16 % 16) :: Hex.digit (unit % 16) :: rest) = _
  rw [readUnit, Hex.digitValue_digit (by omega), Hex.digitValue_digit (by omega),
    Hex.digitValue_digit (by omega), Hex.digitValue_digit (by omega)]
  simp only [Option.bind_eq_bind, Option.bind_some, hvalue]
  rfl

theorem readChar_unicodeEscape (unit : ℕ) (rest : List Char) :
    readChar (unicodeEscape unit ++ rest) = readUnicode ((unicodeEscape unit).drop 2 ++ rest) := by
  rfl

theorem readLow_unicodeEscape {low : ℕ} (hlow : 56320 ≤ low) (hlow' : low < 57344)
    (rest : List Char) : readLow (unicodeEscape low ++ rest) = some (low, rest) := by
  have hread := readUnit_unicodeEscape (show low < 65536 by omega) rest
  change (do
    guard (backslash = backslash ∧ 'u' = 'u')
    let (low, rest) ← readUnit ((unicodeEscape low).drop 2 ++ rest)
    guard (56320 ≤ low ∧ low < 57344)
    return (low, rest)) = _
  rw [hread]
  simp [hlow, hlow']

theorem readUnicode_unit {unit : ℕ} (hunit : unit < 65536)
    (hvalid : unit < 55296 ∨ 57344 ≤ unit) (rest : List Char) :
    readUnicode ((unicodeEscape unit).drop 2 ++ rest) = some (Char.ofNat unit, rest) := by
  rw [readUnicode, readUnit_unicodeEscape hunit]
  dsimp only [Option.bind_eq_bind, Option.bind_some]
  rw [if_neg (by omega)]
  simp [hvalid]

theorem readUnicode_pair {n : ℕ} (hn : n < 1048576) (rest : List Char) :
    readUnicode ((unicodeEscape (55296 + n / 1024)).drop 2 ++
      (unicodeEscape (56320 + n % 1024) ++ rest)) = some (Char.ofNat (65536 + n), rest) := by
  have hpoint : 65536 + (55296 + n / 1024 - 55296) * 1024 + (56320 + n % 1024 - 56320) =
      65536 + n := by omega
  rw [readUnicode, readUnit_unicodeEscape (by omega)]
  dsimp only [Option.bind_eq_bind, Option.bind_some]
  rw [if_pos (by omega), readLow_unicodeEscape (by omega) (by omega), Option.bind_some, hpoint]
  rfl

theorem toNat_valid (c : Char) : c.toNat < 55296 ∨ 57343 < c.toNat ∧ c.toNat < 1114112 := by
  simpa [UInt32.isValidChar, Nat.isValidChar] using c.valid

theorem readChar_escape (c : Char) (rest : List Char) :
    readChar (escape c ++ rest) = some (c, rest) := by
  unfold escape
  cases hshort : shortEscape c with
  | some letter =>
    -- each letter stands for the character it was chosen for
    have hletter : unescape letter = some c ∧ letter ≠ 'u' := by
      unfold shortEscape at hshort
      split_ifs at hshort with h h h h h h h <;>
        · subst h
          obtain rfl := Option.some.inj hshort
          decide
    simp [readChar, hletter]
  | none =>
    have hbackslash : c ≠ backslash := by
      rintro rfl
      exact absurd hshort (by decide)
    simp only
    split_ifs with hprintable hunit
    · simp [readChar, hbackslash, hprintable.1]
    · have hvalid := toNat_valid c
      rw [readChar_unicodeEscape, readUnicode_unit hunit (by omega), Char.ofNat_toNat]
    · have hvalid := toNat_valid c
      have hpoint : 65536 + (c.toNat - 65536) = c.toNat := by omega
      rw [List.append_assoc, readChar_unicodeEscape, readUnicode_pair (by omega), hpoint,
        Char.ofNat_toNat]

/-- What stands for a character does not start with a quote, which would end the string. -/
theorem head?_escape_append (c : Char) (rest : List Char) :
    ∃ d, (escape c ++ rest).head? = some d ∧ d ≠ quote := by
  unfold escape
  cases hshort : shortEscape c with
  | some letter => exact ⟨backslash, rfl, by decide⟩
  | none =>
    simp only
    split_ifs
    · refine ⟨c, rfl, ?_⟩
      rintro rfl
      exact absurd hshort (by decide)
    · exact ⟨backslash, rfl, by decide⟩
    · exact ⟨backslash, rfl, by decide⟩

variable {fuel : ℕ}

/-- A string is read back when there is fuel for each character and the closing quote. -/
theorem readString_flatMap_escape {cs : List Char} (hfuel : cs.length < fuel) (rest : List Char) :
    readString fuel (cs.flatMap escape ++ quote :: rest) = some (cs, rest) := by
  induction cs generalizing fuel with
  | nil =>
    obtain ⟨fuel, rfl⟩ : ∃ n, fuel = n + 1 := ⟨fuel - 1, by simp at hfuel; omega⟩
    simp [readString]
  | cons c cs ih =>
    obtain ⟨fuel, rfl⟩ : ∃ n, fuel = n + 1 := ⟨fuel - 1, by simp at hfuel; omega⟩
    obtain ⟨d, hhead, hd⟩ := head?_escape_append c (cs.flatMap escape ++ quote :: rest)
    rw [List.flatMap_cons, List.append_assoc, readString, hhead, if_neg (by simpa using hd),
      readChar_escape]
    dsimp only [Option.bind_eq_bind, Option.bind_some]
    rw [ih (by simpa using hfuel)]
    rfl

/-! ## Numbers -/

/-- The text of an integer. -/
def dumpsInt (n : ℤ) : List Char :=
  if n < 0 then '-' :: Nat.toDigits 10 n.natAbs else Nat.toDigits 10 n.natAbs

/-- The digits at the front of a text. -/
def spanDigits (text : List Char) : List Char × List Char := text.span Char.isDigit

/-- The digits of an integer part, which has no leading zero. -/
def readDigits : List Char → Option (List Char × List Char)
  | [] => none
  | c :: rest =>
    if c = '0' then some (['0'], rest)
    else if c.isDigit then some (spanDigits (c :: rest))
    else none

/-- What follows a fraction, or the text itself. -/
def skipFraction (text : List Char) : List Char :=
  match text with
  | c :: rest => if c = '.' ∧ (spanDigits rest).1 ≠ [] then (spanDigits rest).2 else text
  | [] => text

/-- A text without its sign. -/
def skipSign (text : List Char) : List Char :=
  if text.head? = some '-' ∨ text.head? = some '+' then text.tail else text

/-- What follows an exponent, or the text itself. -/
def skipExponent (text : List Char) : List Char :=
  match text with
  | c :: rest =>
    if (c = 'e' ∨ c = 'E') ∧ (spanDigits (skipSign rest)).1 ≠ [] then
      (spanDigits (skipSign rest)).2
    else text
  | [] => text

/-- A number: an integer unless a fraction or an exponent follows. -/
def readNumber (text : List Char) : Option (Json × List Char) := do
  let negative := decide (text.head? = some '-')
  let (digits, rest) ← readDigits (if negative then text.tail else text)
  let left := skipExponent (skipFraction rest)
  if left.length = rest.length then
    let magnitude : ℤ := Nat.ofDigitChars 10 digits 0
    return (int (if negative then -magnitude else magnitude), rest)
  else
    return (float (text.take (text.length - left.length)), left)

/-- The text does not start with a character that continues a number. -/
def EndsNumber (text : List Char) : Prop :=
  ∀ c ∈ text.head?, c.isDigit = false ∧ c ≠ '.' ∧ c ≠ 'e' ∧ c ≠ 'E'

theorem endsNumber_nil : EndsNumber [] := by
  intro c hc
  cases hc

variable {rest : List Char}

theorem endsNumber_cons {c : Char} (h : c.isDigit = false ∧ c ≠ '.' ∧ c ≠ 'e' ∧ c ≠ 'E') :
    EndsNumber (c :: rest) := by
  intro d hd
  obtain rfl := Option.some.inj hd
  exact h

theorem spanDigits_append {digits : List Char} (hdigits : ∀ c ∈ digits, c.isDigit)
    (hrest : EndsNumber rest) : spanDigits (digits ++ rest) = (digits, rest) := by
  rw [spanDigits, List.span_eq_takeWhile_dropWhile, List.takeWhile_append_of_pos hdigits,
    List.dropWhile_append_of_pos hdigits]
  cases rest with
  | nil => simp
  | cons c rest =>
    have hc := (hrest c rfl).1
    simp [hc]

theorem head?_toDigits {n : ℕ} (hn : 0 < n) : (Nat.toDigits 10 n).head? ≠ some '0' := by
  induction n using Nat.strong_induction_on with
  | _ n ih =>
    rw [Nat.toDigits_eq_if (by decide)]
    split_ifs with hlt
    · interval_cases n <;> decide
    · rw [List.head?_append_of_ne_nil _ Nat.toDigits_ne_nil]
      exact ih (n / 10) (by omega) (by omega)

theorem readDigits_toDigits (n : ℕ) (hrest : EndsNumber rest) :
    readDigits (Nat.toDigits 10 n ++ rest) = some (Nat.toDigits 10 n, rest) := by
  rcases Nat.eq_zero_or_pos n with rfl | hn
  · rfl
  · have hall : ∀ c ∈ Nat.toDigits 10 n, c.isDigit = true :=
      fun c hc => Nat.isDigit_of_mem_toDigits (by decide) (by decide) hc
    have hspan := spanDigits_append hall hrest
    have hhead := head?_toDigits hn
    cases hdigits : Nat.toDigits 10 n with
    | nil => exact absurd hdigits Nat.toDigits_ne_nil
    | cons c digits =>
      rw [hdigits] at hspan hhead hall
      rw [List.cons_append] at hspan ⊢
      rw [readDigits, if_neg (by simpa using hhead), if_pos (hall c List.mem_cons_self), hspan]

theorem skip_eq_self (hrest : EndsNumber rest) : skipExponent (skipFraction rest) = rest := by
  cases rest with
  | nil => rfl
  | cons c rest =>
    have hc := hrest c rfl
    simp [skipFraction, skipExponent, hc]

theorem readNumber_of_readDigits (text : List Char) (negative : Bool) {digits : List Char}
    (hnegative : decide (text.head? = some '-') = negative)
    (hread : readDigits (if negative then text.tail else text) = some (digits, rest))
    (hrest : EndsNumber rest) :
    readNumber text = some (int (if negative then -(Nat.ofDigitChars 10 digits 0 : ℤ)
      else Nat.ofDigitChars 10 digits 0), rest) := by
  unfold readNumber
  rw [hnegative]
  dsimp only
  rw [hread]
  dsimp only [Option.bind_eq_bind, Option.bind_some]
  rw [skip_eq_self hrest, if_pos rfl]
  rfl

variable (n : ℤ)

theorem readNumber_dumpsInt (hrest : EndsNumber rest) :
    readNumber (dumpsInt n ++ rest) = some (int n, rest) := by
  have hread := readDigits_toDigits n.natAbs hrest
  unfold dumpsInt
  split_ifs with hneg
  · rw [readNumber_of_readDigits ('-' :: Nat.toDigits 10 n.natAbs ++ rest) true (by simp) hread hrest,
      Nat.ofDigitChars_ten_toDigits, if_pos rfl]
    congr 3
    omega
  · have hhead : (Nat.toDigits 10 n.natAbs ++ rest).head? ≠ some '-' := by
      rw [List.head?_append_of_ne_nil _ Nat.toDigits_ne_nil]
      intro hdash
      exact absurd (Nat.isDigit_of_mem_toDigits (by decide) (by decide)
        (List.mem_of_mem_head? hdash)) (by decide)
    rw [readNumber_of_readDigits _ false (decide_eq_false hhead) hread hrest,
      Nat.ofDigitChars_ten_toDigits, if_neg (by decide)]
    congr 3
    omega

/-! ## Values -/

mutual

/-- The compact text of a value, its members in the order of the list. -/
def dumps : Json → List Char
  | null => ['n', 'u', 'l', 'l']
  | bool b => if b then ['t', 'r', 'u', 'e'] else ['f', 'a', 'l', 's', 'e']
  | int n => dumpsInt n
  | float text => text
  | constant text => text
  | str s => dumpsString s
  | arr [] => ['[', ']']
  | arr (item :: items) => '[' :: (dumps item ++ dumpsItems items)
  | obj [] => [openBrace, closeBrace]
  | obj ((key, value) :: members) =>
    openBrace :: (dumpsString key ++ ':' :: (dumps value ++ dumpsMembers members))

/-- The further items of an array and its bracket. -/
def dumpsItems : List Json → List Char
  | [] => [']']
  | item :: items => ',' :: (dumps item ++ dumpsItems items)

/-- The further members of an object and its brace. -/
def dumpsMembers : List (String × Json) → List Char
  | [] => [closeBrace]
  | (key, value) :: members =>
    ',' :: (dumpsString key ++ ':' :: (dumps value ++ dumpsMembers members))

end

/-- A blank between tokens. -/
def isBlank (c : Char) : Bool := c = ' ' || c = '\n' || c = '\r' || c = '\t'

/-- The text from its next token on. -/
def skipBlanks (text : List Char) : List Char := text.dropWhile isBlank

/-- What follows a word. -/
def readWord (word : List Char) (value : Json) (text : List Char) : Option (Json × List Char) :=
  if word.isPrefixOf text then some (value, text.drop word.length) else none

/-- The names of the constants that are no JSON. -/
def constantNames : List (List Char) :=
  ["NaN".toList, "Infinity".toList, "-Infinity".toList]

/-- A value that is neither a string nor an array nor an object. -/
def readScalar (text : List Char) : Option (Json × List Char) :=
  readWord ['n', 'u', 'l', 'l'] null text
    <|> readWord ['t', 'r', 'u', 'e'] (bool true) text
    <|> readWord ['f', 'a', 'l', 's', 'e'] (bool false) text
    <|> readNumber text
    <|> constantNames.firstM fun name => readWord name (constant name) text

/-- A string with its quotes. -/
def readText (text : List Char) : Option (String × List Char) :=
  if text.head? = some quote then
    (readString text.length text.tail).map fun result => (String.ofList result.1, result.2)
  else none

mutual

/-- A value at the front of a text. -/
def readValue : ℕ → List Char → Option (Json × List Char)
  | 0, _ => none
  | fuel + 1, text =>
    if text.head? = some quote then
      (readText text).map fun result => (str result.1, result.2)
    else if text.head? = some '[' then
      let rest := skipBlanks text.tail
      if rest.head? = some ']' then some (arr [], rest.tail)
      else (readItems fuel rest).map fun result => (arr result.1, result.2)
    else if text.head? = some openBrace then
      let rest := skipBlanks text.tail
      if rest.head? = some closeBrace then some (obj [], rest.tail)
      else (readMembers fuel rest).map fun result => (obj result.1, result.2)
    else readScalar text

/-- The items of an array up to its bracket. -/
def readItems : ℕ → List Char → Option (List Json × List Char)
  | 0, _ => none
  | fuel + 1, text => do
    let (item, rest) ← readValue fuel text
    let rest := skipBlanks rest
    if rest.head? = some ']' then return ([item], rest.tail)
    guard (rest.head? = some ',')
    let (items, rest) ← readItems fuel (skipBlanks rest.tail)
    return (item :: items, rest)

/-- The members of an object up to its brace. -/
def readMembers : ℕ → List Char → Option (List (String × Json) × List Char)
  | 0, _ => none
  | fuel + 1, text => do
    let (key, rest) ← readText text
    let rest := skipBlanks rest
    guard (rest.head? = some ':')
    let (value, rest) ← readValue fuel (skipBlanks rest.tail)
    let rest := skipBlanks rest
    if rest.head? = some closeBrace then return ([(key, value)], rest.tail)
    guard (rest.head? = some ',')
    let (members, rest) ← readMembers fuel (skipBlanks rest.tail)
    return ((key, value) :: members, rest)

end

/-- The value of a text. Every array or object that is entered takes two units of fuel and a
character. -/
def loads (text : List Char) : Option Json := do
  let (value, rest) ← readValue (2 * text.length + 2) (skipBlanks text)
  guard (skipBlanks rest = [])
  return value

/-! ## Floats -/

/-- The decimal value of the text of a float. -/
def floatValue (text : List Char) : ℚ :=
  let (whole, rest) := spanDigits (skipSign text)
  let fraction := if rest.head? = some '.' then (spanDigits rest.tail).1 else []
  let exponentText := (skipFraction rest).tail
  let exponent : ℤ := Nat.ofDigitChars 10 (spanDigits (skipSign exponentText)).1 0
  let magnitude : ℚ := Nat.ofDigitChars 10 (whole ++ fraction) 0
  let scaled := magnitude *
    10 ^ ((if exponentText.head? = some '-' then -exponent else exponent) - fraction.length)
  if text.head? = some '-' then -scaled else scaled

/-- The double nearest to a text is one. -/
def floatIsOne (text : List Char) : Bool :=
  1 - 1 / 2 ^ 54 ≤ floatValue text && floatValue text ≤ 1 + 1 / 2 ^ 53

/-! ## What was written is read back -/

mutual

/-- No number of the value has a fraction or an exponent, and there are no constants. -/
def Plain : Json → Prop
  | float _ => False
  | constant _ => False
  | arr items => PlainItems items
  | obj members => PlainMembers members
  | _ => True

/-- `Plain` for the items of an array. -/
def PlainItems : List Json → Prop
  | [] => True
  | item :: items => Plain item ∧ PlainItems items

/-- `Plain` for the members of an object. -/
def PlainMembers : List (String × Json) → Prop
  | [] => True
  | (_, value) :: members => Plain value ∧ PlainMembers members

end

theorem skipBlanks_cons {c : Char} (h : isBlank c = false) (rest : List Char) :
    skipBlanks (c :: rest) = c :: rest := by
  simp [skipBlanks, h]

theorem length_le_length_flatMap_escape (cs : List Char) :
    cs.length ≤ (cs.flatMap escape).length := by
  induction cs with
  | nil => exact le_rfl
  | cons c cs ih =>
    have hpos : 0 < (escape c).length := by
      obtain ⟨d, hhead, -⟩ := head?_escape_append c []
      rw [List.append_nil] at hhead
      exact List.length_pos_of_mem (List.mem_of_mem_head? hhead)
    rw [List.flatMap_cons, List.length_append, List.length_cons]
    omega

theorem readText_dumpsString (s : String) (rest : List Char) :
    readText (dumpsString s ++ rest) = some (s, rest) := by
  have htext : dumpsString s ++ rest = quote :: (s.toList.flatMap escape ++ quote :: rest) := by
    simp [dumpsString]
  have hlength : s.toList.length < (dumpsString s ++ rest).length := by
    have hle := length_le_length_flatMap_escape s.toList
    rw [htext, List.length_cons, List.length_append]
    omega
  have hread := readString_flatMap_escape hlength rest
  rw [readText, if_pos (by rw [htext, List.head?_cons]), htext, List.tail_cons, ← htext, hread]
  simp

theorem dumpsInt_eq_cons (rest : List Char) :
    ∃ c text, dumpsInt n ++ rest = c :: text ∧ (c = '-' ∨ c.isDigit = true) := by
  rw [dumpsInt]
  split_ifs
  · exact ⟨'-', _, rfl, Or.inl rfl⟩
  · cases hdigits : Nat.toDigits 10 n.natAbs with
    | nil => exact absurd hdigits Nat.toDigits_ne_nil
    | cons c digits =>
      have hc : c.isDigit = true := Nat.isDigit_of_mem_toDigits (by decide) (by decide)
        (hdigits ▸ List.mem_cons_self)
      exact ⟨c, _, rfl, Or.inr hc⟩

variable {v : Json}

/-- A value starts with a character that is neither blank nor the end of an array. -/
theorem head?_dumps (h : Plain v) (rest : List Char) :
    ∃ c, (dumps v ++ rest).head? = some c ∧ isBlank c = false ∧ c ≠ ']' := by
  cases v with
  | null => exact ⟨'n', rfl, by decide, by decide⟩
  | bool b => cases b <;> exact ⟨_, rfl, by decide, by decide⟩
  | int n =>
    obtain ⟨c, text, htext, hc⟩ := dumpsInt_eq_cons n rest
    refine ⟨c, by rw [dumps, htext, List.head?_cons], ?_, ?_⟩
    · rw [isBlank, ← Bool.not_eq_true]
      simp only [Bool.or_eq_true, decide_eq_true_eq]
      rintro (((rfl | rfl) | rfl) | rfl) <;> exact absurd hc (by decide)
    · rintro rfl
      exact absurd hc (by decide)
  | float text => exact absurd h (by simp [Plain])
  | constant text => exact absurd h (by simp [Plain])
  | str s => exact ⟨quote, rfl, by decide, by decide⟩
  | arr items => cases items <;> exact ⟨'[', rfl, by decide, by decide⟩
  | obj members => rcases members with _ | ⟨⟨key, value⟩, members⟩ <;>
      exact ⟨openBrace, rfl, by decide, by decide⟩

theorem skipBlanks_dumps (h : Plain v) (rest : List Char) :
    skipBlanks (dumps v ++ rest) = dumps v ++ rest := by
  obtain ⟨c, hhead, hblank, -⟩ := head?_dumps h rest
  cases htext : dumps v ++ rest with
  | nil => rfl
  | cons d text =>
    rw [htext] at hhead
    obtain rfl := Option.some.inj hhead
    exact skipBlanks_cons hblank text

variable (items : List Json)

theorem endsNumber_dumpsItems (rest : List Char) : EndsNumber (dumpsItems items ++ rest) := by
  cases items <;> exact endsNumber_cons (by decide)

variable (members : List (String × Json))

theorem endsNumber_dumpsMembers (rest : List Char) : EndsNumber (dumpsMembers members ++ rest) := by
  rcases members with _ | ⟨⟨key, value⟩, members⟩ <;> exact endsNumber_cons (by decide)

theorem readWord_dumpsInt (rest : List Char) {letter : Char} (word : List Char) (value : Json)
    (hletter : letter ≠ '-' ∧ letter.isDigit = false) :
    readWord (letter :: word) value (dumpsInt n ++ rest) = none := by
  obtain ⟨c, text, htext, hc⟩ := dumpsInt_eq_cons n rest
  have hne : letter ≠ c := by
    rintro rfl
    rcases hc with hdash | hdigit
    · exact hletter.1 hdash
    · exact absurd hdigit (by simp [hletter.2])
  rw [htext, readWord, if_neg (by simp [List.isPrefixOf, hne])]

theorem readScalar_dumpsInt (hrest : EndsNumber rest) :
    readScalar (dumpsInt n ++ rest) = some (int n, rest) := by
  rw [readScalar, readNumber_dumpsInt n hrest, readWord_dumpsInt n rest _ _ (by decide),
    readWord_dumpsInt n rest _ _ (by decide), readWord_dumpsInt n rest _ _ (by decide)]
  rfl

theorem skipBlanks_dumpsItems (rest : List Char) :
    skipBlanks (dumpsItems items ++ rest) = dumpsItems items ++ rest := by
  cases items <;> exact skipBlanks_cons (by decide) _

theorem skipBlanks_dumpsMembers (rest : List Char) :
    skipBlanks (dumpsMembers members ++ rest) = dumpsMembers members ++ rest := by
  rcases members with _ | ⟨⟨key, value⟩, members⟩ <;> exact skipBlanks_cons (by decide) _

theorem skipBlanks_dumpsString (s : String) (rest : List Char) :
    skipBlanks (dumpsString s ++ rest) = dumpsString s ++ rest :=
  skipBlanks_cons (by decide) _

theorem readValue_bracket (fuel : ℕ) {text : List Char} (h : (skipBlanks text).head? ≠ some ']') :
    readValue (fuel + 1) ('[' :: text) =
      (readItems fuel (skipBlanks text)).map fun result => (arr result.1, result.2) := by
  have hquote : ('[' :: text).head? ≠ some quote := by
    rw [List.head?_cons]
    decide
  rw [readValue, if_neg hquote, if_pos (List.head?_cons)]
  exact if_neg h

theorem readValue_brace (fuel : ℕ) {text : List Char}
    (h : (skipBlanks text).head? ≠ some closeBrace) :
    readValue (fuel + 1) (openBrace :: text) =
      (readMembers fuel (skipBlanks text)).map fun result => (obj result.1, result.2) := by
  have hquote : (openBrace :: text).head? ≠ some quote := by
    rw [List.head?_cons]
    decide
  have hbracket : (openBrace :: text).head? ≠ some '[' := by
    rw [List.head?_cons]
    decide
  rw [readValue, if_neg hquote, if_neg hbracket, if_pos (List.head?_cons)]
  exact if_neg h

theorem readValue_dumpsInt (fuel : ℕ) (n : ℤ) (hrest : EndsNumber rest) :
    readValue (fuel + 1) (dumpsInt n ++ rest) = some (int n, rest) := by
  obtain ⟨c, text, htext, hc⟩ := dumpsInt_eq_cons n rest
  have hhead (d : Char) (hd : c ≠ d) : (dumpsInt n ++ rest).head? ≠ some d := by
    rw [htext, List.head?_cons]
    simpa using hd
  rw [readValue, if_neg (hhead quote ?_), if_neg (hhead '[' ?_), if_neg (hhead openBrace ?_),
    readScalar_dumpsInt n hrest]
  all_goals
    rintro rfl
    exact absurd hc (by decide)

/-- Every value whose text is covered by the fuel is read back. -/
def ReadsValue (fuel : ℕ) : Prop :=
  ∀ v, Plain v → (dumps v).length ≤ fuel → ∀ rest, EndsNumber rest →
    readValue fuel (dumps v ++ rest) = some (v, rest)

/-- All items of an array are read back. -/
def ReadsItems (fuel : ℕ) : Prop :=
  ∀ item items, Plain item → PlainItems items →
    (dumps item).length + (dumpsItems items).length ≤ fuel → ∀ rest,
      readItems fuel (dumps item ++ (dumpsItems items ++ rest)) = some (item :: items, rest)

/-- All members of an object are read back. -/
def ReadsMembers (fuel : ℕ) : Prop :=
  ∀ key value members, Plain value → PlainMembers members →
    (dumpsString key).length + (dumps value).length + (dumpsMembers members).length ≤ fuel →
      ∀ rest, readMembers fuel
        (dumpsString key ++ ':' :: (dumps value ++ (dumpsMembers members ++ rest))) =
          some ((key, value) :: members, rest)

theorem dumps_ne_nil (h : Plain v) : dumps v ≠ [] := by
  intro hnil
  obtain ⟨c, hhead, -⟩ := head?_dumps h []
  rw [hnil] at hhead
  exact absurd hhead (by simp)

theorem readsValue_succ (hreadItems : ReadsItems fuel) (hreadMembers : ReadsMembers fuel) :
    ReadsValue (fuel + 1) := by
  intro v h hfuel rest hrest
  match v with
  | null => rfl
  | bool true => rfl
  | bool false => rfl
  | int n =>
    rw [dumps]
    exact readValue_dumpsInt fuel n hrest
  | str s =>
    rw [dumps, readValue, if_pos (by rfl), readText_dumpsString]
    rfl
  | arr [] => rfl
  | arr (item :: items) =>
    obtain ⟨hitem, hitems⟩ := h
    rw [dumps, List.length_cons, List.length_append] at hfuel
    have hread := hreadItems item items hitem hitems (by omega) rest
    obtain ⟨c, hhead, -, hc⟩ := head?_dumps hitem (dumpsItems items ++ rest)
    rw [dumps, List.cons_append, List.append_assoc, readValue_bracket, skipBlanks_dumps hitem, hread]
    · rfl
    · rw [skipBlanks_dumps hitem, hhead]
      simpa using hc
  | obj [] => rfl
  | obj ((key, value) :: members) =>
    obtain ⟨hvalue, hmembers⟩ := h
    rw [dumps, List.length_cons, List.length_append, List.length_cons, List.length_append] at hfuel
    have hread := hreadMembers key value members hvalue hmembers (by omega) rest
    rw [dumps, List.cons_append, List.append_assoc, List.cons_append, List.append_assoc,
      readValue_brace, skipBlanks_dumpsString, hread]
    · rfl
    · rw [skipBlanks_dumpsString]
      exact fun hquote => absurd (Option.some.inj hquote) (by decide)

theorem readsItems_succ (hreadValue : ReadsValue fuel) (hreadItems : ReadsItems fuel) :
    ReadsItems (fuel + 1) := by
  intro item items h hitems hfuel rest
  have hlength : 0 < (dumpsItems items).length := by cases items <;> simp [dumpsItems]
  rw [readItems, hreadValue item h (by omega) _ (endsNumber_dumpsItems items rest)]
  dsimp only [Option.bind_eq_bind, Option.bind_some]
  rw [skipBlanks_dumpsItems]
  cases items with
  | nil => rfl
  | cons next items =>
    have hpos := List.length_pos_of_ne_nil (dumps_ne_nil h)
    rw [dumpsItems, List.length_cons, List.length_append] at hfuel
    have hread := hreadItems next items hitems.1 hitems.2 (by omega) rest
    rw [dumpsItems, List.cons_append, List.append_assoc]
    simp [skipBlanks_dumps hitems.1, hread]

theorem readsMembers_succ (hreadValue : ReadsValue fuel) (hreadMembers : ReadsMembers fuel) :
    ReadsMembers (fuel + 1) := by
  intro key value members h hmembers hfuel rest
  have hlength : 0 < (dumpsString key).length := by simp [dumpsString]
  rw [readMembers, readText_dumpsString]
  dsimp only [Option.bind_eq_bind, Option.bind_some]
  rw [skipBlanks_cons (by decide), List.head?_cons, List.tail_cons, skipBlanks_dumps h,
    hreadValue value h (by omega) _ (endsNumber_dumpsMembers members rest)]
  simp only [guard, if_true, Option.pure_def, Option.bind_some]
  rw [skipBlanks_dumpsMembers]
  cases members with
  | nil => rfl
  | cons next members =>
    obtain ⟨next, nextValue⟩ := next
    rw [dumpsMembers, List.length_cons, List.length_append, List.length_cons, List.length_append]
      at hfuel
    have hread := hreadMembers next nextValue members hmembers.1 hmembers.2 (by omega) rest
    have hcomma : ',' ≠ closeBrace := by decide
    rw [dumpsMembers, List.cons_append, List.append_assoc, List.cons_append, List.append_assoc]
    simp [skipBlanks_dumpsString, hread, hcomma]

/-- By induction on the fuel, which a reader passes on less one. -/
theorem reads_of_fuel (fuel : ℕ) : ReadsValue fuel ∧ ReadsItems fuel ∧ ReadsMembers fuel := by
  induction fuel with
  | zero =>
    refine ⟨fun v h hfuel => ?_, fun item items h _ hfuel => ?_,
      fun key value members h _ hfuel => ?_⟩
    · exact absurd (List.length_eq_zero_iff.mp (Nat.le_zero.mp hfuel)) (dumps_ne_nil h)
    · exact absurd (List.length_eq_zero_iff.mp (by omega)) (dumps_ne_nil h)
    · exact absurd (List.length_eq_zero_iff.mp (by omega)) (dumps_ne_nil h)
  | succ fuel ih =>
    obtain ⟨hvalue, hitems, hmembers⟩ := ih
    exact ⟨readsValue_succ hitems hmembers, readsItems_succ hvalue hitems,
      readsMembers_succ hvalue hmembers⟩

theorem loads_dumps (h : Plain v) : loads (dumps v) = some v := by
  have hread := (reads_of_fuel (2 * (dumps v).length + 2)).1 v h (by omega) [] endsNumber_nil
  have hskip := skipBlanks_dumps h []
  rw [List.append_nil] at hread hskip
  rw [loads, hskip, hread]
  rfl

/-! ## Objects -/

mutual

/-- The value with the members of every object in the order of their keys. -/
def sortKeys : Json → Json
  | arr items => arr (sortKeysItems items)
  | obj members => obj ((sortKeysMembers members).insertionSort fun a b => a.1 ≤ b.1)
  | v => v

/-- `sortKeys` for the items of an array. -/
def sortKeysItems : List Json → List Json
  | [] => []
  | item :: items => sortKeys item :: sortKeysItems items

/-- `sortKeys` for the members of an object. -/
def sortKeysMembers : List (String × Json) → List (String × Json)
  | [] => []
  | (key, value) :: members => (key, sortKeys value) :: sortKeysMembers members

end

/-- `json.dumps` with sorted keys and compact separators. -/
def dumpsSorted (v : Json) : String := String.ofList (dumps (sortKeys v))

/-- `json.loads`. -/
def ofString (text : String) : Option Json := loads text.toList

/-- The dictionary of the members of an object. -/
def dict (members : List (String × Json)) : OrderedDict String Json := .ofList members

theorem plainItems_iff {items : List Json} : PlainItems items ↔ ∀ item ∈ items, Plain item := by
  induction items with
  | nil => simp [PlainItems]
  | cons item items ih => rw [PlainItems, ih, List.forall_mem_cons]

theorem plainMembers_iff {members : List (String × Json)} :
    PlainMembers members ↔ ∀ entry ∈ members, Plain entry.2 := by
  induction members with
  | nil => simp [PlainMembers]
  | cons entry members ih => rw [PlainMembers, ih, List.forall_mem_cons]

theorem sortKeysItems_eq : sortKeysItems items = items.map sortKeys := by
  induction items with
  | nil => rfl
  | cons item items ih => rw [sortKeysItems, ih, List.map_cons]

theorem sortKeysMembers_eq :
    sortKeysMembers members = members.map fun entry => (entry.1, sortKeys entry.2) := by
  induction members with
  | nil => rfl
  | cons entry members ih => rw [sortKeysMembers, ih, List.map_cons]

theorem ofString_empty : ofString "" = none := rfl

theorem ofString_dumpsSorted (h : Plain (sortKeys v)) :
    ofString (dumpsSorted v) = some (sortKeys v) := by
  rw [ofString, dumpsSorted, String.toList_ofList, loads_dumps h]

end Json
