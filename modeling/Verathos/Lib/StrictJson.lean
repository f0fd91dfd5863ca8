import Mathlib.Data.FinEnum
import Verathos.Lib.Json

/-!
# JSON documents in bytes

A document is the ASCII encoding of a JSON text. The strict reader refuses an object with a key
twice, as a hook on the pairs of an object does, and the constants that are no JSON. What the
compact writer writes for a value in the order of its keys is read back (`read_write`).
-/

namespace StrictJson

open Json

/-- What is wrong with a document. -/
inductive Fault where
  | malformed
  /-- The text has one of the constants that are no JSON. -/
  | constant
  | duplicate
deriving DecidableEq

/-- The text of ASCII bytes. -/
def decodeAscii (bytes : List UInt8) : Option (List Char) :=
  if ∀ byte ∈ bytes, byte < 128 then some (bytes.map fun byte => Char.ofNat byte.toNat) else none

mutual

/-- The value has none of the constants that are no JSON. -/
def noConstants : Json → Bool
  | .constant _ => false
  | .arr items => noConstantsItems items
  | .obj members => noConstantsMembers members
  | _ => true

/-- `noConstants` for the items of an array. -/
def noConstantsItems : List Json → Bool
  | [] => true
  | item :: items => noConstants item && noConstantsItems items

/-- `noConstants` for the members of an object. -/
def noConstantsMembers : List (String × Json) → Bool
  | [] => true
  | (_, value) :: members => noConstants value && noConstantsMembers members

end

mutual

/-- No object of the value has a key twice. -/
def uniqueKeys : Json → Bool
  | .arr items => uniqueKeysItems items
  | .obj members => decide (members.map Prod.fst).Nodup && uniqueKeysMembers members
  | _ => true

/-- `uniqueKeys` for the items of an array. -/
def uniqueKeysItems : List Json → Bool
  | [] => true
  | item :: items => uniqueKeys item && uniqueKeysItems items

/-- `uniqueKeys` for the members of an object. -/
def uniqueKeysMembers : List (String × Json) → Bool
  | [] => true
  | (_, value) :: members => uniqueKeys value && uniqueKeysMembers members

end

/-- The value of a document. The text is read before its objects are checked, so of two faults the
earlier one in the text is not always the one that is reported. -/
def read (bytes : List UInt8) : Except Fault Json :=
  match (decodeAscii bytes).bind loads with
  | none => .error .malformed
  | some value =>
    if noConstants value = false then .error .constant
    else if uniqueKeys value = false then .error .duplicate
    else .ok value

/-- The compact document of a value, its members in the order of their keys. -/
def write (value : Json) : List UInt8 :=
  (dumps (sortKeys value)).map fun c => UInt8.ofNat c.toNat

/-! ## Texts of values are ASCII -/

/-- The characters of a text are ASCII. -/
def Ascii (text : List Char) : Prop := ∀ c ∈ text, c.toNat < 128

variable {text : List Char}

theorem ascii_cons {c : Char} : Ascii (c :: text) ↔ c.toNat < 128 ∧ Ascii text :=
  List.forall_mem_cons

theorem ascii_append {text' : List Char} : Ascii (text ++ text') ↔ Ascii text ∧ Ascii text' :=
  List.forall_mem_append

theorem ascii_nil : Ascii [] := List.forall_mem_nil _

theorem ascii_of_all (h : (text.all fun c => c.toNat < 128) = true) : Ascii text := by
  intro c hc
  exact of_decide_eq_true (List.all_eq_true.mp h c hc)

theorem toNat_digit_lt {value : ℕ} (h : value < 16) : (Hex.digit value).toNat < 128 := by
  interval_cases value <;> decide

theorem ascii_unicodeEscape {unit : ℕ} (h : unit < 65536) : Ascii (unicodeEscape unit) := by
  simp only [unicodeEscape, ascii_cons]
  refine ⟨by decide, by decide, toNat_digit_lt (by omega), toNat_digit_lt (by omega),
    toNat_digit_lt (by omega), toNat_digit_lt (by omega), ascii_nil⟩

theorem ascii_escape (c : Char) : Ascii (escape c) := by
  unfold escape
  cases hshort : shortEscape c with
  | some letter =>
    have hletter : letter.toNat < 128 := by
      unfold shortEscape at hshort
      split_ifs at hshort <;>
        · obtain rfl := Option.some.inj hshort
          decide
    simp only [ascii_cons]
    exact ⟨by decide, hletter, ascii_nil⟩
  | none =>
    have hvalid := toNat_valid c
    simp only
    split_ifs with hprintable hunit
    · exact ascii_cons.mpr ⟨by omega, ascii_nil⟩
    · exact ascii_unicodeEscape hunit
    · exact ascii_append.mpr ⟨ascii_unicodeEscape (by omega), ascii_unicodeEscape (by omega)⟩

theorem ascii_dumpsString (s : String) : Ascii (dumpsString s) := by
  simp only [dumpsString, ascii_cons, ascii_append]
  refine ⟨by decide, fun c hc => ?_, by decide, ascii_nil⟩
  obtain ⟨d, -, hd⟩ := List.mem_flatMap.mp hc
  exact ascii_escape d c hd

theorem ascii_dumpsInt (n : ℤ) : Ascii (dumpsInt n) := by
  have hdigits : Ascii (Nat.toDigits 10 n.natAbs) := by
    intro c hc
    have hdigit := Nat.isDigit_of_mem_toDigits (by decide) (by decide) hc
    simp only [Char.isDigit, Bool.and_eq_true, decide_eq_true_eq] at hdigit
    have hle : c.toNat ≤ 57 := hdigit.2
    omega
  rw [dumpsInt]
  split_ifs
  · exact ascii_cons.mpr ⟨by decide, hdigits⟩
  · exact hdigits

mutual

theorem ascii_dumps : ∀ v : Json, Plain v → Ascii (dumps v)
  | .null, _ => by rw [dumps]; exact ascii_of_all (by decide)
  | .bool true, _ => by rw [dumps]; exact ascii_of_all (by decide)
  | .bool false, _ => by rw [dumps]; exact ascii_of_all (by decide)
  | .int n, _ => by
    rw [dumps]
    exact ascii_dumpsInt n
  | .str s, _ => by
    rw [dumps]
    exact ascii_dumpsString s
  | .arr [], _ => by rw [dumps]; exact ascii_of_all (by decide)
  | .arr (item :: items), h => by
    rw [dumps, ascii_cons, ascii_append]
    exact ⟨by decide, ascii_dumps item h.1, ascii_dumpsItems items h.2⟩
  | .obj [], _ => by rw [dumps]; exact ascii_of_all (by decide)
  | .obj ((key, value) :: members), h => by
    rw [dumps, ascii_cons, ascii_append, ascii_cons, ascii_append]
    exact ⟨by decide, ascii_dumpsString key, by decide, ascii_dumps value h.1,
      ascii_dumpsMembers members h.2⟩

theorem ascii_dumpsItems : ∀ items : List Json, PlainItems items → Ascii (dumpsItems items)
  | [], _ => by rw [dumpsItems]; exact ascii_of_all (by decide)
  | item :: items, h => by
    rw [dumpsItems, ascii_cons, ascii_append]
    exact ⟨by decide, ascii_dumps item h.1, ascii_dumpsItems items h.2⟩

theorem ascii_dumpsMembers :
    ∀ members : List (String × Json), PlainMembers members → Ascii (dumpsMembers members)
  | [], _ => by rw [dumpsMembers]; exact ascii_of_all (by decide)
  | (key, value) :: members, h => by
    rw [dumpsMembers, ascii_cons, ascii_append, ascii_cons, ascii_append]
    exact ⟨by decide, ascii_dumpsString key, by decide, ascii_dumps value h.1,
      ascii_dumpsMembers members h.2⟩

end

/-! ## What was written is read back -/

theorem decodeAscii_map (h : Ascii text) :
    decodeAscii (text.map fun c => UInt8.ofNat c.toNat) = some text := by
  have hbyte : ∀ c ∈ text, (UInt8.ofNat c.toNat).toNat = c.toNat := by
    intro c hc
    have hlt := h c hc
    rw [UInt8.toNat_ofNat']
    omega
  unfold decodeAscii
  rw [if_pos]
  · rw [List.map_map, Option.some.injEq]
    conv_rhs => rw [← List.map_id text]
    apply List.map_congr_left
    intro c hc
    rw [Function.comp_apply, hbyte c hc, Char.ofNat_toNat, id]
  · intro byte hmem
    obtain ⟨c, hc, rfl⟩ := List.mem_map.mp hmem
    rw [UInt8.lt_iff_toNat_lt, hbyte c hc]
    exact h c hc

mutual

theorem noConstants_of_plain : ∀ {v : Json}, Plain v → noConstants v = true
  | .null, _ => rfl
  | .bool _, _ => rfl
  | .int _, _ => rfl
  | .str _, _ => rfl
  | .arr _, h => noConstantsItems_of_plain h
  | .obj _, h => noConstantsMembers_of_plain h

theorem noConstantsItems_of_plain : ∀ {items : List Json}, PlainItems items →
    noConstantsItems items = true
  | [], _ => rfl
  | item :: items, h => by
    rw [noConstantsItems, noConstants_of_plain h.1, noConstantsItems_of_plain h.2]
    rfl

theorem noConstantsMembers_of_plain : ∀ {members : List (String × Json)}, PlainMembers members →
    noConstantsMembers members = true
  | [], _ => rfl
  | (key, value) :: members, h => by
    rw [noConstantsMembers, noConstants_of_plain h.1, noConstantsMembers_of_plain h.2]
    rfl

end

/-- A value that the writer keeps as it is: no floats, and every object in the order of its keys,
none of which it has twice. -/
structure Canonical (v : Json) : Prop where
  plain : Plain v
  sorted : sortKeys v = v
  unique : uniqueKeys v = true

theorem canonical_int (n : ℤ) : Canonical (.int n) := ⟨trivial, rfl, rfl⟩

theorem canonical_bool (b : Bool) : Canonical (.bool b) := ⟨trivial, rfl, rfl⟩

theorem canonical_str (s : String) : Canonical (.str s) := ⟨trivial, rfl, rfl⟩

theorem uniqueKeysItems_iff {items : List Json} :
    uniqueKeysItems items = true ↔ ∀ item ∈ items, uniqueKeys item = true := by
  induction items with
  | nil => simp [uniqueKeysItems]
  | cons item items ih => rw [uniqueKeysItems, Bool.and_eq_true, ih, List.forall_mem_cons]

theorem uniqueKeysMembers_iff {members : List (String × Json)} :
    uniqueKeysMembers members = true ↔ ∀ entry ∈ members, uniqueKeys entry.2 = true := by
  induction members with
  | nil => simp [uniqueKeysMembers]
  | cons entry members ih => rw [uniqueKeysMembers, Bool.and_eq_true, ih, List.forall_mem_cons]

theorem canonical_arr {items : List Json} (h : ∀ item ∈ items, Canonical item) :
    Canonical (.arr items) := by
  refine ⟨plainItems_iff.mpr fun item hitem => (h item hitem).plain, ?_,
    uniqueKeysItems_iff.mpr fun item hitem => (h item hitem).unique⟩
  rw [sortKeys, sortKeysItems_eq]
  congr 1
  conv_rhs => rw [← List.map_id items]
  exact List.map_congr_left fun item hitem => (h item hitem).sorted

theorem canonical_obj {members : List (String × Json)}
    (hkeys : (members.map Prod.fst).Pairwise (· < ·)) (h : ∀ entry ∈ members, Canonical entry.2) :
    Canonical (.obj members) := by
  refine ⟨plainMembers_iff.mpr fun entry hentry => (h entry hentry).plain, ?_, ?_⟩
  · have hvalues : sortKeysMembers members = members := by
      rw [sortKeysMembers_eq]
      conv_rhs => rw [← List.map_id members]
      refine List.map_congr_left fun entry hentry => ?_
      rw [(h entry hentry).sorted]
      rfl
    have hle : members.Pairwise fun a b => a.1 ≤ b.1 :=
      (List.pairwise_map.mp hkeys).imp fun hlt => hlt.le
    rw [sortKeys, hvalues, hle.insertionSort_eq]
  · have hnodup : (members.map Prod.fst).Nodup := hkeys.imp fun hlt => hlt.ne
    rw [uniqueKeys, Bool.and_eq_true, decide_eq_true_eq]
    exact ⟨hnodup, uniqueKeysMembers_iff.mpr fun entry hentry => (h entry hentry).unique⟩

theorem read_write {v : Json} (h : Canonical v) : read (write v) = .ok v := by
  rw [read, write, h.sorted, decodeAscii_map (ascii_dumps v h.plain), Option.bind_some,
    loads_dumps h.plain]
  simp only [noConstants_of_plain h.plain, h.unique, Bool.true_eq_false, if_false]

theorem length_write {v : Json} (h : Canonical v) : (write v).length = (dumps v).length := by
  rw [write, h.sorted, List.length_map]

theorem write_ne_nil {v : Json} (h : Canonical v) : write v ≠ [] := by
  rw [write, h.sorted, ne_eq, List.map_eq_nil_iff]
  exact dumps_ne_nil h.plain

end StrictJson
