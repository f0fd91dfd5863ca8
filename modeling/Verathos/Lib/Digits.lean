import Mathlib.Tactic

/-!
# Digits

Numbers as byte strings, least significant digit first (`LittleEndian`) or last (`BigEndian`), and as
limbs in any base (`Limbs`).
-/

/-!
## Little-endian byte strings

Fixed-width little-endian encodings of natural numbers and of two's-complement integers, as
`struct.pack("<…")` and `int.to_bytes(…, "little")` write them.

The module introduces:

* `toBytes width value`: the `width` low-order base-256 digits of `value`;
* `toNat bytes`: the number that a digit string denotes;
* `toBytesSigned` and `toIntSigned`: the two's-complement pair.

Encoding followed by decoding is the identity on values that fit (`toNat_toBytes`,
`toIntSigned_toBytesSigned`), and decoding followed by encoding is the identity on strings of
the right length (`toBytes_toNat`).
-/

namespace LittleEndian

/-- The `width` low-order base-256 digits of `value`, least significant first. -/
def toBytes : ℕ → ℕ → List UInt8
  | 0, _ => []
  | width + 1, value => UInt8.ofNat value :: toBytes width (value / 256)

/-- The number denoted by a base-256 digit string, least significant digit first. -/
def toNat : List UInt8 → ℕ
  | [] => 0
  | byte :: bytes => byte.toNat + 256 * toNat bytes

@[simp]
theorem length_toBytes (width value : ℕ) : (toBytes width value).length = width := by
  induction width generalizing value with
  | zero => rfl
  | succ width ih => simp [toBytes, ih]

variable {width : ℕ}

theorem length_flatMap_of_length {α : Type*} {encode : α → List UInt8} {items : List α}
    (h : ∀ item ∈ items, (encode item).length = width) :
    (items.flatMap encode).length = width * items.length := by
  induction items with
  | nil => rfl
  | cons item items ih =>
    rw [List.flatMap_cons, List.length_append, h item List.mem_cons_self,
      ih fun other hother => h other (List.mem_cons_of_mem _ hother), List.length_cons]
    ring

theorem toNat_toBytes_mod (width value : ℕ) :
    toNat (toBytes width value) = value % 256 ^ width := by
  induction width generalizing value with
  | zero => simp [toBytes, toNat, Nat.mod_one]
  | succ width ih =>
    have hsplit : value % (256 * 256 ^ width) = value % 256 + 256 * (value / 256 % 256 ^ width) :=
      Nat.mod_mul
    rw [toBytes, toNat, ih, UInt8.toNat_ofNat', pow_succ' 256, hsplit]

@[simp]
theorem toNat_toBytes {value : ℕ} (h : value < 256 ^ width) :
    toNat (toBytes width value) = value := by
  rw [toNat_toBytes_mod, Nat.mod_eq_of_lt h]

theorem toNat_append (bytes more : List UInt8) :
    toNat (bytes ++ more) = toNat bytes + 256 ^ bytes.length * toNat more := by
  induction bytes with
  | nil => simp [toNat]
  | cons byte bytes ih =>
    rw [List.cons_append, toNat, ih, toNat, List.length_cons, pow_succ']
    ring

variable (bytes : List UInt8)

theorem toNat_lt : toNat bytes < 256 ^ bytes.length := by
  induction bytes with
  | nil => simp [toNat]
  | cons byte bytes ih =>
    have hbyte : byte.toNat < 256 := byte.toNat_lt
    rw [toNat, List.length_cons, pow_succ']
    omega

theorem toBytes_toNat : toBytes bytes.length (toNat bytes) = bytes := by
  induction bytes with
  | nil => rfl
  | cons byte bytes ih =>
    have hbyte : byte.toNat < 256 := byte.toNat_lt
    have hdiv : (byte.toNat + 256 * toNat bytes) / 256 = toNat bytes := by omega
    rw [List.length_cons, toBytes, toNat, hdiv, ih]
    congr 1
    apply UInt8.toNat_inj.mp
    rw [UInt8.toNat_ofNat']
    omega

theorem toBytes_inj {a b : ℕ} (ha : a < 256 ^ width) (hb : b < 256 ^ width)
    (h : toBytes width a = toBytes width b) : a = b := by
  rw [← toNat_toBytes ha, ← toNat_toBytes hb, h]

/-! ## Two's complement -/

/-- The two's-complement encoding of `value` in `width` bytes. -/
def toBytesSigned (width : ℕ) (value : ℤ) : List UInt8 :=
  toBytes width (value % 256 ^ width).toNat

/-- The integer denoted by a two's-complement byte string. -/
def toIntSigned (bytes : List UInt8) : ℤ :=
  if 2 * toNat bytes < 256 ^ bytes.length then (toNat bytes : ℤ)
  else (toNat bytes : ℤ) - 256 ^ bytes.length

@[simp]
theorem length_toBytesSigned (width : ℕ) (value : ℤ) :
    (toBytesSigned width value).length = width := by
  simp [toBytesSigned]

theorem toIntSigned_toBytesSigned {value : ℤ} (hlo : -(256 ^ width : ℤ) ≤ 2 * value)
    (hhi : 2 * value < 256 ^ width) : toIntSigned (toBytesSigned width value) = value := by
  have hpos : (0 : ℤ) < 256 ^ width := by positivity
  have hcast : ((256 ^ width : ℕ) : ℤ) = 256 ^ width := by push_cast; rfl
  have hnonneg : 0 ≤ value % 256 ^ width := Int.emod_nonneg _ hpos.ne'
  have hlt : value % 256 ^ width < 256 ^ width := Int.emod_lt_of_pos _ hpos
  have hfit : (value % 256 ^ width).toNat < 256 ^ width := by
    zify
    rw [Int.toNat_of_nonneg hnonneg]
    exact hlt
  have hnat : (toNat (toBytesSigned width value) : ℤ) = value % 256 ^ width := by
    rw [toBytesSigned, toNat_toBytes hfit, Int.toNat_of_nonneg hnonneg]
  rw [toIntSigned, length_toBytesSigned]
  rcases lt_or_ge value 0 with hneg | hpos'
  · -- a negative value is stored as `value + 256 ^ width`
    have hmod : value % 256 ^ width = value + 256 ^ width := by
      rw [← Int.add_emod_right, Int.emod_eq_of_lt (by omega) (by omega)]
    rw [if_neg, hnat, hmod]
    · ring
    · zify
      rw [hnat, hmod]
      omega
  · have hmod : value % 256 ^ width = value := Int.emod_eq_of_lt hpos' (by omega)
    rw [if_pos, hnat, hmod]
    zify
    rw [hnat, hmod]
    exact hhi

theorem toIntSigned_bounds :
    -256 ^ bytes.length ≤ 2 * toIntSigned bytes ∧
      2 * toIntSigned bytes < 256 ^ bytes.length := by
  have hlt : (toNat bytes : ℤ) < 256 ^ bytes.length := by exact_mod_cast toNat_lt bytes
  have hpos : (0 : ℤ) < 256 ^ bytes.length := by positivity
  rw [toIntSigned]
  split_ifs with hsmall
  · have hsmall' : 2 * (toNat bytes : ℤ) < 256 ^ bytes.length := by exact_mod_cast hsmall
    omega
  · have hlarge : (256 : ℤ) ^ bytes.length ≤ 2 * toNat bytes := by
      exact_mod_cast not_lt.mp hsmall
    omega

theorem toBytesSigned_toIntSigned : toBytesSigned bytes.length (toIntSigned bytes) = bytes := by
  have hlt : (toNat bytes : ℤ) < 256 ^ bytes.length := by exact_mod_cast toNat_lt bytes
  have hmod : toIntSigned bytes % 256 ^ bytes.length = toNat bytes := by
    rw [toIntSigned]
    split_ifs
    · exact Int.emod_eq_of_lt (Int.natCast_nonneg _) hlt
    · rw [Int.sub_emod_right, Int.emod_eq_of_lt (Int.natCast_nonneg _) hlt]
  rw [toBytesSigned, hmod, Int.toNat_natCast, toBytes_toNat]

end LittleEndian

/-!
## Big-endian byte strings

Fixed-width big-endian encodings, as `struct.pack(">…")` writes them: the little-endian digits in
the opposite order. Encodings of one width agree only for equal values (`toBytes_inj`,
`toBytesSigned_inj`).
-/

namespace BigEndian

/-- The `width` low-order base-256 digits of `value`, most significant first. -/
def toBytes (width value : ℕ) : List UInt8 := (LittleEndian.toBytes width value).reverse

/-- The number that bytes write. -/
def toNat (bytes : List UInt8) : ℕ := LittleEndian.toNat bytes.reverse

/-- The two's-complement encoding of `value` in `width` bytes, most significant first. -/
def toBytesSigned (width : ℕ) (value : ℤ) : List UInt8 :=
  (LittleEndian.toBytesSigned width value).reverse

/-- The integer that a two's-complement byte string writes. -/
def toIntSigned (bytes : List UInt8) : ℤ := LittleEndian.toIntSigned bytes.reverse

@[simp]
theorem length_toBytes (width value : ℕ) : (toBytes width value).length = width := by
  simp [toBytes]

@[simp]
theorem length_toBytesSigned (width : ℕ) (value : ℤ) :
    (toBytesSigned width value).length = width := by
  simp [toBytesSigned]

theorem toBytes_inj {width a b : ℕ} (ha : a < 256 ^ width) (hb : b < 256 ^ width)
    (h : toBytes width a = toBytes width b) : a = b :=
  LittleEndian.toBytes_inj ha hb (List.reverse_injective h)

theorem toBytesSigned_inj {width : ℕ} {a b : ℤ}
    (ha : -(256 ^ width : ℤ) ≤ 2 * a ∧ 2 * a < 256 ^ width)
    (hb : -(256 ^ width : ℤ) ≤ 2 * b ∧ 2 * b < 256 ^ width)
    (h : toBytesSigned width a = toBytesSigned width b) : a = b := by
  rw [← LittleEndian.toIntSigned_toBytesSigned ha.1 ha.2, List.reverse_injective h,
    LittleEndian.toIntSigned_toBytesSigned hb.1 hb.2]

theorem eq_toBytes_iff {bytes : List UInt8} {value : ℕ} :
    value = toNat bytes ↔
      value < 256 ^ bytes.length ∧ bytes = toBytes bytes.length value := by
  constructor
  · rintro rfl
    have hlt := LittleEndian.toNat_lt bytes.reverse
    rw [List.length_reverse] at hlt
    refine ⟨hlt, ?_⟩
    rw [toBytes, toNat, ← List.length_reverse, LittleEndian.toBytes_toNat,
      List.reverse_reverse]
  · rintro ⟨hlt, hbytes⟩
    rw [hbytes, toNat, toBytes, List.reverse_reverse, LittleEndian.toNat_toBytes hlt]

theorem eq_toBytesSigned_iff {bytes : List UInt8} {value : ℤ} :
    value = toIntSigned bytes ↔
      (-256 ^ bytes.length ≤ 2 * value ∧ 2 * value < 256 ^ bytes.length) ∧
        bytes = toBytesSigned bytes.length value := by
  constructor
  · rintro rfl
    have hbounds := LittleEndian.toIntSigned_bounds bytes.reverse
    rw [List.length_reverse] at hbounds
    refine ⟨hbounds, ?_⟩
    rw [toBytesSigned, toIntSigned, ← List.length_reverse,
      LittleEndian.toBytesSigned_toIntSigned, List.reverse_reverse]
  · rintro ⟨⟨hlow, hhigh⟩, hbytes⟩
    rw [hbytes, toIntSigned, toBytesSigned, List.reverse_reverse,
      LittleEndian.toIntSigned_toBytesSigned hlow hhigh]

end BigEndian

/-!
## Integers in limbs

The integer that a list of limbs denotes in a base, least significant limb first. Limbs below the
base denote an integer below a power of the base, and every such integer is denoted by its digits.
-/

namespace Limbs

/-- The integer denoted by limbs in a base. -/
def value (base : ℤ) : List ℤ → ℤ
  | [] => 0
  | limb :: limbs => limb + base * value base limbs

/-- Every limb is a digit of the base. -/
def IsDigits (base : ℤ) (limbs : List ℤ) : Prop := ∀ limb ∈ limbs, 0 ≤ limb ∧ limb < base

/-- The `count` low-order digits of an integer. -/
def digits (base : ℤ) : ℕ → ℤ → List ℤ
  | 0, _ => []
  | count + 1, n => n % base :: digits base count (n / base)

variable {base : ℤ}

theorem sum_zipIdx (limbs : List ℤ) (start : ℕ) :
    ((limbs.zipIdx start).map fun pair => pair.1 * base ^ pair.2).sum =
      base ^ start * value base limbs := by
  induction limbs generalizing start with
  | nil => simp [value]
  | cons limb limbs ih =>
    rw [List.zipIdx_cons, List.map_cons, List.sum_cons, ih, value, pow_succ]
    ring

theorem value_bounds {limbs : List ℤ} (h : IsDigits base limbs) :
    0 ≤ value base limbs ∧ value base limbs < base ^ limbs.length := by
  induction limbs with
  | nil => simp [value]
  | cons limb limbs ih =>
    obtain ⟨⟨hlow, hhigh⟩, hrest⟩ := List.forall_mem_cons.mp h
    obtain ⟨hnonneg, hlt⟩ := ih hrest
    have hbase : 0 ≤ base := by omega
    rw [value, List.length_cons, pow_succ']
    constructor
    · have := mul_nonneg hbase hnonneg
      omega
    · have hstep : base * (value base limbs + 1) ≤ base * base ^ limbs.length :=
        mul_le_mul_of_nonneg_left (by omega) hbase
      rw [mul_add, mul_one] at hstep
      omega

theorem value_digits {count : ℕ} {n : ℤ} (hbase : 0 < base) (hn : 0 ≤ n) (hlt : n < base ^ count) :
    value base (digits base count n) = n := by
  induction count generalizing n with
  | zero =>
    rw [pow_zero] at hlt
    rw [digits, value]
    omega
  | succ count ih =>
    have hquotient : n / base < base ^ count := by
      rw [pow_succ'] at hlt
      exact Int.ediv_lt_of_lt_mul hbase (by rwa [mul_comm] at hlt)
    rw [digits, value, ih (Int.ediv_nonneg hn hbase.le) hquotient]
    exact Int.emod_add_mul_ediv n base

theorem digits_eq_map (hbase : 0 ≤ base) (count : ℕ) (n : ℤ) :
    digits base count n = (List.range count).map fun i => n / base ^ i % base := by
  induction count generalizing n with
  | zero => rfl
  | succ count ih =>
    rw [digits, ih, List.range_succ_eq_map, List.map_cons, List.map_map, pow_zero, Int.ediv_one]
    congr 1
    apply List.map_congr_left
    intro i _
    rw [Function.comp_apply, Nat.succ_eq_add_one, pow_succ', Int.ediv_ediv_of_nonneg hbase]

end Limbs
