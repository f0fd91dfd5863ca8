import Verathos.Goldilocks.Field

/-!
# Vectorized field arithmetic

A translation of `gl_mul_np` of `goldilocks_numpy.py`, one element at a time. The elements of the
arrays are 64-bit words, whose operations wrap around.

`glMulNp_spec`: the product of any two words is the canonical product in the field.
-/

namespace Verathos.Numpy

/-- `P`. -/
def modulusWord : UInt64 := 0xFFFFFFFF00000001

/-- `_MASK32`, which is also `_EPS`. -/
def mask32 : UInt64 := 0xFFFFFFFF

def mulWide (a b : UInt64) : UInt64 × UInt64 :=
  let al := a &&& mask32
  let ah := a >>> 32
  let bl := b &&& mask32
  let bh := b >>> 32
  let ll := al * bl
  let lh := al * bh
  let hl := ah * bl
  let hh := ah * bh
  let mid := (ll >>> 32) + (lh &&& mask32) + (hl &&& mask32)
  let lo := (ll &&& mask32) ||| ((mid &&& mask32) <<< 32)
  let hi := hh + (lh >>> 32) + (hl >>> 32) + (mid >>> 32)
  (hi, lo)

def reduce (hi lo : UInt64) : UInt64 :=
  let hiHi := hi >>> 32
  let hiLo := hi &&& mask32
  let t := lo - hiHi
  let t := if lo < hiHi then t + modulusWord else t
  let u := hiLo * mask32
  let r := t + u
  let r := if r < t then r + mask32 else r
  if r ≥ modulusWord then r - modulusWord else r

def glMulNp (a b : UInt64) : UInt64 :=
  let wide := mulWide a b
  reduce wide.1 wide.2

/-! ## Exactness -/

theorem toNat_and_mask32 (a : UInt64) : (a &&& mask32).toNat = a.toNat % 2 ^ 32 := by
  rw [UInt64.toNat_and, show mask32.toNat = 2 ^ 32 - 1 from rfl, Nat.and_two_pow_sub_one_eq_mod]

theorem toNat_shiftRight_32 (a : UInt64) : (a >>> 32).toNat = a.toNat / 2 ^ 32 := by
  rw [UInt64.toNat_shiftRight, Nat.shiftRight_eq_div_pow]
  rfl

theorem toNat_mul_of_lt {x y : UInt64} (hx : x.toNat < 2 ^ 32) (hy : y.toNat < 2 ^ 32) :
    (x * y).toNat = x.toNat * y.toNat ∧ x.toNat * y.toNat ≤ (2 ^ 32 - 1) * (2 ^ 32 - 1) := by
  have hle := Nat.mul_le_mul (Nat.le_sub_one_of_lt hx) (Nat.le_sub_one_of_lt hy)
  refine ⟨?_, hle⟩
  rw [UInt64.toNat_mul, Nat.mod_eq_of_lt (by omega)]

theorem toNat_halves (x y : UInt64) :
    ((x &&& mask32) ||| ((y &&& mask32) <<< 32)).toNat =
      x.toNat % 2 ^ 32 + 2 ^ 32 * (y.toNat % 2 ^ 32) := by
  have hhigh : ((y &&& mask32) <<< 32).toNat = 2 ^ 32 * (y.toNat % 2 ^ 32) := by
    rw [UInt64.toNat_shiftLeft, toNat_and_mask32, show (32 : UInt64).toNat % 64 = 32 from rfl,
      Nat.shiftLeft_eq, mul_comm]
    omega
  rw [UInt64.toNat_or, toNat_and_mask32, hhigh, Nat.or_comm,
    ← Nat.two_pow_add_eq_or_of_lt (Nat.mod_lt _ (by norm_num)), add_comm]

theorem mulWide_spec (a b : UInt64) :
    (mulWide a b).1.toNat * 2 ^ 64 + (mulWide a b).2.toNat = a.toNat * b.toNat := by
  have ha := UInt64.toNat_lt a
  have hb := UInt64.toNat_lt b
  -- the halves and their four products, none of which wraps around
  have hal := toNat_and_mask32 a
  have hah := toNat_shiftRight_32 a
  have hbl := toNat_and_mask32 b
  have hbh := toNat_shiftRight_32 b
  obtain ⟨hll, hllMax⟩ := toNat_mul_of_lt
    (x := a &&& mask32) (y := b &&& mask32) (by omega) (by omega)
  obtain ⟨hlh, hlhMax⟩ := toNat_mul_of_lt (x := a &&& mask32) (y := b >>> 32) (by omega) (by omega)
  obtain ⟨hhl, hhlMax⟩ := toNat_mul_of_lt (x := a >>> 32) (y := b &&& mask32) (by omega) (by omega)
  obtain ⟨hhh, hhhMax⟩ := toNat_mul_of_lt (x := a >>> 32) (y := b >>> 32) (by omega) (by omega)
  have hproduct : a.toNat * b.toNat =
      ((a >>> 32) * (b >>> 32)).toNat * 2 ^ 64 +
        (((a &&& mask32) * (b >>> 32)).toNat + ((a >>> 32) * (b &&& mask32)).toNat) * 2 ^ 32 +
        ((a &&& mask32) * (b &&& mask32)).toNat := by
    have hsplitA : a.toNat = 2 ^ 32 * (a >>> 32).toNat + (a &&& mask32).toNat := by omega
    have hsplitB : b.toNat = 2 ^ 32 * (b >>> 32).toNat + (b &&& mask32).toNat := by omega
    rw [hll, hlh, hhl, hhh, hsplitA, hsplitB]
    ring
  rw [← hll] at hllMax
  rw [← hlh] at hlhMax
  rw [← hhl] at hhlMax
  rw [← hhh] at hhhMax
  simp only [mulWide]
  rw [toNat_halves, hproduct]
  generalize (a &&& mask32) * (b &&& mask32) = ll at *
  generalize (a &&& mask32) * (b >>> 32) = lh at *
  generalize (a >>> 32) * (b &&& mask32) = hl at *
  generalize (a >>> 32) * (b >>> 32) = hh at *
  simp only [UInt64.toNat_add, toNat_shiftRight_32, toNat_and_mask32]
  omega

theorem reduce_spec (hi lo : UInt64) :
    (reduce hi lo).toNat = (hi.toNat * 2 ^ 64 + lo.toNat) % goldilocksModulus := by
  have hhi := UInt64.toNat_lt hi
  have hlo := UInt64.toNat_lt lo
  have hhiHi := toNat_shiftRight_32 hi
  have hhiLo := toNat_and_mask32 hi
  have hmodulus : modulusWord.toNat = 2 ^ 64 - 2 ^ 32 + 1 := rfl
  have hmask : mask32.toNat = 2 ^ 32 - 1 := rfl
  -- `t` is the low word less the top half of the high word
  obtain ⟨t, ht, htValue⟩ : ∃ t : UInt64,
      (if lo < hi >>> 32 then lo - hi >>> 32 + modulusWord else lo - hi >>> 32) = t ∧
        (t.toNat + (hi >>> 32).toNat = lo.toNat ∨
          t.toNat + (hi >>> 32).toNat = lo.toNat + goldilocksModulus) := by
    refine ⟨_, rfl, ?_⟩
    rw [goldilocksModulus]
    split_ifs with hborrow
    · rw [UInt64.lt_iff_toNat_lt] at hborrow
      rw [UInt64.toNat_add, UInt64.toNat_sub]
      omega
    · rw [UInt64.lt_iff_toNat_lt] at hborrow
      rw [UInt64.toNat_sub]
      omega
  have htMax := UInt64.toNat_lt t
  obtain ⟨hu, huMax⟩ := toNat_mul_of_lt (x := hi &&& mask32) (y := mask32) (by omega) (by omega)
  rw [← hu] at huMax
  rw [hmask] at hu
  -- a carry is worth `2 ^ 32 - 1`
  obtain ⟨r, hr, hrValue⟩ : ∃ r : UInt64,
      (if t + (hi &&& mask32) * mask32 < t then t + (hi &&& mask32) * mask32 + mask32
        else t + (hi &&& mask32) * mask32) = r ∧
        (r.toNat = t.toNat + ((hi &&& mask32) * mask32).toNat ∨
          r.toNat + goldilocksModulus = t.toNat + ((hi &&& mask32) * mask32).toNat) := by
    refine ⟨_, rfl, ?_⟩
    rw [goldilocksModulus]
    split_ifs with hcarry
    · rw [UInt64.lt_iff_toNat_lt, UInt64.toNat_add] at hcarry
      rw [UInt64.toNat_add, UInt64.toNat_add]
      omega
    · rw [UInt64.lt_iff_toNat_lt, UInt64.toNat_add] at hcarry
      rw [UInt64.toNat_add]
      omega
  have hrMax := UInt64.toNat_lt r
  have hcongruent : r.toNat % goldilocksModulus =
      (hi.toNat * 2 ^ 64 + lo.toNat) % goldilocksModulus := by
    rw [goldilocksModulus] at *
    omega
  simp only [reduce, ht, hr]
  rw [← hcongruent, goldilocksModulus]
  split_ifs with hlarge
  · rw [ge_iff_le, UInt64.le_iff_toNat_le, hmodulus] at hlarge
    rw [UInt64.toNat_sub, hmodulus]
    omega
  · rw [ge_iff_le, UInt64.le_iff_toNat_le, hmodulus] at hlarge
    omega

theorem glMulNp_spec (a b : UInt64) :
    (glMulNp a b).toNat = a.toNat * b.toNat % goldilocksModulus := by
  rw [glMulNp, reduce_spec, mulWide_spec]

end Verathos.Numpy
