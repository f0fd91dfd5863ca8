import Mathlib.Data.ZMod.Basic
import Mathlib.FieldTheory.Finite.Basic
import Verathos.Basic
import Verathos.Lib.ModularPower

/-!
# The Goldilocks field

The arithmetic half of `goldilocks_reference.py`. Field elements are Python integers: a
*canonical* element lies in `0 ≤ v < p`, and every operation reduces with `%`. The proofs read
integers in the field `F = ZMod p`; `intCast_emod` and `Canonical.ext` move between the two.

`p` is proved prime from the order of the generator 7.
-/

namespace Verathos

open ModularPower

def goldilocksModulus : ℕ := 2 ^ 64 - 2 ^ 32 + 1

def goldilocksBytes : ℕ := 8

def goldilocksTwoAdicity : ℕ := 32

def goldilocksPrimitiveGenerator : ℤ := 7

def maxGoldilocksReferenceDomainSize : ℕ := 2 ^ 16

def maxGoldilocksNativeDomainSize : ℕ := 2 ^ 30

theorem goldilocksModulus_eq : goldilocksModulus = 18446744069414584321 := by
  norm_num [goldilocksModulus]

theorem goldilocksModulus_sub_one :
    goldilocksModulus - 1 = 2 ^ 32 * 3 * 5 * 17 * 257 * 65537 := by
  norm_num [goldilocksModulus]

private theorem prime_dvd_goldilocksModulus_sub_one {q : ℕ} (hq : q.Prime)
    (h : q ∣ goldilocksModulus - 1) : q ∈ [2, 3, 5, 17, 257, 65537] := by
  rw [goldilocksModulus_sub_one] at h
  simp only [hq.dvd_mul] at h
  have hself : ∀ r : ℕ, r.Prime → q ∣ r → q = r := fun r hr hd => (Nat.prime_dvd_prime_iff_eq hq hr).mp hd
  rcases h with ((((h | h) | h) | h) | h) | h
  · simp [hself 2 Nat.prime_two (hq.dvd_of_dvd_pow h)]
  · simp [hself 3 Nat.prime_three h]
  · simp [hself 5 Nat.prime_five h]
  · simp [hself 17 (by norm_num) h]
  · simp [hself 257 (by norm_num) h]
  · simp [hself 65537 (by norm_num) h]

/-- The Goldilocks modulus is prime: 7 has order `p - 1`. -/
theorem goldilocksModulus_prime : goldilocksModulus.Prime := by
  refine prime_of_powMod (by norm_num [goldilocksModulus]) 7 (by decide +kernel) ?_
  intro q hq hdvd
  have hcases := prime_dvd_goldilocksModulus_sub_one hq hdvd
  have hall : ∀ r ∈ [2, 3, 5, 17, 257, 65537],
      powMod 7 ((goldilocksModulus - 1) / r) goldilocksModulus ≠ 1 := by decide +kernel
  exact hall q hcases

instance : Fact goldilocksModulus.Prime := ⟨goldilocksModulus_prime⟩

/-- The Goldilocks field. -/
abbrev F := ZMod goldilocksModulus

/-! ## Canonical integers -/

/-- A canonical field integer. -/
def Canonical (value : ℤ) : Prop :=
  0 ≤ value ∧ value < goldilocksModulus

instance (value : ℤ) : Decidable (Canonical value) :=
  inferInstanceAs (Decidable (_ ∧ _))

theorem canonical_of_not_not {value : ℤ} (h : ¬¬Canonical value) : Canonical value := not_not.mp h

theorem goldilocksModulus_pos : (0 : ℤ) < goldilocksModulus := by
  norm_num [goldilocksModulus]

theorem canonical_emod (value : ℤ) : Canonical (value % goldilocksModulus) :=
  ⟨Int.emod_nonneg _ goldilocksModulus_pos.ne', Int.emod_lt_of_pos _ goldilocksModulus_pos⟩

@[simp]
theorem intCast_emod (value : ℤ) : ((value % goldilocksModulus : ℤ) : F) = value :=
  ZMod.intCast_mod value goldilocksModulus

variable {value : ℤ}

theorem Canonical.emod_eq (h : Canonical value) : value % goldilocksModulus = value :=
  Int.emod_eq_of_lt h.1 h.2

variable {a : ℤ}

theorem emod_eq_emod_iff {b : ℤ} : a % goldilocksModulus = b % goldilocksModulus ↔ (a : F) = b :=
  (ZMod.intCast_eq_intCast_iff' a b goldilocksModulus).symm

theorem Canonical.ext {b : ℤ} (ha : Canonical a) (hb : Canonical b) (h : (a : F) = b) : a = b := by
  rw [← ha.emod_eq, ← hb.emod_eq, emod_eq_emod_iff]
  exact h

theorem Canonical.eq_emod_iff {b : ℤ} (ha : Canonical a) :
    a = b % goldilocksModulus ↔ (a : F) = b := by
  rw [← emod_eq_emod_iff, ha.emod_eq]

theorem emod_eq_iff : a % goldilocksModulus = value ↔ Canonical value ∧ (value : F) = a := by
  constructor
  · rintro rfl
    exact ⟨canonical_emod a, intCast_emod a⟩
  · rintro ⟨hcanonical, h⟩
    exact (hcanonical.eq_emod_iff.mpr h).symm

theorem Canonical.toNat_lt (h : Canonical value) : value.toNat < 256 ^ 8 := by
  have := h.1
  have := h.2
  rw [goldilocksModulus_eq] at this
  omega

/-- The canonical integer of a field element. -/
def ofField (x : F) : ℤ := (x.val : ℤ)

theorem canonical_ofField (x : F) : Canonical (ofField x) :=
  ⟨Int.natCast_nonneg _, Int.ofNat_lt.mpr (ZMod.val_lt x)⟩

@[simp]
theorem intCast_ofField (x : F) : ((ofField x : ℤ) : F) = x := by
  simp [ofField]

/-- `canonical_goldilocks`: validate one canonical element without implicit reduction. -/
def canonicalGoldilocks (value : ℤ) (name : String) : Result ℤ := do
  raiseIf (value < 0 ∨ value ≥ goldilocksModulus)
    (.proofV3Error (name ++ " is outside the canonical Goldilocks field"))
  return value

@[simp]
theorem canonicalGoldilocks_eq_ok {name : String} {v : ℤ} :
    canonicalGoldilocks value name = .ok v ↔ Canonical value ∧ v = value := by
  simp only [canonicalGoldilocks, bind_eq_ok, raiseIf_eq_ok, pure_eq_ok, Canonical]
  constructor
  · rintro ⟨-, h, rfl⟩
    exact ⟨by omega, rfl⟩
  · rintro ⟨h, rfl⟩
    exact ⟨(), by omega, rfl⟩

/-- `goldilocks_to_bytes`: the eight-byte little-endian encoding of a canonical element. -/
def goldilocksToBytes (value : ℤ) : Result Bytes := do
  let canonical ← canonicalGoldilocks value "Goldilocks value"
  return LittleEndian.toBytes goldilocksBytes canonical.toNat

/-- `goldilocks_inv`: the inverse by Fermat's theorem, rejecting zero. -/
def goldilocksInv (value : ℤ) : Result ℤ := do
  let scalar ← canonicalGoldilocks value "Goldilocks inverse value"
  raiseIf (scalar = 0) (.proofV3Error "Goldilocks zero has no multiplicative inverse")
  return powMod scalar (goldilocksModulus - 2) goldilocksModulus

/-- `inv2 = (GOLDILOCKS_MODULUS + 1) // 2`. -/
def inv2 : ℤ := (goldilocksModulus + 1) / 2

theorem two_mul_inv2 : (2 : F) * (inv2 : F) = 1 := by
  have h : (2 * inv2) % (goldilocksModulus : ℤ) = 1 % goldilocksModulus := by decide +kernel
  have h' := emod_eq_emod_iff.mp h
  exact_mod_cast h'

theorem two_ne_zero_F : (2 : F) ≠ 0 := by
  intro h
  have := two_mul_inv2
  rw [h, zero_mul] at this
  exact zero_ne_one this

theorem intCast_inv2 : (inv2 : F) = 2⁻¹ :=
  eq_inv_of_mul_eq_one_right two_mul_inv2

theorem pow_modulus_sub_two {x : F} (hx : x ≠ 0) : x ^ (goldilocksModulus - 2) = x⁻¹ := by
  refine eq_inv_of_mul_eq_one_left ?_
  rw [← pow_succ, show goldilocksModulus - 2 + 1 = goldilocksModulus - 1 by
    norm_num [goldilocksModulus]]
  exact ZMod.pow_card_sub_one_eq_one hx

theorem goldilocksInv_spec (hc : Canonical value) (h0 : value ≠ 0) :
    ∃ inverse, goldilocksInv value = .ok inverse ∧ (inverse : F) = (value : F)⁻¹ := by
  refine ⟨powMod value (goldilocksModulus - 2) goldilocksModulus, ?_, ?_⟩
  · simp only [goldilocksInv, bind_eq_ok, raiseIf_eq_ok, pure_eq_ok, canonicalGoldilocks_eq_ok]
    exact ⟨value, ⟨hc, rfl⟩, (), h0, rfl⟩
  · rw [intCast_powMod]
    refine pow_modulus_sub_two fun h => h0 (hc.ext ⟨le_rfl, goldilocksModulus_pos⟩ ?_)
    simpa using h

end Verathos
