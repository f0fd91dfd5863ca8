import Mathlib.Data.Nat.Bitwise
import Verathos.Goldilocks.Field
import Verathos.Lib.FourierTransform

/-!
# Radix-2 domains and the number-theoretic transform

The domain half of `goldilocks_reference.py`: principal roots of unity, multiplicative cosets,
and the in-place radix-2 transform. The butterfly loops of the source update two entries of one
list at a time; every entry belongs to one butterfly of a stage, so a stage is written block by
block.

`nttGoldilocksReference_spec` says that the transform evaluates the coefficient polynomial at
the points `shift * generator ^ i`.
-/

namespace Verathos

open ModularPower Radix2

/-! ## Principal roots -/

def radix2Size (value : ℕ) (name : String) (cpuMaterialized : Bool) : Result ℕ := do
  raiseIf (value < 1 ∨ value > 2 ^ goldilocksTwoAdicity ∨ value &&& (value - 1) ≠ 0)
    (.proofV3Error (name ++ " must be a power of two in 1..=2**32"))
  raiseIf (cpuMaterialized ∧ value > maxGoldilocksReferenceDomainSize)
    (.proofV3Error (name ++ " exceeds the CPU reference cap 65536"))
  return value

def principalRoot (size : ℕ) : Result ℤ := do
  let root := powMod goldilocksPrimitiveGenerator ((goldilocksModulus - 1) / size) goldilocksModulus
  raiseIf (powMod root size goldilocksModulus ≠ 1)
    (.proofV3Error "derived Goldilocks root does not have the requested order")
  raiseIf (size > 1 ∧ powMod root (size / 2) goldilocksModulus = 1)
    (.proofV3Error "derived Goldilocks root is not principal")
  return root

def goldilocksPrincipalRootOfUnity (size : ℕ) : Result ℤ := do
  let size ← radix2Size size "Goldilocks root size" false
  principalRoot size

/-- `GoldilocksRadix2DomainReference`: the coset `shift * <generator>`. -/
structure GoldilocksRadix2DomainReference where
  size : ℕ
  shift : ℤ
  generator : ℤ

/-- `goldilocks_radix2_domain_reference`, with the checks of the constructor. -/
def goldilocksRadix2DomainReference (size : ℕ) (shift : ℤ) :
    Result GoldilocksRadix2DomainReference := do
  let size ← radix2Size size "Goldilocks domain size" true
  let shift ← canonicalGoldilocks shift "Goldilocks domain shift"
  raiseIf (shift = 0) (.proofV3Error "Goldilocks domain shift must be nonzero")
  let generator ← principalRoot size
  return { size, shift, generator }

/-! ## The transform -/

def fieldVector (values : List ℤ) (length : Option ℕ) (name : String) : Result (List ℤ) := do
  raiseIf (values = []) (.proofV3Error (name ++ " must not be empty"))
  raiseIf (∃ l ∈ length, values.length ≠ l)
    (.proofV3Error (name ++ " must contain exactly " ++ toString (length.getD 0) ++ " values"))
  raiseIf (values.length > maxGoldilocksReferenceDomainSize)
    (.proofV3Error (name ++ " exceeds the CPU reference cap"))
  values.zipIdx.mapM fun (item, index) =>
    canonicalGoldilocks item (name ++ "[" ++ toString index ++ "]")

/-- The inner `while index & bit` loop of `_bit_reverse_permute`, with the final `index ^= bit`. -/
def reversedIncrement (bit index : ℕ) : ℕ :=
  if _h : index &&& bit ≠ 0 then reversedIncrement (bit >>> 1) (index ^^^ bit) else index ^^^ bit
termination_by bit
decreasing_by
  rcases Nat.eq_zero_or_pos bit with rfl | hpos
  · simp at _h
  · rw [Nat.shiftRight_one]
    omega

/-- `result[i], result[j] = result[j], result[i]`. -/
def swapEntries (result : List ℤ) (i j : ℕ) : List ℤ :=
  (result.set i (result.getD j 0)).set j (result.getD i 0)

/-- The outer loop of `_bit_reverse_permute`, with `remaining` values of `current` to go. -/
def bitReverseLoop : ℕ → ℕ → ℕ → List ℤ → List ℤ
  | 0, _, _, result => result
  | remaining + 1, current, index, result =>
    let index := reversedIncrement (result.length >>> 1) index
    let result := if current < index then swapEntries result current index else result
    bitReverseLoop remaining (current + 1) index result

def bitReversePermute (values : List ℤ) : List ℤ :=
  bitReverseLoop (values.length - 1) 1 0 values

/-- The butterflies of one block: the low and the high half, with the running twiddle factor. -/
def butterflies (step : ℤ) : ℤ → List ℤ → List ℤ → List ℤ × List ℤ
  | twiddle, left :: lows, high :: highs =>
    let right := high * twiddle % goldilocksModulus
    let rest := butterflies step (twiddle * step % goldilocksModulus) lows highs
    ((left + right) % goldilocksModulus :: rest.1, (left - right) % goldilocksModulus :: rest.2)
  | _, _, _ => ([], [])

/-- One block of `span` entries. -/
def butterflyBlock (step : ℤ) (half : ℕ) (block : List ℤ) : List ℤ :=
  let (lows, highs) := butterflies step 1 (block.take half) (block.drop half)
  lows ++ highs

/-- One stage: `for start in range(0, len(result), span)`. -/
def butterflyStage (step : ℤ) (span : ℕ) : ℕ → List ℤ → List ℤ
  | 0, _ => []
  | blocks + 1, result =>
    butterflyBlock step (span / 2) (result.take span) ++
      butterflyStage step span blocks (result.drop span)

/-- The `while span <= len(result)` loop of `_radix2_transform`. -/
def radix2Loop (root : ℤ) (size span : ℕ) (result : List ℤ) : List ℤ :=
  if _h : 0 < span ∧ span ≤ size then
    let step := powMod root (size / span) goldilocksModulus
    radix2Loop root size (span * 2) (butterflyStage step span (size / span) result)
  else result
termination_by size + 1 - span

def radix2Transform (values : List ℤ) (root : ℤ) : List ℤ :=
  radix2Loop root values.length 2 (bitReversePermute values)

/-- The coefficients scaled by the powers of the shift. -/
def shiftCoefficients (shift : ℤ) : ℤ → List ℤ → List ℤ
  | _, [] => []
  | shiftPower, coefficient :: rest =>
    coefficient * shiftPower % goldilocksModulus ::
      shiftCoefficients shift (shiftPower * shift % goldilocksModulus) rest

def nttGoldilocksReference (coefficients : List ℤ) (domain : GoldilocksRadix2DomainReference) :
    Result (List ℤ) := do
  let vector ← fieldVector coefficients (some domain.size) "Goldilocks NTT coefficients"
  return radix2Transform (shiftCoefficients domain.shift 1 vector) domain.generator

/-! ## Roots of unity in the field -/

/-- The principal root of unity of order `2 ^ h`. -/
def rootOf (h : ℕ) : F := 7 ^ ((goldilocksModulus - 1) / 2 ^ h)

/-- The generator is not a square: its power to half the group order is minus one. -/
theorem seven_pow_half : (7 : F) ^ ((goldilocksModulus - 1) / 2) = -1 := by
  have hne : (7 : F) ^ ((goldilocksModulus - 1) / 2) ≠ 1 := by
    intro h
    have hseven : ((7 : ℤ) : F) ^ ((goldilocksModulus - 1) / 2) = 1 := by exact_mod_cast h
    rw [intCast_pow_eq_one_iff goldilocksModulus_prime.one_lt] at hseven
    exact absurd hseven (by decide +kernel)
  have hsq : ((7 : F) ^ ((goldilocksModulus - 1) / 2)) ^ 2 = 1 := by
    rw [← pow_mul, show (goldilocksModulus - 1) / 2 * 2 = goldilocksModulus - 1 by
      norm_num [goldilocksModulus]]
    refine ZMod.pow_card_sub_one_eq_one fun h => ?_
    have : ((7 : ℕ) : F) = 0 := by exact_mod_cast h
    rw [ZMod.natCast_eq_zero_iff] at this
    exact absurd (Nat.le_of_dvd (by norm_num) this) (by norm_num [goldilocksModulus])
  rw [sq] at hsq
  exact (mul_self_eq_one_iff.mp hsq).resolve_left hne

variable {h : ℕ}

theorem two_pow_dvd_goldilocksModulus_sub_one (hh : h ≤ 32) : 2 ^ h ∣ goldilocksModulus - 1 := by
  rw [goldilocksModulus_sub_one]
  exact Dvd.dvd.mul_right (Dvd.dvd.mul_right (Dvd.dvd.mul_right (Dvd.dvd.mul_right
    (Dvd.dvd.mul_right (Nat.pow_dvd_pow 2 hh) 3) 5) 17) 257) 65537

theorem rootOf_pow_half (hh : h + 1 ≤ 32) : rootOf (h + 1) ^ 2 ^ h = -1 := by
  obtain ⟨q, hq⟩ := two_pow_dvd_goldilocksModulus_sub_one hh
  have hexp : (goldilocksModulus - 1) / 2 ^ (h + 1) * 2 ^ h = (goldilocksModulus - 1) / 2 := by
    rw [hq, Nat.mul_div_cancel_left _ (by positivity), pow_succ, mul_assoc, mul_comm (2 ^ h),
      mul_assoc, Nat.mul_div_cancel_left _ (by norm_num)]
  rw [rootOf, ← pow_mul, hexp, seven_pow_half]

theorem rootOf_pow (hh : h ≤ 32) : rootOf h ^ 2 ^ h = 1 := by
  cases h with
  | zero =>
    rw [rootOf, pow_zero, pow_one, Nat.div_one]
    have := seven_pow_half
    rw [show goldilocksModulus - 1 = (goldilocksModulus - 1) / 2 * 2 by norm_num [goldilocksModulus],
      pow_mul, this, neg_one_sq]
  | succ h => rw [pow_succ, pow_mul, rootOf_pow_half hh, neg_one_sq]

theorem rootOf_sq (hh : h + 1 ≤ 32) : rootOf (h + 1) ^ 2 = rootOf h := by
  obtain ⟨q, hq⟩ := two_pow_dvd_goldilocksModulus_sub_one hh
  have hexp : (goldilocksModulus - 1) / 2 ^ (h + 1) * 2 = (goldilocksModulus - 1) / 2 ^ h := by
    rw [hq, Nat.mul_div_cancel_left _ (by positivity), pow_succ, mul_assoc,
      Nat.mul_div_cancel_left _ (by positivity), mul_comm]
  rw [rootOf, rootOf, ← pow_mul, hexp]

theorem principalRoot_spec (hh : h ≤ 32) :
    ∃ root, principalRoot (2 ^ h) = .ok root ∧ Canonical root ∧ (root : F) = rootOf h := by
  set root := powMod goldilocksPrimitiveGenerator ((goldilocksModulus - 1) / 2 ^ h)
    goldilocksModulus with hroot
  have hcast : (root : F) = rootOf h := by
    rw [hroot, intCast_powMod, rootOf, goldilocksPrimitiveGenerator]
    norm_cast
  have hcanonical : Canonical root := by
    rw [hroot, powMod_eq]
    exact canonical_emod _
  refine ⟨root, ?_, hcanonical, hcast⟩
  have hpow : powMod root (2 ^ h) goldilocksModulus = 1 := by
    rw [← intCast_pow_eq_one_iff goldilocksModulus_prime.one_lt, hcast, rootOf_pow hh]
  have hhalf : ¬ (2 ^ h > 1 ∧ powMod root (2 ^ h / 2) goldilocksModulus = 1) := by
    rintro ⟨hgt, hone⟩
    obtain ⟨m, rfl⟩ : ∃ m, h = m + 1 := by
      refine ⟨h - 1, ?_⟩
      rcases Nat.eq_zero_or_pos h with rfl | hpos
      · simp at hgt
      · omega
    rw [← intCast_pow_eq_one_iff goldilocksModulus_prime.one_lt, hcast, pow_succ,
      Nat.mul_div_cancel _ (by norm_num), rootOf_pow_half hh] at hone
    have htwo : (2 : F) = 0 := by linear_combination -hone
    exact two_ne_zero_F htwo
  simp only [principalRoot, bind_eq_ok, raiseIf_eq_ok, pure_eq_ok, not_not]
  exact ⟨(), hpow, (), hhalf, rfl⟩

theorem radix2Size_two_pow (name : String) {cpuMaterialized : Bool} (hh : h ≤ 32)
    (hcpu : cpuMaterialized = true → h ≤ 16) :
    radix2Size (2 ^ h) name cpuMaterialized = .ok (2 ^ h) := by
  simp only [radix2Size, bind_eq_ok, raiseIf_eq_ok, pure_eq_ok, not_or, not_not, not_lt, not_and]
  refine ⟨(), ⟨Nat.one_le_two_pow, Nat.pow_le_pow_right (by norm_num) hh, ?_⟩, (), ?_, trivial⟩
  · exact (Nat.and_sub_one_eq_zero_iff_isPowerOfTwo (by positivity)).mpr ⟨h, rfl⟩
  · intro hc
    exact Nat.pow_le_pow_right (by norm_num) (hcpu hc)

/-! ## Bit reversal -/

variable {k : ℕ}

private theorem xor_two_pow_of_lt {a : ℕ} (ha : a < 2 ^ k) : a ^^^ 2 ^ k = a + 2 ^ k := by
  refine Nat.eq_of_testBit_eq fun j => ?_
  have hadd := Nat.testBit_two_pow_mul_add 1 ha j
  rw [mul_one, Nat.add_comm] at hadd
  rw [Nat.testBit_xor, Nat.testBit_two_pow, hadd]
  split_ifs with hj
  · simp [show k ≠ j by omega]
  · rw [Nat.testBit_lt_two_pow (ha.trans_le (Nat.pow_le_pow_right (by norm_num) (by omega)))]
    rcases Nat.eq_or_lt_of_le (Nat.le_of_not_lt hj) with rfl | hlt
    · simp
    · have hbit : Nat.testBit 1 (j - k) = false :=
        Nat.testBit_lt_two_pow (Nat.one_lt_two_pow (by omega))
      simp [hbit, show k ≠ j by omega]

variable {i : ℕ}

theorem reversedIncrement_rev (hi : i + 1 < 2 ^ (k + 1)) :
    reversedIncrement (2 ^ k) (rev (k + 1) i) = rev (k + 1) (i + 1) := by
  induction k generalizing i with
  | zero =>
    obtain rfl : i = 0 := by omega
    rw [reversedIncrement]
    simp [rev]
  | succ k ih =>
    rcases Nat.even_or_odd' i with ⟨b, rfl | rfl⟩
    · -- an even index has a clear top bit, which is set
      have hlt := rev_lt (k + 1) b
      have hclear : rev (k + 1) b &&& 2 ^ (k + 1) = 0 := by
        rw [Nat.and_two_pow, Nat.testBit_lt_two_pow hlt]
        simp
      rw [rev_two_mul, rev_two_mul_add_one, reversedIncrement, dif_neg (by simp [hclear]),
        xor_two_pow_of_lt hlt]
    · -- an odd index has its top bit set; the carry clears it and moves on
      have hlt := rev_lt (k + 1) b
      have hset : (rev (k + 1) b + 2 ^ (k + 1)) &&& 2 ^ (k + 1) ≠ 0 := by
        rw [← xor_two_pow_of_lt hlt, Nat.and_two_pow, Nat.testBit_xor, Nat.testBit_lt_two_pow hlt,
          Nat.testBit_two_pow_self]
        simp
      have hnext : b + 1 < 2 ^ (k + 1) := by
        rw [pow_succ] at hi
        omega
      rw [rev_two_mul_add_one, reversedIncrement, dif_pos hset, ← xor_two_pow_of_lt hlt,
        Nat.xor_xor_cancel_right, Nat.shiftRight_one, pow_succ, Nat.mul_div_cancel _ (by norm_num),
        ih hnext, show 2 * b + 1 + 1 = 2 * (b + 1) by ring, rev_two_mul]

theorem length_swapEntries (result : List ℤ) (i j : ℕ) :
    (swapEntries result i j).length = result.length := by
  simp [swapEntries]

variable {result : List ℤ}

theorem getD_swapEntries {j : ℕ} (hi : i < result.length) (hj : j < result.length) (t : ℕ) :
    (swapEntries result i j).getD t 0 =
      if t = j then result.getD i 0 else if t = i then result.getD j 0 else result.getD t 0 := by
  simp only [swapEntries, List.getD_eq_getElem?_getD, List.getElem?_set, List.length_set]
  by_cases htj : t = j
  · subst htj
    simp [hj]
  · by_cases hti : t = i
    · subst hti
      simp [htj, Ne.symm htj, hi]
    · simp [htj, hti, Ne.symm htj, Ne.symm hti]

/-- The vector after the pairs whose smaller member is below `current` have been swapped. -/
def PartlyReversed (k current : ℕ) (values result : List ℤ) : Prop :=
  result.length = 2 ^ k ∧ ∀ i < 2 ^ k, result.getD i 0 =
    values.getD (if min i (rev k i) < current then rev k i else i) 0

variable {values : List ℤ}

theorem PartlyReversed.step {current : ℕ} (hcurrent : current < 2 ^ k)
    (h : PartlyReversed k current values result) :
    PartlyReversed k (current + 1) values
      (if current < rev k current then swapEntries result current (rev k current) else result) := by
  obtain ⟨hlength, hentries⟩ := h
  have hrev := rev_lt k current
  have hself : rev k (rev k current) = current := rev_rev hcurrent
  refine ⟨by split_ifs <;> simp [length_swapEntries, hlength], fun i hi => ?_⟩
  have hpair : rev k i = current → i = rev k current := fun h => by rw [← h, rev_rev hi]
  split_ifs with hswap hmin hmin
  · -- the pair of `current` is swapped now, every other entry keeps its place
    rw [getD_swapEntries (hlength ▸ hcurrent) (hlength ▸ hrev)]
    by_cases hhigh : i = rev k current
    · rw [if_pos hhigh, hentries current hcurrent, if_neg (by omega), hhigh, hself]
    · rw [if_neg hhigh]
      by_cases hlow : i = current
      · rw [if_pos hlow, hentries _ hrev, hself, if_neg (by omega), hlow]
      · rw [if_neg hlow, hentries i hi, if_pos]
        have : rev k i ≠ current := fun h => hhigh (hpair h)
        omega
  · rw [getD_swapEntries (hlength ▸ hcurrent) (hlength ▸ hrev), if_neg, if_neg, hentries i hi,
      if_neg (by omega)]
    · omega
    · rintro rfl
      omega
  · -- nothing is swapped: the pair was swapped before, or is one entry
    rw [hentries i hi]
    by_cases hdone : min i (rev k i) < current
    · rw [if_pos hdone]
    · have hfix : i = rev k i := by
        rcases (show i = current ∨ rev k i = current by omega) with h | h
        · subst h
          omega
        · have := hpair h
          omega
      rw [if_neg hdone, ← hfix]
  · rw [hentries i hi, if_neg (by omega)]

theorem bitReverseLoop_spec (remaining current : ℕ) (result : List ℤ)
    (hsteps : current + remaining = 2 ^ (k + 1)) (hpos : 1 ≤ current)
    (h : PartlyReversed (k + 1) current values result) :
    PartlyReversed (k + 1) (2 ^ (k + 1)) values
      (bitReverseLoop remaining current (rev (k + 1) (current - 1)) result) := by
  induction remaining generalizing current result with
  | zero =>
    obtain rfl : current = 2 ^ (k + 1) := by omega
    exact h
  | succ remaining ih =>
    have hcurrent : current < 2 ^ (k + 1) := by omega
    have hindex : reversedIncrement (result.length >>> 1) (rev (k + 1) (current - 1)) =
        rev (k + 1) current := by
      rw [h.1, Nat.shiftRight_one, pow_succ, Nat.mul_div_cancel _ (by norm_num),
        reversedIncrement_rev (by omega), Nat.sub_add_cancel hpos]
    have hnext := ih (current + 1) _ (by omega) (by omega) (h.step hcurrent)
    rw [bitReverseLoop]
    simp only [hindex]
    rwa [Nat.add_sub_cancel] at hnext

theorem bitReversePermute_spec (hlength : values.length = 2 ^ k) :
    (bitReversePermute values).length = 2 ^ k ∧
      ∀ i < 2 ^ k, (bitReversePermute values).getD i 0 = values.getD (rev k i) 0 := by
  cases k with
  | zero =>
    rw [bitReversePermute, hlength]
    refine ⟨hlength, fun i hi => ?_⟩
    obtain rfl : i = 0 := by simpa using hi
    rfl
  | succ k =>
    have hpos : 0 < 2 ^ (k + 1) := by positivity
    have hstart : PartlyReversed (k + 1) 1 values values := by
      refine ⟨hlength, fun i hi => ?_⟩
      split_ifs with hmin
      · -- only the pair of zero lies below one, and zero is its own reversal
        obtain h | h : i = 0 ∨ rev (k + 1) i = 0 := by omega
        · rw [h, rev_zero]
        · rw [h, ← rev_rev hi, h, rev_zero]
      · rfl
    have hrun := bitReverseLoop_spec (values.length - 1) 1 values (by omega) le_rfl hstart
    rw [Nat.sub_self, rev_zero] at hrun
    refine ⟨hrun.1, fun i hi => ?_⟩
    rw [bitReversePermute, hrun.2 i hi, if_pos (by omega)]

/-! ## The butterfly stages -/

/-- Entry `i` of a vector, in the field. -/
def fieldAt (values : List ℤ) (i : ℕ) : F := (values.getD i 0 : ℤ)

/-- The entries of a vector are canonical field elements. -/
def CanonicalVector (values : List ℤ) : Prop := ∀ v ∈ values, Canonical v

theorem fieldAt_append_left {xs : List ℤ} (ys : List ℤ) (hi : i < xs.length) :
    fieldAt (xs ++ ys) i = fieldAt xs i := by
  rw [fieldAt, fieldAt, List.getD_append _ _ _ _ hi]

theorem fieldAt_append_right {xs : List ℤ} (ys : List ℤ) {n : ℕ} (hn : xs.length = n) (i : ℕ) :
    fieldAt (xs ++ ys) (n + i) = fieldAt ys i := by
  rw [fieldAt, fieldAt, ← hn, List.getD_append_right _ _ _ _ (by omega), Nat.add_sub_cancel_left]

theorem fieldAt_take {n : ℕ} (hi : i < n) : fieldAt (values.take n) i = fieldAt values i := by
  simp [fieldAt, List.getD_eq_getElem?_getD, hi]

theorem fieldAt_drop (values : List ℤ) (n i : ℕ) :
    fieldAt (values.drop n) i = fieldAt values (n + i) := by
  simp [fieldAt, List.getD_eq_getElem?_getD, List.getElem?_drop]

theorem butterflies_spec (step twiddle : ℤ) {lows highs : List ℤ}
    (hlength : lows.length = highs.length) :
    (butterflies step twiddle lows highs).1.length = lows.length ∧
      (butterflies step twiddle lows highs).2.length = lows.length ∧
      (∀ i < lows.length,
        fieldAt (butterflies step twiddle lows highs).1 i =
          fieldAt lows i + (twiddle * (step : F) ^ i) * fieldAt highs i ∧
        fieldAt (butterflies step twiddle lows highs).2 i =
          fieldAt lows i - (twiddle * (step : F) ^ i) * fieldAt highs i) ∧
      CanonicalVector (butterflies step twiddle lows highs).1 ∧
      CanonicalVector (butterflies step twiddle lows highs).2 := by
  induction lows generalizing twiddle highs with
  | nil =>
    cases highs with
    | nil => simp [butterflies, CanonicalVector]
    | cons high highs => simp at hlength
  | cons low lows ih =>
    cases highs with
    | nil => simp at hlength
    | cons high highs =>
      obtain ⟨hfst, hsnd, hentries, hcan, hcan'⟩ :=
        ih (twiddle * step % goldilocksModulus) (by simpa using hlength)
      simp only [butterflies]
      refine ⟨by simp [hfst], by simp [hsnd], fun i hi => ?_, ?_, ?_⟩
      · cases i with
        | zero =>
          simp only [fieldAt, List.getD_cons_zero, intCast_emod, Int.cast_add, Int.cast_sub,
            Int.cast_mul]
          constructor <;> ring
        | succ i =>
          obtain ⟨hl, hh⟩ := hentries i (by simpa using hi)
          simp only [fieldAt, List.getD_cons_succ, intCast_emod, Int.cast_mul] at hl hh ⊢
          rw [hl, hh]
          constructor <;> ring
      · exact List.forall_mem_cons.mpr ⟨canonical_emod _, hcan⟩
      · exact List.forall_mem_cons.mpr ⟨canonical_emod _, hcan'⟩

theorem butterflyBlock_spec (step : ℤ) {half : ℕ} {block : List ℤ}
    (hlength : block.length = 2 * half) :
    (butterflyBlock step half block).length = 2 * half ∧
      (∀ i < half,
        fieldAt (butterflyBlock step half block) i =
          fieldAt block i + (step : F) ^ i * fieldAt block (i + half) ∧
        fieldAt (butterflyBlock step half block) (i + half) =
          fieldAt block i - (step : F) ^ i * fieldAt block (i + half)) ∧
      CanonicalVector (butterflyBlock step half block) := by
  have htake : (block.take half).length = half := by
    rw [List.length_take]
    omega
  have hdrop : (block.drop half).length = half := by
    rw [List.length_drop]
    omega
  obtain ⟨hfst, hsnd, hentries, hcan, hcan'⟩ :=
    butterflies_spec step 1 (htake.trans hdrop.symm)
  rw [htake] at hfst hsnd hentries
  refine ⟨?_, fun i hi => ?_, ?_⟩
  · simp only [butterflyBlock, List.length_append, hfst, hsnd]
    omega
  · obtain ⟨hl, hh⟩ := hentries i hi
    rw [fieldAt_take hi, fieldAt_drop, Int.cast_one, one_mul, Nat.add_comm half] at hl hh
    refine ⟨?_, ?_⟩
    · rw [butterflyBlock, fieldAt_append_left _ (by omega), hl]
    · rw [butterflyBlock, Nat.add_comm i, fieldAt_append_right _ hfst, hh, Nat.add_comm i]
  · intro v hv
    rcases List.mem_append.mp hv with hv | hv
    · exact hcan v hv
    · exact hcan' v hv

/-- One stage: every block of `2 * half` entries is transformed in place. -/
theorem butterflyStage_spec (step : ℤ) (half : ℕ) (blocks : ℕ)
    (hlength : result.length = blocks * (2 * half)) :
    (butterflyStage step (2 * half) blocks result).length = blocks * (2 * half) ∧
      (∀ b < blocks, ∀ i < half,
        fieldAt (butterflyStage step (2 * half) blocks result) (b * (2 * half) + i) =
          fieldAt result (b * (2 * half) + i) +
            (step : F) ^ i * fieldAt result (b * (2 * half) + i + half) ∧
        fieldAt (butterflyStage step (2 * half) blocks result) (b * (2 * half) + i + half) =
          fieldAt result (b * (2 * half) + i) -
            (step : F) ^ i * fieldAt result (b * (2 * half) + i + half)) ∧
      CanonicalVector (butterflyStage step (2 * half) blocks result) := by
  induction blocks generalizing result with
  | zero => simp [butterflyStage, CanonicalVector]
  | succ blocks ih =>
    rw [Nat.add_mul, one_mul] at hlength
    have htake : (result.take (2 * half)).length = 2 * half := by
      rw [List.length_take]
      omega
    have hdrop : (result.drop (2 * half)).length = blocks * (2 * half) := by
      rw [List.length_drop]
      omega
    obtain ⟨hhead, hblock, hcan⟩ := butterflyBlock_spec step htake
    obtain ⟨htail, hrest, hcan'⟩ := ih hdrop
    rw [butterflyStage, Nat.mul_div_cancel_left _ (by norm_num)]
    refine ⟨?_, fun b hb i hi => ?_, ?_⟩
    · rw [List.length_append, hhead, htail]
      ring
    · cases b with
      | zero =>
        obtain ⟨hl, hh⟩ := hblock i hi
        rw [fieldAt_take (by omega), fieldAt_take (by omega)] at hl hh
        rw [zero_mul, zero_add, fieldAt_append_left _ (by omega), fieldAt_append_left _ (by omega)]
        exact ⟨hl, hh⟩
      | succ b =>
        obtain ⟨hl, hh⟩ := hrest b (by omega) i hi
        rw [fieldAt_drop, fieldAt_drop] at hl hh
        have hindex : (b + 1) * (2 * half) + i = 2 * half + (b * (2 * half) + i) := by ring
        rw [hindex, Nat.add_assoc (2 * half)]
        rw [fieldAt_append_right _ hhead, fieldAt_append_right _ hhead]
        exact ⟨hl, hh⟩
    · intro v hv
      rcases List.mem_append.mp hv with hv | hv
      · exact hcan v hv
      · exact hcan' v hv

/-! ## The whole transform -/

theorem radix2Loop_spec {root : ℤ} {x : ℕ → F} (hroot : 0 < k → (root : F) ^ 2 ^ (k - 1) = -1)
    (remaining : ℕ) {s : ℕ} (hs : s + remaining = k) (hlength : result.length = 2 ^ k)
    (hcan : CanonicalVector result) (h : Transformed k s (root : F) x (fieldAt result)) :
    (radix2Loop root (2 ^ k) (2 ^ (s + 1)) result).length = 2 ^ k ∧
      CanonicalVector (radix2Loop root (2 ^ k) (2 ^ (s + 1)) result) ∧
      Transformed k k (root : F) x (fieldAt (radix2Loop root (2 ^ k) (2 ^ (s + 1)) result)) := by
  induction remaining generalizing s result with
  | zero =>
    obtain rfl : s = k := by omega
    have hdone : ¬ (0 < 2 ^ (s + 1) ∧ 2 ^ (s + 1) ≤ 2 ^ s) := by
      rw [pow_succ]
      have : 0 < 2 ^ s := by positivity
      omega
    rw [radix2Loop, dif_neg hdone]
    exact ⟨hlength, hcan, h⟩
  | succ remaining ih =>
    have hlt : s < k := by omega
    have hgo : 0 < 2 ^ (s + 1) ∧ 2 ^ (s + 1) ≤ 2 ^ k :=
      ⟨by positivity, Nat.pow_le_pow_right (by norm_num) (by omega)⟩
    have hdiv : 2 ^ k / 2 ^ (s + 1) = 2 ^ (k - (s + 1)) := Nat.pow_div (by omega) (by norm_num)
    have hblocks : result.length = 2 ^ (k - (s + 1)) * (2 * 2 ^ s) := by
      rw [hlength, ← pow_succ', ← pow_add, Nat.sub_add_cancel (by omega)]
    rw [radix2Loop, dif_pos hgo, hdiv, ← pow_succ]
    simp only
    have hstep : ((powMod root (2 ^ (k - (s + 1))) goldilocksModulus : ℤ) : F) =
        (root : F) ^ 2 ^ (k - (s + 1)) := intCast_powMod _ _ _
    obtain ⟨hlen, hentries, hcan'⟩ := butterflyStage_spec
      (powMod root (2 ^ (k - (s + 1))) goldilocksModulus) (2 ^ s) _ hblocks
    rw [← hblocks, hlength, ← pow_succ'] at hlen
    rw [← pow_succ'] at hentries hcan'
    refine ih (by omega) hlen hcan' (transformed_succ hlt (hroot (by omega)) h ?_ ?_)
    · intro b hb j hj
      rw [pow_mul, ← hstep]
      exact (hentries b hb j hj).1
    · intro b hb j hj
      rw [pow_mul, ← hstep]
      exact (hentries b hb j hj).2

theorem radix2Transform_spec {root : ℤ} (hroot : 0 < k → (root : F) ^ 2 ^ (k - 1) = -1)
    (hlength : values.length = 2 ^ k) (hcan : CanonicalVector values) :
    (radix2Transform values root).length = 2 ^ k ∧
      CanonicalVector (radix2Transform values root) ∧
      ∀ i < 2 ^ k, fieldAt (radix2Transform values root) i =
        ∑ m ∈ Finset.range (2 ^ k), fieldAt values m * (root : F) ^ (i * m) := by
  obtain ⟨hlen, hentries⟩ := bitReversePermute_spec hlength
  have hcan' : CanonicalVector (bitReversePermute values) := by
    intro v hv
    obtain ⟨i, hi, rfl⟩ := List.getElem_of_mem hv
    have := hentries i (hlen ▸ hi)
    rw [List.getD_eq_getElem _ _ hi,
      List.getD_eq_getElem _ _ (hlength ▸ rev_lt k i)] at this
    rw [this]
    exact hcan _ (List.getElem_mem _)
  have hstart : Transformed k 0 (root : F) (fieldAt values) (fieldAt (bitReversePermute values)) :=
    transformed_zero _ fun i hi => congrArg _ (hentries i hi)
  obtain ⟨hlen', hcan'', hfinal⟩ := radix2Loop_spec hroot k (Nat.zero_add k) hlen hcan' hstart
  rw [radix2Transform, hlength]
  exact ⟨hlen', hcan'', fun i hi => hfinal.eval hi⟩

theorem shiftCoefficients_spec (shift shiftPower : ℤ) (values : List ℤ) :
    (shiftCoefficients shift shiftPower values).length = values.length ∧
      CanonicalVector (shiftCoefficients shift shiftPower values) ∧
      ∀ i, fieldAt (shiftCoefficients shift shiftPower values) i =
        fieldAt values i * (shiftPower * (shift : F) ^ i) := by
  induction values generalizing shiftPower with
  | nil => simp [shiftCoefficients, CanonicalVector, fieldAt]
  | cons value values ih =>
    obtain ⟨hlen, hcan, hentries⟩ := ih (shiftPower * shift % goldilocksModulus)
    rw [shiftCoefficients]
    refine ⟨by simp [hlen], List.forall_mem_cons.mpr ⟨canonical_emod _, hcan⟩, fun i => ?_⟩
    cases i with
    | zero =>
      simp only [fieldAt, List.getD_cons_zero, intCast_emod, Int.cast_mul, pow_zero, mul_one]
    | succ i =>
      have := hentries i
      simp only [fieldAt, List.getD_cons_succ, intCast_emod, Int.cast_mul] at this ⊢
      rw [this]
      ring

theorem fieldVector_eq_ok {length : ℕ} (name : String) (hpos : values ≠ [])
    (hlength : values.length = length) (hcap : length ≤ maxGoldilocksReferenceDomainSize)
    (hcan : CanonicalVector values) : fieldVector values (some length) name = .ok values := by
  simp only [fieldVector, bind_eq_ok, raiseIf_eq_ok, Option.mem_some_iff, exists_eq_left', not_not,
    not_lt]
  refine ⟨(), hpos, (), hlength, (), by omega, ?_⟩
  have hitems : ∀ v ∈ values.zipIdx, canonicalGoldilocks v.1
      (name ++ "[" ++ toString v.2 ++ "]") = .ok v.1 := by
    intro v hv
    exact canonicalGoldilocks_eq_ok.mpr ⟨hcan _ (List.fst_mem_of_mem_zipIdx hv), rfl⟩
  rw [mapM_eq_ok_map hitems]
  exact congrArg Except.ok (List.zipIdx_map_fst 0 values)

theorem nttGoldilocksReference_spec {coefficients : List ℤ}
    (domain : GoldilocksRadix2DomainReference) (hk : k ≤ 16) (hsize : domain.size = 2 ^ k)
    (hgenerator : (domain.generator : F) = rootOf k) (hlength : coefficients.length = 2 ^ k)
    (hcan : CanonicalVector coefficients) :
    ∃ codeword, nttGoldilocksReference coefficients domain = .ok codeword ∧
      codeword.length = 2 ^ k ∧ CanonicalVector codeword ∧
      ∀ i < 2 ^ k, fieldAt codeword i =
        ∑ m ∈ Finset.range (2 ^ k), fieldAt coefficients m *
          ((domain.shift : F) * rootOf k ^ i) ^ m := by
  have hne : coefficients ≠ [] := by
    rw [← List.length_pos_iff, hlength]
    positivity
  have hcap : domain.size ≤ maxGoldilocksReferenceDomainSize := by
    rw [hsize]
    exact Nat.pow_le_pow_right (by norm_num) hk
  have hvector := fieldVector_eq_ok "Goldilocks NTT coefficients" hne (hlength.trans hsize.symm)
    hcap hcan
  obtain ⟨hlen, hcan', hshift⟩ := shiftCoefficients_spec domain.shift 1 coefficients
  have hroot : 0 < k → (domain.generator : F) ^ 2 ^ (k - 1) = -1 := by
    intro hpos
    obtain ⟨m, rfl⟩ : ∃ m, k = m + 1 := ⟨k - 1, by omega⟩
    rw [hgenerator, Nat.add_sub_cancel, rootOf_pow_half (by omega)]
  obtain ⟨hlen', hcan'', heval⟩ := radix2Transform_spec hroot (hlen.trans hlength) hcan'
  refine ⟨_, ?_, hlen', hcan'', fun i hi => ?_⟩
  · simp only [nttGoldilocksReference, bind_eq_ok, pure_eq_ok]
    exact ⟨coefficients, hvector, rfl⟩
  · rw [heval i hi]
    refine Finset.sum_congr rfl fun m _ => ?_
    rw [hshift, hgenerator, mul_pow, ← pow_mul, Int.cast_one]
    ring

end Verathos
