import Verathos.Goldilocks.Ntt

/-!
# Interpolation and low-degree extension

The rest of `goldilocks_reference.py`: the points of a domain, the inverse transform and the
low-degree extension.

- `points_spec`: the points are `shift * generator ^ i`, in this order.
- `ntt_intt_inverse`: the transform evaluates the coefficient polynomial at the points, and the
  inverse transform undoes it on both sides.
- `lde_evaluates`: the extension evaluates, on the target coset, the polynomial of degree less than
  the source size with the source values.
-/

namespace Verathos

open ModularPower Radix2 Fourier

/-! ## Definitions -/

/-- The loop of `points`, and the power after the last point. -/
def pointsLoop (generator : ℤ) : ℕ → ℤ → List ℤ × ℤ
  | 0, current => ([], current)
  | size + 1, current =>
    let rest := pointsLoop generator size (current * generator % goldilocksModulus)
    (current :: rest.1, rest.2)

def GoldilocksRadix2DomainReference.points (domain : GoldilocksRadix2DomainReference) :
    Result (List ℤ) := do
  let result := pointsLoop domain.generator domain.size domain.shift
  raiseIf (result.2 ≠ domain.shift)
    (.proofV3Error "Goldilocks domain generator failed its order check")
  return result.1

/-- The transformed values scaled by the inverse size and the powers of the inverse shift. -/
def scaleCoefficients (inverseSize inverseShift : ℤ) : ℤ → List ℤ → List ℤ
  | _, [] => []
  | shiftPower, value :: rest =>
    value * inverseSize % goldilocksModulus * shiftPower % goldilocksModulus ::
      scaleCoefficients inverseSize inverseShift (shiftPower * inverseShift % goldilocksModulus) rest

def inttGoldilocksReference (evaluations : List ℤ) (domain : GoldilocksRadix2DomainReference) :
    Result (List ℤ) := do
  let vector ← fieldVector evaluations (some domain.size) "Goldilocks inverse NTT evaluations"
  let inverseRoot ← goldilocksInv domain.generator
  let transformed := radix2Transform vector inverseRoot
  let inverseSize ← goldilocksInv domain.size
  let inverseShift ← goldilocksInv domain.shift
  return scaleCoefficients inverseSize inverseShift 1 transformed

def ldeGoldilocksReference (sourceEvaluations : List ℤ) (targetSize : ℕ)
    (sourceShift targetShift : ℤ) : Result (List ℤ) := do
  let source ← fieldVector sourceEvaluations none "Goldilocks LDE source evaluations"
  let sourceSize ← radix2Size source.length "Goldilocks LDE source_size" true
  let target ← radix2Size targetSize "Goldilocks LDE target_size" true
  raiseIf (target < sourceSize ∨ target % sourceSize ≠ 0)
    (.proofV3Error "Goldilocks LDE target_size must be a multiple of source_size")
  let sourceDomain ← goldilocksRadix2DomainReference sourceSize sourceShift
  let targetDomain ← goldilocksRadix2DomainReference target targetShift
  let coefficients ← inttGoldilocksReference source sourceDomain
  let padded := coefficients ++ List.replicate (target - sourceSize) 0
  nttGoldilocksReference padded targetDomain

/-! ## Domains -/

theorem isPrimitiveRoot_rootOf {k : ℕ} (hk : k ≤ 32) : IsPrimitiveRoot (rootOf k) (2 ^ k) := by
  rw [IsPrimitiveRoot.iff_orderOf]
  cases k with
  | zero =>
    rw [pow_zero, orderOf_eq_one_iff]
    simpa using rootOf_pow hk
  | succ k =>
    refine orderOf_eq_prime_pow ?_ (rootOf_pow hk)
    rw [rootOf_pow_half hk]
    intro h
    have htwo : (2 : F) = 0 := by linear_combination -h
    exact two_ne_zero_F htwo

theorem rootOf_ne_zero {k : ℕ} (hk : k ≤ 32) : rootOf k ≠ 0 :=
  (isPrimitiveRoot_rootOf hk).ne_zero (by positivity)

/-- A domain of `2 ^ k` points. -/
structure IsDomain (k : ℕ) (domain : GoldilocksRadix2DomainReference) : Prop where
  le : k ≤ 16
  size : domain.size = 2 ^ k
  shift_canonical : Canonical domain.shift
  shift_ne_zero : domain.shift ≠ 0
  generator_canonical : Canonical domain.generator
  generator : (domain.generator : F) = rootOf k

theorem goldilocksRadix2DomainReference_spec {k : ℕ} (hk : k ≤ 16) {shift : ℤ}
    (hcan : Canonical shift) (hne : shift ≠ 0) :
    ∃ domain, goldilocksRadix2DomainReference (2 ^ k) shift = .ok domain ∧ IsDomain k domain ∧
      domain.shift = shift := by
  obtain ⟨root, hroot, hrootCan, hrootCast⟩ := principalRoot_spec (show k ≤ 32 by omega)
  refine ⟨⟨2 ^ k, shift, root⟩, ?_, ⟨hk, rfl, hcan, hne, hrootCan, hrootCast⟩, rfl⟩
  simp only [goldilocksRadix2DomainReference, bind_eq_ok, raiseIf_eq_ok, pure_eq_ok,
    canonicalGoldilocks_eq_ok]
  exact ⟨2 ^ k, radix2Size_two_pow _ (by omega) fun _ => hk, shift, ⟨hcan, rfl⟩, (), hne, root, hroot,
    rfl⟩

section Domain

variable {k : ℕ} {domain : GoldilocksRadix2DomainReference}

theorem IsDomain.shift_cast_ne_zero (h : IsDomain k domain) : (domain.shift : F) ≠ 0 := by
  intro hzero
  refine h.shift_ne_zero (h.shift_canonical.ext ⟨le_rfl, goldilocksModulus_pos⟩ ?_)
  simpa using hzero

theorem IsDomain.generator_ne_zero (h : IsDomain k domain) : domain.generator ≠ 0 := by
  intro hzero
  have hcast := h.generator
  rw [hzero, Int.cast_zero] at hcast
  exact rootOf_ne_zero (h.le.trans (by norm_num)) hcast.symm

theorem IsDomain.canonical_size (h : IsDomain k domain) : Canonical (domain.size : ℤ) := by
  have hle : (2 : ℤ) ^ k ≤ 2 ^ 16 := pow_le_pow_right₀ (by norm_num) h.le
  rw [h.size]
  refine ⟨by positivity, ?_⟩
  rw [goldilocksModulus]
  push_cast
  omega

theorem pointsLoop_spec (generator : ℤ) (size : ℕ) {current : ℤ} (hcurrent : Canonical current) :
    (pointsLoop generator size current).1.length = size ∧
      CanonicalVector (pointsLoop generator size current).1 ∧
      Canonical (pointsLoop generator size current).2 ∧
      ((pointsLoop generator size current).2 : F) = current * (generator : F) ^ size ∧
      ∀ i < size, fieldAt (pointsLoop generator size current).1 i =
        current * (generator : F) ^ i := by
  induction size generalizing current with
  | zero => exact ⟨rfl, by simp [pointsLoop, CanonicalVector], hcurrent, by simp [pointsLoop], by simp⟩
  | succ size ih =>
    obtain ⟨hlength, hcan, hlast, hcast, hentries⟩ :=
      ih (canonical_emod (current * generator))
    rw [intCast_emod] at hcast hentries
    refine ⟨congrArg (· + 1) hlength, List.forall_mem_cons.mpr ⟨hcurrent, hcan⟩, hlast, ?_, ?_⟩
    · show ((pointsLoop generator size (current * generator % goldilocksModulus)).2 : F) = _
      rw [hcast]
      push_cast
      ring
    · intro i hi
      cases i with
      | zero => simp [pointsLoop, fieldAt]
      | succ i =>
        have hentry := hentries i (by omega)
        show fieldAt (pointsLoop generator size (current * generator % goldilocksModulus)).1 i = _
        rw [hentry]
        push_cast
        ring

theorem points_spec (h : IsDomain k domain) :
    ∃ points, domain.points = .ok points ∧ points.length = 2 ^ k ∧ CanonicalVector points ∧
      ∀ i < 2 ^ k, fieldAt points i = domain.shift * rootOf k ^ i := by
  obtain ⟨hlength, hcan, hlast, hcast, hentries⟩ :=
    pointsLoop_spec domain.generator domain.size h.shift_canonical
  rw [h.generator] at hcast hentries
  refine ⟨_, ?_, hlength.trans h.size, hcan, fun i hi => hentries i (h.size ▸ hi)⟩
  simp only [GoldilocksRadix2DomainReference.points, bind_eq_ok, raiseIf_eq_ok, pure_eq_ok, not_not]
  refine ⟨(), hlast.ext h.shift_canonical ?_, trivial⟩
  rw [hcast, h.size, rootOf_pow (h.le.trans (by norm_num)), mul_one]

/-! ## The transforms on a domain -/

variable {coefficients : List ℤ}

theorem IsDomain.ntt (h : IsDomain k domain) (hlength : coefficients.length = 2 ^ k)
    (hcan : CanonicalVector coefficients) :
    ∃ evaluations, nttGoldilocksReference coefficients domain = .ok evaluations ∧
      evaluations.length = 2 ^ k ∧ CanonicalVector evaluations ∧
      ∀ i < 2 ^ k, fieldAt evaluations i =
        dft (2 ^ k) (rootOf k) (fun m => fieldAt coefficients m * (domain.shift : F) ^ m) i := by
  obtain ⟨evaluations, hntt, hlen, hcan', hentries⟩ :=
    nttGoldilocksReference_spec domain h.le h.size h.generator hlength hcan
  refine ⟨evaluations, hntt, hlen, hcan', fun i hi => ?_⟩
  rw [hentries i hi, dft]
  refine Finset.sum_congr rfl fun m _ => ?_
  rw [mul_pow, ← pow_mul]
  ring

theorem scaleCoefficients_spec (inverseSize inverseShift shiftPower : ℤ) (values : List ℤ) :
    (scaleCoefficients inverseSize inverseShift shiftPower values).length = values.length ∧
      CanonicalVector (scaleCoefficients inverseSize inverseShift shiftPower values) ∧
      ∀ i, fieldAt (scaleCoefficients inverseSize inverseShift shiftPower values) i =
        fieldAt values i * inverseSize * (shiftPower * (inverseShift : F) ^ i) := by
  induction values generalizing shiftPower with
  | nil => simp [scaleCoefficients, CanonicalVector, fieldAt]
  | cons value values ih =>
    obtain ⟨hlen, hcan, hentries⟩ := ih (shiftPower * inverseShift % goldilocksModulus)
    rw [scaleCoefficients]
    refine ⟨by simp [hlen], List.forall_mem_cons.mpr ⟨canonical_emod _, hcan⟩, fun i => ?_⟩
    cases i with
    | zero =>
      simp only [fieldAt, List.getD_cons_zero, intCast_emod, Int.cast_mul, pow_zero, mul_one]
    | succ i =>
      have := hentries i
      simp only [fieldAt, List.getD_cons_succ, intCast_emod, Int.cast_mul] at this ⊢
      rw [this]
      ring

variable {evaluations : List ℤ}

theorem IsDomain.intt (h : IsDomain k domain) (hlength : evaluations.length = 2 ^ k)
    (hcan : CanonicalVector evaluations) :
    ∃ coefficients, inttGoldilocksReference evaluations domain = .ok coefficients ∧
      coefficients.length = 2 ^ k ∧ CanonicalVector coefficients ∧
      ∀ i < 2 ^ k, fieldAt coefficients i * (domain.shift : F) ^ i * (2 ^ k : ℕ) =
        dft (2 ^ k) (rootOf k)⁻¹ (fieldAt evaluations) i := by
  have hk32 : k ≤ 32 := h.le.trans (by norm_num)
  obtain ⟨inverseRoot, hinverseRoot, hrootCast⟩ :=
    goldilocksInv_spec h.generator_canonical h.generator_ne_zero
  have hsizeNe : (domain.size : ℤ) ≠ 0 := by
    rw [h.size]
    positivity
  obtain ⟨inverseSize, hinverseSize, hsizeCast⟩ := goldilocksInv_spec h.canonical_size hsizeNe
  obtain ⟨inverseShift, hinverseShift, hshiftCast⟩ :=
    goldilocksInv_spec h.shift_canonical h.shift_ne_zero
  rw [h.generator] at hrootCast
  have hroot : 0 < k → (inverseRoot : F) ^ 2 ^ (k - 1) = -1 := by
    intro hpos
    obtain ⟨m, rfl⟩ : ∃ m, k = m + 1 := ⟨k - 1, by omega⟩
    rw [hrootCast, inv_pow, Nat.add_sub_cancel, rootOf_pow_half hk32, inv_neg, inv_one]
  obtain ⟨hlen, -, hentries⟩ := radix2Transform_spec hroot hlength hcan
  obtain ⟨hlen', hcan', hscaled⟩ := scaleCoefficients_spec inverseSize inverseShift 1
    (radix2Transform evaluations inverseRoot)
  refine ⟨_, ?_, hlen'.trans hlen, hcan', fun i hi => ?_⟩
  · have hne : evaluations ≠ [] := by
      rw [← List.length_pos_iff, hlength]
      positivity
    have hcap : domain.size ≤ maxGoldilocksReferenceDomainSize := by
      rw [h.size]
      exact Nat.pow_le_pow_right (by norm_num) h.le
    have hvector := fieldVector_eq_ok "Goldilocks inverse NTT evaluations" hne
      (hlength.trans h.size.symm) hcap hcan
    simp only [inttGoldilocksReference, bind_eq_ok, pure_eq_ok]
    exact ⟨evaluations, hvector, inverseRoot, hinverseRoot, inverseSize, hinverseSize, inverseShift,
      hinverseShift, rfl⟩
  · have hsize : ((2 ^ k : ℕ) : F) ≠ 0 := by
      push_cast
      exact pow_ne_zero k two_ne_zero_F
    have hshift : (domain.shift : F) ^ i ≠ 0 := pow_ne_zero i h.shift_cast_ne_zero
    rw [hscaled, hentries i hi, hrootCast, hsizeCast, hshiftCast, h.size, Int.cast_one, one_mul,
      Int.cast_natCast, dft, inv_pow]
    generalize ∑ m ∈ Finset.range (2 ^ k), fieldAt evaluations m * (rootOf k)⁻¹ ^ (i * m) = t
    field_simp

theorem CanonicalVector.ext {xs ys : List ℤ} (hxs : CanonicalVector xs) (hys : CanonicalVector ys)
    (hlength : xs.length = ys.length) (h : ∀ i < xs.length, fieldAt xs i = fieldAt ys i) :
    xs = ys := by
  refine List.ext_getElem hlength fun i hi hi' => ?_
  have hentry := h i hi
  rw [fieldAt, fieldAt, List.getD_eq_getElem _ _ hi, List.getD_eq_getElem _ _ hi'] at hentry
  exact (hxs _ (List.getElem_mem hi)).ext (hys _ (List.getElem_mem hi')) hentry

theorem size_ne_zero (k : ℕ) : ((2 ^ k : ℕ) : F) ≠ 0 := by
  push_cast
  exact pow_ne_zero k two_ne_zero_F

theorem IsDomain.intt_ntt (h : IsDomain k domain) (hlength : coefficients.length = 2 ^ k)
    (hcan : CanonicalVector coefficients)
    (hntt : nttGoldilocksReference coefficients domain = .ok evaluations) :
    inttGoldilocksReference evaluations domain = .ok coefficients := by
  have hprimitive := isPrimitiveRoot_rootOf (h.le.trans (show 16 ≤ 32 by norm_num))
  obtain ⟨_, heq, hlen, hcanEval, heval⟩ := h.ntt hlength hcan
  obtain rfl := Except.ok.inj (hntt.symm.trans heq)
  obtain ⟨coefficients', hintt, hlen', hcan', hcoeff⟩ := h.intt hlen hcanEval
  have hsame : coefficients' = coefficients := by
    refine hcan'.ext hcan (hlen'.trans hlength.symm) fun i hi => ?_
    rw [hlen'] at hi
    have hi' := hcoeff i hi
    rw [dft_congr heval, dft_dft hprimitive
      (mul_inv_cancel₀ (rootOf_ne_zero (h.le.trans (by norm_num)))) _ hi, mul_comm] at hi'
    exact mul_right_cancel₀ (pow_ne_zero i h.shift_cast_ne_zero)
      (mul_left_cancel₀ (size_ne_zero k) hi')
  rw [hintt, hsame]

theorem IsDomain.ntt_intt (h : IsDomain k domain) (hlength : evaluations.length = 2 ^ k)
    (hcan : CanonicalVector evaluations)
    (hintt : inttGoldilocksReference evaluations domain = .ok coefficients) :
    nttGoldilocksReference coefficients domain = .ok evaluations := by
  have hprimitive := (isPrimitiveRoot_rootOf (h.le.trans (show 16 ≤ 32 by norm_num))).inv
  obtain ⟨_, heq, hlen, hcanCoeff, hcoeff⟩ := h.intt hlength hcan
  obtain rfl := Except.ok.inj (hintt.symm.trans heq)
  obtain ⟨evaluations', hntt, hlen', hcan', heval⟩ := h.ntt hlen hcanCoeff
  have hsame : evaluations' = evaluations := by
    refine hcan'.ext hcan (hlen'.trans hlength.symm) fun i hi => ?_
    rw [hlen'] at hi
    have hscaled : (2 ^ k : ℕ) * fieldAt evaluations' i =
        dft (2 ^ k) (rootOf k) (dft (2 ^ k) (rootOf k)⁻¹ (fieldAt evaluations)) i := by
      rw [← dft_congr hcoeff, heval i hi, dft, dft, Finset.mul_sum]
      exact Finset.sum_congr rfl fun m _ => by ring
    rw [dft_dft hprimitive (inv_mul_cancel₀ (rootOf_ne_zero (h.le.trans (by norm_num)))) _ hi]
      at hscaled
    exact mul_left_cancel₀ (size_ne_zero k) hscaled
  rw [hntt, hsame]

end Domain

/-! ## Polynomials -/

/-- The polynomial with a vector of coefficients. -/
noncomputable def coefficientPolynomial (coefficients : List ℤ) : Polynomial F :=
  ofCoefficients coefficients.length (fieldAt coefficients)

/-- The field elements of a vector are the values of a polynomial at points. -/
def Evaluates (evaluations points : List ℤ) (P : Polynomial F) : Prop :=
  evaluations.length = points.length ∧
    ∀ i < points.length, fieldAt evaluations i = P.eval (fieldAt points i)

section Domain

variable {k : ℕ} {domain : GoldilocksRadix2DomainReference}

theorem IsDomain.ntt_evaluates (h : IsDomain k domain) {coefficients points : List ℤ}
    (hlength : coefficients.length = 2 ^ k) (hcan : CanonicalVector coefficients)
    (hpoints : domain.points = .ok points) :
    ∃ evaluations, nttGoldilocksReference coefficients domain = .ok evaluations ∧
      CanonicalVector evaluations ∧
      Evaluates evaluations points (coefficientPolynomial coefficients) := by
  obtain ⟨evaluations, hntt, hlen, hcan', heval⟩ := h.ntt hlength hcan
  obtain ⟨_, heq, hpointsLen, -, hpoint⟩ := points_spec h
  obtain rfl := Except.ok.inj (hpoints.symm.trans heq)
  refine ⟨evaluations, hntt, hcan', hlen.trans hpointsLen.symm, fun i hi => ?_⟩
  rw [hpointsLen] at hi
  rw [heval i hi, hpoint i hi, coefficientPolynomial, eval_ofCoefficients, hlength, dft]
  refine Finset.sum_congr rfl fun m _ => ?_
  rw [mul_pow, ← pow_mul]
  ring

theorem IsDomain.eq_of_evaluates (h : IsDomain k domain) {evaluations points : List ℤ}
    (hpoints : domain.points = .ok points) {P Q : Polynomial F} (hP : P.degree < (2 ^ k : ℕ))
    (hQ : Q.degree < (2 ^ k : ℕ)) (hevalP : Evaluates evaluations points P)
    (hevalQ : Evaluates evaluations points Q) : P = Q := by
  obtain ⟨_, heq, hpointsLen, -, hpoint⟩ := points_spec h
  obtain rfl := Except.ok.inj (hpoints.symm.trans heq)
  refine eq_of_eval_eq (coset_injOn (isPrimitiveRoot_rootOf (h.le.trans (by norm_num)))
    h.shift_cast_ne_zero) hP hQ fun i hi => ?_
  rw [← hpoint i hi, ← hevalP.2 i (hpointsLen ▸ hi), hevalQ.2 i (hpointsLen ▸ hi)]

end Domain

theorem coefficientPolynomial_append_zeros (coefficients : List ℤ) (count : ℕ) :
    coefficientPolynomial (coefficients ++ List.replicate count 0) =
      coefficientPolynomial coefficients := by
  have hlow : ∀ j ∈ Finset.range coefficients.length,
      fieldAt (coefficients ++ List.replicate count 0) j = fieldAt coefficients j :=
    fun j hj => fieldAt_append_left _ (Finset.mem_range.mp hj)
  have hhigh : ∀ j ∈ Finset.range count,
      fieldAt (coefficients ++ List.replicate count 0) (coefficients.length + j) = 0 := by
    intro j hj
    rw [fieldAt_append_right _ rfl]
    simp [fieldAt, List.getD_eq_getElem?_getD, Finset.mem_range.mp hj]
  have hzero : ∑ j ∈ Finset.range count,
      Polynomial.C (fieldAt (coefficients ++ List.replicate count 0) (coefficients.length + j)) *
        Polynomial.X ^ (coefficients.length + j) = 0 :=
    Finset.sum_eq_zero fun j hj => by rw [hhigh j hj, Polynomial.C_0, zero_mul]
  rw [coefficientPolynomial, coefficientPolynomial, ofCoefficients, ofCoefficients,
    List.length_append, List.length_replicate, Finset.sum_range_add, hzero, add_zero]
  exact Finset.sum_congr rfl fun j hj => by rw [hlow j hj]

theorem degree_coefficientPolynomial_lt {coefficients : List ℤ} {size : ℕ}
    (hlength : coefficients.length = size) : (coefficientPolynomial coefficients).degree < size :=
  hlength ▸ degree_ofCoefficients_lt _ _

theorem fieldVector_none_eq_ok {values : List ℤ} (name : String) (hpos : values ≠ [])
    (hcap : values.length ≤ maxGoldilocksReferenceDomainSize) (hcan : CanonicalVector values) :
    fieldVector values none name = .ok values := by
  have hsome := fieldVector_eq_ok name hpos rfl hcap hcan
  simp only [fieldVector, bind_eq_ok, raiseIf_eq_ok] at hsome ⊢
  obtain ⟨_, hne, _, -, _, hle, hitems⟩ := hsome
  exact ⟨(), hne, (), by simp, (), hle, hitems⟩

theorem lde_evaluates {k m : ℕ} {source : List ℤ} {sourceShift targetShift : ℤ}
    {sourceDomain targetDomain : GoldilocksRadix2DomainReference} {sourcePoints targetPoints : List ℤ}
    (hkm : k ≤ m) (hlength : source.length = 2 ^ k) (hcan : CanonicalVector source)
    (hsource : goldilocksRadix2DomainReference (2 ^ k) sourceShift = .ok sourceDomain)
    (htarget : goldilocksRadix2DomainReference (2 ^ m) targetShift = .ok targetDomain)
    (hsourceDomain : IsDomain k sourceDomain) (htargetDomain : IsDomain m targetDomain)
    (hsourcePoints : sourceDomain.points = .ok sourcePoints)
    (htargetPoints : targetDomain.points = .ok targetPoints) :
    ∃ (evaluations : List ℤ) (P : Polynomial F),
      ldeGoldilocksReference source (2 ^ m) sourceShift targetShift = .ok evaluations ∧
      CanonicalVector evaluations ∧ P.degree < (2 ^ k : ℕ) ∧ Evaluates source sourcePoints P ∧
      Evaluates evaluations targetPoints P := by
  have hpow : 2 ^ k ≤ 2 ^ m := Nat.pow_le_pow_right (by norm_num) hkm
  obtain ⟨coefficients, hintt, hlen, hcanCoeff, -⟩ := hsourceDomain.intt hlength hcan
  obtain ⟨_, heq, -, hevalSource⟩ :=
    hsourceDomain.ntt_evaluates hlen hcanCoeff hsourcePoints
  obtain rfl := Except.ok.inj ((hsourceDomain.ntt_intt hlength hcan hintt).symm.trans heq)
  have hpadded : (coefficients ++ List.replicate (2 ^ m - 2 ^ k) (0 : ℤ)).length = 2 ^ m := by
    rw [List.length_append, List.length_replicate, hlen]
    omega
  have hpaddedCan : CanonicalVector (coefficients ++ List.replicate (2 ^ m - 2 ^ k) 0) := by
    intro v hv
    rcases List.mem_append.mp hv with hv | hv
    · exact hcanCoeff v hv
    · rw [List.eq_of_mem_replicate hv]
      exact ⟨le_rfl, goldilocksModulus_pos⟩
  obtain ⟨evaluations, hntt, hcanEval, heval⟩ :=
    htargetDomain.ntt_evaluates hpadded hpaddedCan htargetPoints
  rw [coefficientPolynomial_append_zeros] at heval
  refine ⟨evaluations, coefficientPolynomial coefficients, ?_, hcanEval,
    degree_coefficientPolynomial_lt hlen, hevalSource, heval⟩
  have hne : source ≠ [] := by
    rw [← List.length_pos_iff, hlength]
    positivity
  have hcap : source.length ≤ maxGoldilocksReferenceDomainSize := by
    rw [hlength]
    exact Nat.pow_le_pow_right (by norm_num) hsourceDomain.le
  have hk16 := hsourceDomain.le
  have hm16 := htargetDomain.le
  simp only [ldeGoldilocksReference, bind_eq_ok, raiseIf_eq_ok]
  refine ⟨source, fieldVector_none_eq_ok _ hne hcap hcan, 2 ^ k, ?_, 2 ^ m,
    radix2Size_two_pow _ (by omega) fun _ => hm16, (), ?_, sourceDomain, hsource, targetDomain,
    htarget, coefficients, hintt, hntt⟩
  · rw [hlength]
    exact radix2Size_two_pow _ (by omega) fun _ => hk16
  · rw [not_or, not_lt, not_not]
    exact ⟨hpow, Nat.mod_eq_zero_of_dvd (Nat.pow_dvd_pow 2 hkm)⟩

/-- The transforms of the reference are correct. On every domain of a power of two up to `2 ^ 16`
and every nonzero shift, the transform returns the values of the coefficient polynomial at the
points in their order, and the inverse transform inverts it on both sides. The extension of a source
vector returns, in the order of the target points, the values of the polynomial of degree less than
the source size that has the source values, and there is one such polynomial. -/
theorem ntt_correct :
    (∀ k ≤ 16, ∀ shift, Canonical shift → shift ≠ 0 → ∃ domain points,
      goldilocksRadix2DomainReference (2 ^ k) shift = .ok domain ∧ domain.points = .ok points ∧
      points.length = 2 ^ k ∧ (∀ i < 2 ^ k, fieldAt points i = shift * rootOf k ^ i) ∧
      (∀ coefficients, coefficients.length = 2 ^ k → CanonicalVector coefficients →
        ∃ evaluations, nttGoldilocksReference coefficients domain = .ok evaluations ∧
          CanonicalVector evaluations ∧
          Evaluates evaluations points (coefficientPolynomial coefficients) ∧
          inttGoldilocksReference evaluations domain = .ok coefficients) ∧
      ∀ evaluations, evaluations.length = 2 ^ k → CanonicalVector evaluations →
        ∃ coefficients, inttGoldilocksReference evaluations domain = .ok coefficients ∧
          coefficients.length = 2 ^ k ∧ CanonicalVector coefficients ∧
          nttGoldilocksReference coefficients domain = .ok evaluations) ∧
    ∀ k m, k ≤ m → m ≤ 16 → ∀ sourceShift targetShift, Canonical sourceShift → sourceShift ≠ 0 →
      Canonical targetShift → targetShift ≠ 0 → ∃ sourceDomain targetDomain sourcePoints targetPoints,
        goldilocksRadix2DomainReference (2 ^ k) sourceShift = .ok sourceDomain ∧
        goldilocksRadix2DomainReference (2 ^ m) targetShift = .ok targetDomain ∧
        sourceDomain.points = .ok sourcePoints ∧ targetDomain.points = .ok targetPoints ∧
        ∀ source, source.length = 2 ^ k → CanonicalVector source →
          ∃ (evaluations : List ℤ) (P : Polynomial F),
          ldeGoldilocksReference source (2 ^ m) sourceShift targetShift = .ok evaluations ∧
          CanonicalVector evaluations ∧ Evaluates evaluations targetPoints P ∧
          (P.degree < (2 ^ k : ℕ) ∧ Evaluates source sourcePoints P) ∧
          ∀ Q : Polynomial F, Q.degree < (2 ^ k : ℕ) → Evaluates source sourcePoints Q → Q = P := by
  constructor
  · intro k hk shift hcan hne
    obtain ⟨domain, hdomain, his, hshift⟩ := goldilocksRadix2DomainReference_spec hk hcan hne
    obtain ⟨points, hpoints, hlength, -, hentries⟩ := points_spec his
    rw [hshift] at hentries
    refine ⟨domain, points, hdomain, hpoints, hlength, hentries, ?_, ?_⟩
    · intro coefficients hlen hcoeff
      obtain ⟨evaluations, hntt, hcanEval, heval⟩ := his.ntt_evaluates hlen hcoeff hpoints
      exact ⟨evaluations, hntt, hcanEval, heval, his.intt_ntt hlen hcoeff hntt⟩
    · intro evaluations hlen heval
      obtain ⟨coefficients, hintt, hlen', hcoeff, -⟩ := his.intt hlen heval
      exact ⟨coefficients, hintt, hlen', hcoeff, his.ntt_intt hlen heval hintt⟩
  · intro k m hkm hm sourceShift targetShift hs hsne ht htne
    obtain ⟨sourceDomain, hsource, hisSource, -⟩ :=
      goldilocksRadix2DomainReference_spec (hkm.trans hm) hs hsne
    obtain ⟨targetDomain, htarget, hisTarget, -⟩ := goldilocksRadix2DomainReference_spec hm ht htne
    obtain ⟨sourcePoints, hsourcePoints, -⟩ := points_spec hisSource
    obtain ⟨targetPoints, htargetPoints, -⟩ := points_spec hisTarget
    refine ⟨sourceDomain, targetDomain, sourcePoints, targetPoints, hsource, htarget, hsourcePoints,
      htargetPoints, fun source hlen hcan => ?_⟩
    obtain ⟨evaluations, P, hlde, hcanEval, hdegree, hevalSource, heval⟩ := lde_evaluates hkm hlen hcan
      hsource htarget hisSource hisTarget hsourcePoints htargetPoints
    exact ⟨evaluations, P, hlde, hcanEval, heval, ⟨hdegree, hevalSource⟩, fun Q hQ hevalQ =>
      hisSource.eq_of_evaluates hsourcePoints hQ hdegree hevalQ hevalSource⟩

/-- The extension of two values to four points of another coset. -/
theorem ntt_correct_sample :
    ∃ evaluations, ldeGoldilocksReference [5, 9] 4 1 7 = .ok evaluations ∧
      CanonicalVector evaluations := by
  obtain ⟨_, _, _, _, -, -, -, -, hlde⟩ := ntt_correct.2 1 2 (by norm_num) (by norm_num) 1 7
    (by decide) (by decide) (by decide) (by decide)
  obtain ⟨evaluations, -, heval, hcan, -⟩ := hlde [5, 9] rfl (by
    intro v hv
    simp only [List.mem_cons, List.not_mem_nil, or_false] at hv
    rcases hv with rfl | rfl <;> exact ⟨by norm_num, by norm_num [goldilocksModulus]⟩)
  exact ⟨evaluations, heval, hcan⟩

end Verathos
