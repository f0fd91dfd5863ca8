import Verathos.BatchOpening.Defs
import Verathos.Logup.Replay

/-!
# The tables and the rounds of a batch opening

The prover sums over `g_table`, the combination of the equality polynomials of the claims, and the
verifier evaluates the same combination at the terminal point.

* `eqTable_eq`: the numpy table is the table of the Python loop;
* `eqTable_spec`: both hold the values of the equality polynomial;
* `claimsTable_spec`: `g_table` holds the `combination` of the claims;
* `inner_combination`: a sum against the combination is the combination of the claimed values.
-/

namespace Verathos.BatchOpening

open Logup Merkle Multilinear Pcs

/-! ## The equality table -/

theorem toNat_ofNat_emod (x : ℤ) :
    ((UInt64.ofNat (x % goldilocksModulus).toNat).toNat : ℤ) = x % goldilocksModulus := by
  have hcanonical := canonical_emod x
  have hlt := hcanonical.toNat_lt
  have hnonneg := hcanonical.1
  rw [UInt64.toNat_ofNat_of_lt' (by rw [UInt64.size]; omega)]
  exact Int.toNat_of_nonneg hnonneg

/-- The numpy table is the table of the Python loop. -/
theorem map_toNat_eqTableNp (point : List ℤ) :
    (eqTableNp point).map (fun w => (w.toNat : ℤ)) = eqTableLoop point := by
  induction point using List.reverseRecOn with
  | nil => rfl
  | append_singleton point r ih =>
    have hmul : ∀ (w : UInt64) (x : ℤ),
        ((Numpy.glMulNp w (UInt64.ofNat (x % goldilocksModulus).toNat)).toNat : ℤ) =
          (w.toNat : ℤ) * (x % goldilocksModulus) % goldilocksModulus := by
      intro w x
      rw [Numpy.glMulNp_spec, Int.natCast_mod, Nat.cast_mul, toNat_ofNat_emod]
    have hreduce : ∀ w x : ℤ, w * (x % goldilocksModulus) % goldilocksModulus =
        w * x % goldilocksModulus := fun w x => emod_eq_emod_iff.mpr (by simp)
    rw [eqTableNp, eqTableLoop, List.foldl_append, List.foldl_append, ← eqTableNp, ← eqTableLoop,
      ← ih]
    simp only [List.foldl_cons, List.foldl_nil, List.map_append, List.map_map, Function.comp_def,
      hmul, hreduce]

variable (numpy : Bool)

theorem eqTable_eq (point : List ℤ) : eqTable numpy point = eqTableLoop point := by
  rw [eqTable]
  split_ifs
  · exact map_toNat_eqTableNp point
  · rfl

theorem eqTable_spec (point : List ℤ) :
    (eqTable numpy point).length = 2 ^ point.length ∧
      ∀ i < 2 ^ point.length, fieldAt (eqTable numpy point) i = eqWeight (toField point) i := by
  rw [eqTable_eq]
  induction point using List.reverseRecOn with
  | nil => simp [eqTableLoop, fieldAt, eqWeight, toField]
  | append_singleton point r ih =>
    obtain ⟨hlength, hentries⟩ := ih
    have hmap : ∀ (x : ℤ), ∀ i < 2 ^ point.length,
        fieldAt ((eqTableLoop point).map fun w => w * x % goldilocksModulus) i =
          eqWeight (toField point) i * x := by
      intro x i hi
      rw [← hentries i hi, fieldAt, fieldAt, List.getD_eq_getElem _ _ (by simpa [hlength] using hi),
        List.getElem_map, intCast_emod, Int.cast_mul, List.getD_eq_getElem _ _ (hlength.symm ▸ hi)]
    have hstep : eqTableLoop (point ++ [r]) =
        (eqTableLoop point).map (fun w => w * ((1 - r) % goldilocksModulus) % goldilocksModulus) ++
          (eqTableLoop point).map fun w => w * r % goldilocksModulus := by
      rw [eqTableLoop, List.foldl_append, ← eqTableLoop]
      rfl
    rw [hstep, List.length_append, List.length_map, List.length_map, hlength, List.length_append,
      List.length_singleton, pow_succ, mul_two]
    refine ⟨rfl, fun i hi => ?_⟩
    rw [toField_append, toField_cons, show toField [] = [] from rfl, eqWeight_append_singleton,
      length_toField]
    rcases lt_or_ge i (2 ^ point.length) with hlow | hhigh
    · rw [fieldAt_append_left _ (by rwa [List.length_map, hlength]), hmap _ i hlow,
        Nat.div_eq_of_lt hlow, if_neg (by norm_num), intCast_emod]
      push_cast
      rfl
    · obtain ⟨j, rfl⟩ := Nat.exists_eq_add_of_le hhigh
      have hdiv : (2 ^ point.length + j) / 2 ^ point.length = 1 := by
        rw [Nat.add_div_left _ (Nat.two_pow_pos _), Nat.div_eq_of_lt (by omega)]
      have hlow := eqWeight_add_mul (toField point) j 1
      rw [length_toField, mul_one, add_comm] at hlow
      rw [fieldAt_append_right _ (by rw [List.length_map, hlength]), hmap r j (by omega), hdiv,
        if_pos rfl, hlow]

/-! ## The combined table -/

/-- The combination of the equality polynomials of some claims. -/
def combination (pairs : List (ℤ × GoldilocksBatchOpeningClaimV3)) (i : ℕ) : F :=
  (pairs.map fun pair => (pair.1 : F) * eqWeight (toField pair.2.point) i).sum

theorem combination_cons (pair : ℤ × GoldilocksBatchOpeningClaimV3)
    (pairs : List (ℤ × GoldilocksBatchOpeningClaimV3)) (i : ℕ) :
    combination (pair :: pairs) i =
      pair.1 * eqWeight (toField pair.2.point) i + combination pairs i := by
  rw [combination, List.map_cons, List.sum_cons, combination]

variable {n : ℕ}

theorem foldl_claims_spec {pairs : List (ℤ × GoldilocksBatchOpeningClaimV3)}
    (hpoints : ∀ pair ∈ pairs, pair.2.point.length = n) (table : List ℤ)
    (hlength : table.length = 2 ^ n) :
    let result := pairs.foldl (fun table (pair : ℤ × GoldilocksBatchOpeningClaimV3) =>
      List.zipWith (fun g eqValue => (g + pair.1 * eqValue) % goldilocksModulus) table
        (eqTable numpy pair.2.point)) table
    result.length = 2 ^ n ∧
      ∀ i < 2 ^ n, fieldAt result i = fieldAt table i + combination pairs i := by
  induction pairs generalizing table with
  | nil => simp [hlength, combination]
  | cons pair pairs ih =>
    obtain ⟨hpoint, hpoints⟩ := List.forall_mem_cons.mp hpoints
    obtain ⟨heqLength, heqEntries⟩ := eqTable_spec numpy pair.2.point
    rw [hpoint] at heqLength heqEntries
    set next := List.zipWith (fun g eqValue => (g + pair.1 * eqValue) % goldilocksModulus) table
      (eqTable numpy pair.2.point) with hnext
    have hnextLength : next.length = 2 ^ n := by
      rw [hnext, List.length_zipWith, hlength, heqLength, min_self]
    obtain ⟨hresult, hentries⟩ := ih hpoints next hnextLength
    refine ⟨hresult, fun i hi => (hentries i hi).trans ?_⟩
    have hentry : fieldAt next i =
        fieldAt table i + pair.1 * eqWeight (toField pair.2.point) i := by
      rw [← heqEntries i hi, fieldAt, fieldAt, fieldAt, hnext,
        List.getD_eq_getElem _ _ (by rwa [← hnext, hnextLength]), List.getElem_zipWith, intCast_emod,
        List.getD_eq_getElem _ _ (hlength.symm ▸ hi), List.getD_eq_getElem _ _ (heqLength.symm ▸ hi)]
      push_cast
      rfl
    rw [hentry, combination_cons, add_assoc]

theorem claimsTable_spec (coefficients : List ℤ) {claims : List GoldilocksBatchOpeningClaimV3}
    (hpoints : ∀ claim ∈ claims, claim.point.length = n) :
    (claimsTable numpy coefficients claims n).length = 2 ^ n ∧
      ∀ i < 2 ^ n, fieldAt (claimsTable numpy coefficients claims n) i =
        combination (coefficients.zip claims) i := by
  have hpairs : ∀ pair ∈ coefficients.zip claims, pair.2.point.length = n :=
    fun pair hpair => hpoints pair.2 (List.of_mem_zip hpair).2
  obtain ⟨hlength, hentries⟩ := foldl_claims_spec numpy hpairs
    (List.replicate (1 <<< n) 0) (by rw [List.length_replicate, Nat.one_shiftLeft])
  refine ⟨hlength, fun i hi => (hentries i hi).trans ?_⟩
  have hzero : fieldAt (List.replicate (1 <<< n) 0) i = 0 := by
    rw [fieldAt, List.getD_eq_getElem?_getD, List.getElem?_replicate]
    split_ifs <;> exact Int.cast_zero
  rw [hzero, zero_add]

theorem mle_combination (point : List F) (pairs : List (ℤ × GoldilocksBatchOpeningClaimV3)) :
    mle point (combination pairs) =
      (pairs.map fun pair => (pair.1 : F) * mle point (eqWeight (toField pair.2.point))).sum := by
  induction pairs with
  | nil => simp [mle, Multilinear.inner, combination]
  | cons pair pairs ih =>
    have hcons : combination (pair :: pairs) = fun i =>
        combination pairs i + pair.1 * eqWeight (toField pair.2.point) i := by
      funext i
      rw [combination_cons, add_comm]
    rw [hcons, mle_smul_add, ih, List.map_cons, List.sum_cons, add_comm]

theorem inner_combination (v : ℕ → F) {pairs : List (ℤ × GoldilocksBatchOpeningClaimV3)}
    (hpoints : ∀ pair ∈ pairs, pair.2.point.length = n) :
    Multilinear.inner n v (combination pairs) =
      (pairs.map fun pair => (pair.1 : F) * mle (toField pair.2.point) v).sum := by
  induction pairs with
  | nil => simp [Multilinear.inner, combination]
  | cons pair pairs ih =>
    obtain ⟨hpoint, hpoints⟩ := List.forall_mem_cons.mp hpoints
    rw [List.map_cons, List.sum_cons, ← ih hpoints, mle, length_toField, hpoint]
    simp only [Multilinear.inner, combination_cons, Finset.mul_sum, ← Finset.sum_add_distrib]
    refine Finset.sum_congr rfl fun i _ => ?_
    ring

/-!
## The rounds of an honest batch opening

A round of the prover binds the last variable that is left, so the terminal point is the list of
challenges in reverse.

* `roundEvals_spec`: a round tabulates the honest round polynomial at 0, 1, 2 and 3;
* `cubic_of_quadratic`: four values determine the polynomial, so that the replay follows it;
* `claimsLoop_spec`: the loop returns rounds that the replay follows down to the product of the two
  multilinear extensions at the terminal point.
-/

/-! ### One round -/

/-- A row holds the values of a polynomial at 0, 1, 2 and 3. -/
structure Tabulates (row : Row) (q : F → F) : Prop where
  canonical : ∀ v ∈ row.toList, Canonical v
  e0_eq : (row.e0 : F) = q 0
  e1_eq : (row.e1 : F) = q 1
  e2_eq : (row.e2 : F) = q 2
  e3_eq : (row.e3 : F) = q 3

theorem intCast_evalStep (workV workG : List ℤ) (half i : ℕ) (z eval : ℤ) :
    (evalStep workV workG half i z eval : F) =
      eval + foldHigh half (z : F) (fieldAt workV) i * foldHigh half (z : F) (fieldAt workG) i := by
  simp only [evalStep, intCast_emod, Int.cast_add, Int.cast_mul, Int.cast_sub, foldHigh, fieldAt]

variable {workV : List ℤ}

theorem roundEvals_spec (workG : List ℤ) (hlength : workV.length = 2 ^ (n + 1)) :
    Tabulates (roundEvals workV workG) (highRound n (fieldAt workV) (fieldAt workG)) := by
  set half := workV.length / 2 with hhalf
  have hpow : half = 2 ^ n := by
    rw [hhalf, hlength, pow_succ, Nat.mul_div_cancel _ (by norm_num)]
  -- after `k` cells the row holds the partial sums
  have hloop : ∀ k, Tabulates ((List.range k).foldl (fun (row : Row) i =>
      ⟨evalStep workV workG half i 0 row.e0, evalStep workV workG half i 1 row.e1,
        evalStep workV workG half i 2 row.e2, evalStep workV workG half i 3 row.e3⟩) ⟨0, 0, 0, 0⟩)
      fun (z : F) => ∑ i ∈ Finset.range k,
        foldHigh half z (fieldAt workV) i * foldHigh half z (fieldAt workG) i := by
    intro k
    induction k with
    | zero =>
      refine ⟨fun v hv => ?_, ?_, ?_, ?_, ?_⟩
      · obtain rfl : v = 0 := by simpa [Row.toList] using hv
        decide
      all_goals simp
    | succ k ih =>
      rw [List.range_succ, List.foldl_append, List.foldl_cons, List.foldl_nil]
      refine ⟨fun v hv => ?_, ?_, ?_, ?_, ?_⟩
      · simp only [Row.toList, List.mem_cons, List.not_mem_nil, or_false] at hv
        rcases hv with rfl | rfl | rfl | rfl <;> exact canonical_emod _
      · rw [intCast_evalStep, ih.e0_eq, Finset.sum_range_succ, Int.cast_zero]
      · rw [intCast_evalStep, ih.e1_eq, Finset.sum_range_succ, Int.cast_one]
      · rw [intCast_evalStep, ih.e2_eq, Finset.sum_range_succ, Int.cast_ofNat]
      · rw [intCast_evalStep, ih.e3_eq, Finset.sum_range_succ, Int.cast_ofNat]
  have hsum : highRound n (fieldAt workV) (fieldAt workG) = fun (z : F) => ∑ i ∈ Finset.range half,
      foldHigh half z (fieldAt workV) i * foldHigh half z (fieldAt workG) i := by
    funext z
    rw [highRound, Multilinear.inner, hpow]
  rw [hsum]
  exact hloop half

theorem cubic_of_quadratic (a b c z : F) :
    cubic a (a + b + c) (a + b * 2 + c * 2 ^ 2) (a + b * 3 + c * 3 ^ 2) z = a + b * z + c * z ^ 2 := by
  have hsix : (6 : F) * 6⁻¹ = 1 := by
    refine mul_inv_cancel₀ fun h => ?_
    have hdvd : goldilocksModulus ∣ 6 := (ZMod.natCast_eq_zero_iff 6 goldilocksModulus).mp (by
      exact_mod_cast h)
    exact absurd (Nat.le_of_dvd (by norm_num) hdvd) (by norm_num [goldilocksModulus])
  have htwo : (2 : F)⁻¹ = 3 * 6⁻¹ := by
    refine inv_eq_of_mul_eq_one_right ?_
    linear_combination hsix
  rw [cubic, htwo]
  linear_combination (a + b * z + c * z ^ 2) * hsix

theorem Tabulates.cubic_eq {row : Row} {v w : ℕ → F} (h : Tabulates row (highRound n v w)) (z : F) :
    cubic row.e0 row.e1 row.e2 row.e3 z = highRound n v w z := by
  obtain ⟨a, b, c, hq⟩ := highRound_eq_eval n v w
  have hcubic := cubic_of_quadratic a b c z
  have h0 : highRound n v w 0 = a := by
    rw [hq]
    ring
  have h1 : highRound n v w 1 = a + b + c := by
    rw [hq]
    ring
  rw [h.e0_eq, h.e1_eq, h.e2_eq, h.e3_eq, h0, h1, hq 2, hq 3, hq z, hcubic]

theorem length_foldHalves (work : List ℤ) (half : ℕ) (challenge : ℤ) :
    (foldHalves work half challenge).length = half := by
  rw [foldHalves, List.length_map, List.length_range]

theorem fieldAt_foldHalves (work : List ℤ) {half : ℕ} (challenge : ℤ) {i : ℕ} (hi : i < half) :
    fieldAt (foldHalves work half challenge) i = foldHigh half (challenge : F) (fieldAt work) i := by
  rw [fieldAt, List.getD_eq_getElem _ _ (by rwa [length_foldHalves])]
  simp only [foldHalves, List.getElem_map, List.getElem_range, intCast_emod, Int.cast_add,
    Int.cast_mul, Int.cast_sub, foldHigh, fieldAt]

/-! ### The loop -/

variable {sha256 : Bytes → Digest}

theorem canonical_of_derive {seed : Digest} {label : Bytes} {index : ℕ} {challenge : ℤ}
    (h : derive sha256 seed label index = .ok challenge) : Canonical challenge := by
  simp only [derive, bind_eq_ok] at h
  obtain ⟨-, -, hsample⟩ := h
  obtain ⟨word, rfl, hword⟩ := rejectionSample_eq_ok hsample
  exact ⟨Int.natCast_nonneg _, Int.ofNat_lt.mpr hword⟩

/-- The rounds of the prover from two vectors of `2 ^ n` entries on, and the replay that follows
them. -/
structure HonestClaims (sha256 : Bytes → Digest) (n count : ℕ) (workV workG : List ℤ)
    (transcript : Digest) (rounds : List Row) (challenges : List ℤ) (last : ℤ) : Prop where
  length_rounds : rounds.length = n
  length_challenges : challenges.length = n
  canonical_challenges : CanonicalVector challenges
  /-- The last value is the multilinear extension at the reversed challenges. -/
  last_eq : (last : F) = mle (toField challenges.reverse) (fieldAt workV)
  /-- The replay starts from the sum of the products and ends in the product of the extensions. -/
  replayed : ∀ (lib : Bool) (mismatch : PyError) (running : ℤ), Canonical running →
    (running : F) = Multilinear.inner n (fieldAt workV) (fieldAt workG) →
    ∃ value transcript', replayLoop sha256 (claimsReading lib) [] (asciiBytes "batchopen") mismatch
        rounds count running transcript = .ok (challenges, value, transcript') ∧
      (value : F) = mle (toField challenges.reverse) (fieldAt workV) *
        mle (toField challenges.reverse) (fieldAt workG)

theorem toField_reverse_cons (challenge : ℤ) (challenges : List ℤ) :
    toField (challenge :: challenges).reverse =
      toField challenges.reverse ++ [(challenge : F)] := by
  rw [List.reverse_cons, toField_append]
  rfl

theorem mle_reverse_cons {challenges : List ℤ} (hlength : challenges.length = n) (challenge : ℤ)
    (work : List ℤ) :
    mle (toField challenges.reverse) (fieldAt (foldHalves work (2 ^ n) challenge)) =
      mle (toField (challenge :: challenges).reverse) (fieldAt work) := by
  have hreverse : (toField challenges.reverse).length = n := by
    rw [length_toField, List.length_reverse, hlength]
  rw [toField_reverse_cons, mle_append_singleton, hreverse, mle, mle, hreverse]
  exact inner_congr (fun i hi => fieldAt_foldHalves work challenge hi) fun _ _ => rfl

theorem HonestClaims.cons {count : ℕ} {workG : List ℤ} {transcript : Digest} {rounds : List Row}
    {challenges : List ℤ} {last challenge : ℤ} (hlength : workV.length = 2 ^ (n + 1))
    (hchallenge : derive sha256 (sha256 (transcript.bytes ++ (roundEvals workV workG).bytes))
      (asciiBytes "batchopen") (count + 1) = .ok challenge)
    (h : HonestClaims sha256 n (count + 1) (foldHalves workV (2 ^ n) challenge)
      (foldHalves workG (2 ^ n) challenge)
      (sha256 (transcript.bytes ++ (roundEvals workV workG).bytes)) rounds challenges last) :
    HonestClaims sha256 (n + 1) count workV workG transcript (roundEvals workV workG :: rounds)
      (challenge :: challenges) last where
  length_rounds := by rw [List.length_cons, h.length_rounds]
  length_challenges := by rw [List.length_cons, h.length_challenges]
  canonical_challenges := List.forall_mem_cons.mpr
    ⟨canonical_of_derive hchallenge, h.canonical_challenges⟩
  last_eq := by rw [h.last_eq, mle_reverse_cons h.length_challenges]
  replayed := by
    intro lib mismatch running hrunning hsum
    have hrow := roundEvals_spec workG hlength
    set row := roundEvals workV workG with hrowDef
    -- the values at 0 and 1 add up to the running value
    have hfirst : (row.e0 + row.e1) % goldilocksModulus = running := by
      refine (hrunning.eq_emod_iff.mpr ?_).symm
      rw [hsum, ← highRound_sum, Int.cast_add, hrow.e0_eq, hrow.e1_eq]
    -- the cubic at the challenge is the sum that the next round starts from
    have hnext : cubic row.e0 row.e1 row.e2 row.e3 challenge = Multilinear.inner n
        (fieldAt (foldHalves workV (2 ^ n) challenge))
        (fieldAt (foldHalves workG (2 ^ n) challenge)) := by
      rw [hrow.cubic_eq, highRound]
      exact inner_congr (fun i hi => (fieldAt_foldHalves workV challenge hi).symm)
        fun i hi => (fieldAt_foldHalves workG challenge hi).symm
    obtain ⟨value, transcript', hloop, hvalue⟩ := h.replayed lib mismatch
      (ofField (cubic row.e0 row.e1 row.e2 row.e3 challenge)) (canonical_ofField _)
      (by rw [intCast_ofField, hnext])
    refine ⟨value, transcript', replayLoop_cons_eq_ok.mpr ⟨row,
      (readings_of_canonical hrow.canonical lib).2, hfirst, challenge, ?_, _,
      lagrange0123_eq_ok.mpr ⟨canonical_ofField _, intCast_ofField _⟩,
      (challenges, value, transcript'), ?_, rfl⟩, ?_⟩
    · rwa [List.append_nil]
    · rwa [List.append_nil]
    · rw [hvalue, mle_reverse_cons h.length_challenges, mle_reverse_cons h.length_challenges]

theorem claimsLoop_spec {bound : ℕ} (hderive : ∀ transcript, ∀ index ≤ bound,
      Accepts (derive sha256 transcript (asciiBytes "batchopen") index)) {count : ℕ}
    (hbound : count + n ≤ bound) (workG : List ℤ) (hlength : workV.length = 2 ^ n)
    (transcript : Digest) :
    ∃ rounds challenges last,
      claimsLoop sha256 count workV workG transcript = .ok (rounds, challenges, [last]) ∧
      HonestClaims sha256 n count workV workG transcript rounds challenges last := by
  induction n generalizing count workV workG transcript with
  | zero =>
    obtain ⟨last, rfl⟩ := List.length_eq_one_iff.mp hlength
    have hmle : ∀ v : ℕ → F, mle [] v = v 0 := fun v => by simp [mle, Multilinear.inner, eqWeight]
    refine ⟨[], [], last, ?_, rfl, rfl, List.forall_mem_nil _, ?_, fun lib mismatch running _ hsum => ?_⟩
    · rw [claimsLoop, dif_neg (by simp)]
      rfl
    · exact (hmle (fieldAt [last])).symm
    · refine ⟨running, transcript, rfl, ?_⟩
      rw [hsum]
      change _ = mle [] _ * mle [] _
      rw [hmle, hmle]
      simp [Multilinear.inner]
  | succ n ih =>
    have hhalf : workV.length / 2 = 2 ^ n := by
      rw [hlength, pow_succ, Nat.mul_div_cancel _ (by norm_num)]
    have hlong : 1 < workV.length := by
      rw [hlength]
      exact Nat.one_lt_two_pow (Nat.succ_ne_zero n)
    obtain ⟨challenge, hchallenge⟩ := hderive
      (sha256 (transcript.bytes ++ (roundEvals workV workG).bytes)) (count + 1) (by omega)
    obtain ⟨rounds, challenges, last, hloop, hrun⟩ := ih
      (show count + 1 + n ≤ bound by omega) (foldHalves workG (2 ^ n) challenge)
      (length_foldHalves workV (2 ^ n) challenge)
      (sha256 (transcript.bytes ++ (roundEvals workV workG).bytes))
    refine ⟨_, _, last, ?_, hrun.cons hlength hchallenge⟩
    rw [claimsLoop, dif_pos hlong, hhalf]
    simp only [bind_eq_ok, pure_eq_ok]
    exact ⟨challenge, hchallenge, _, hloop, rfl⟩

end Verathos.BatchOpening
