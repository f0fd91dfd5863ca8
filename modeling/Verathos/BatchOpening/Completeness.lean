import Verathos.BatchOpening.Rounds
import Verathos.Pcs.Completeness

/-!
# Completeness of the batch opening

The verifier starts from the claimed values, replays the rounds, divides by the combination at the
terminal point and checks one opening there.

* `claimSum_spec`: true claims make the replay start from the sum that the prover starts from;
* `eqCombination_spec`: the combination at the terminal point;
* `batchOpening_complete`: an honest proof is accepted exactly when that combination is not zero.
-/

namespace Verathos.BatchOpening

open Logup Merkle ModularPower Multilinear Pcs

/-! ## The claims -/

theorem toField_map_emod (point : List ℤ) :
    toField (point.map (· % goldilocksModulus)) = toField point := by
  rw [toField, toField, List.map_map]
  exact List.map_congr_left fun v _ => intCast_emod v

theorem eqEval_spec {pointA pointB : List ℤ} (hlength : pointA.length = pointB.length) :
    ∃ value, eqEval pointA pointB = .ok value ∧
      (value : F) = mle (toField pointA) (eqWeight (toField pointB)) := by
  have hloop : ∀ (pairs : List (ℤ × ℤ)) (start : ℤ),
      ((pairs.foldl (fun result (x : ℤ × ℤ) =>
        result * (((1 - x.1) * (1 - x.2) + x.1 * x.2) % goldilocksModulus) % goldilocksModulus)
          start : ℤ) : F) = start * (pairs.map fun x => eqTerm (x.1 : F) (x.2 : F)).prod := by
    intro pairs
    induction pairs with
    | nil => simp
    | cons x pairs ih =>
      intro start
      rw [List.foldl_cons, ih, List.map_cons, List.prod_cons, intCast_emod, Int.cast_mul,
        intCast_emod, eqTerm]
      push_cast
      ring
  have hzip : (toField pointA).zip (toField pointB) =
      (pointA.zip pointB).map fun x => ((x.1 : F), (x.2 : F)) := by
    rw [toField, toField, List.zip_map]
    rfl
  refine ⟨(pointA.zip pointB).foldl (fun result (x : ℤ × ℤ) =>
    result * (((1 - x.1) * (1 - x.2) + x.1 * x.2) % goldilocksModulus) % goldilocksModulus) 1, ?_, ?_⟩
  · simp only [eqEval, bind_eq_ok, raiseIf_eq_ok, pure_eq_ok, not_not]
    exact ⟨(), hlength, trivial⟩
  · rw [hloop, Int.cast_one, one_mul, ← foldAll_eq_mle, foldAll_eqWeight (by simpa using hlength),
      hzip, List.map_map]
    rfl

variable {claims : List GoldilocksBatchOpeningClaimV3}

theorem eqCombination_spec {point : List ℤ} (coefficients : List ℤ)
    (hpoints : ∀ claim ∈ claims, claim.point.length = point.length) :
    ∃ g, eqCombination coefficients claims point = .ok g ∧ Canonical g ∧
      (g : F) = mle (toField point) (combination (coefficients.zip claims)) := by
  have hloop : ∀ (pairs : List (ℤ × GoldilocksBatchOpeningClaimV3)) (start : ℤ), Canonical start →
      (∀ pair ∈ pairs, pair.2.point.length = point.length) →
      ∃ g, pairs.foldlM (fun g (pair : ℤ × GoldilocksBatchOpeningClaimV3) => (do
          let eq ← eqEval point (pair.2.point.map (· % goldilocksModulus))
          return (g + pair.1 * eq) % goldilocksModulus : Result ℤ)) start = .ok g ∧ Canonical g ∧
        (g : F) = start + (pairs.map fun pair =>
          (pair.1 : F) * mle (toField point) (eqWeight (toField pair.2.point))).sum := by
    intro pairs
    induction pairs with
    | nil => exact fun start hstart _ => ⟨start, rfl, hstart, by simp⟩
    | cons pair pairs ih =>
      intro start _ hlengths
      obtain ⟨hlength, hlengths⟩ := List.forall_mem_cons.mp hlengths
      obtain ⟨eq, heq, hvalue⟩ := eqEval_spec
        (show point.length = (pair.2.point.map (· % (goldilocksModulus : ℤ))).length by
          rw [List.length_map, hlength])
      rw [toField_map_emod] at hvalue
      obtain ⟨g, hg, hcanonical, hsum⟩ := ih ((start + pair.1 * eq) % goldilocksModulus)
        (canonical_emod _) hlengths
      refine ⟨g, ?_, hcanonical, ?_⟩
      · rw [List.foldlM_cons, bind_eq_ok]
        refine ⟨_, ?_, hg⟩
        simp only [bind_eq_ok, pure_eq_ok]
        exact ⟨eq, heq, rfl⟩
      · rw [hsum, intCast_emod, Int.cast_add, Int.cast_mul, hvalue, List.map_cons, List.sum_cons,
          add_assoc]
  obtain ⟨g, hg, hcanonical, hsum⟩ := hloop (coefficients.zip claims) 0 (by decide)
    fun pair hpair => hpoints pair.2 (List.of_mem_zip hpair).2
  refine ⟨g, hg, hcanonical, ?_⟩
  rw [hsum, mle_combination, Int.cast_zero, zero_add]

theorem intCast_claimSum (coefficients : List ℤ) (claims : List GoldilocksBatchOpeningClaimV3) :
    (claimSum coefficients claims : F) =
      ((coefficients.zip claims).map fun pair => (pair.1 : F) * pair.2.value).sum := by
  have hloop : ∀ (pairs : List (ℤ × GoldilocksBatchOpeningClaimV3)) (start : ℤ),
      ((pairs.foldl (fun running (pair : ℤ × GoldilocksBatchOpeningClaimV3) =>
        (running + pair.1 * (pair.2.value % goldilocksModulus)) % goldilocksModulus) start : ℤ) : F) =
        start + (pairs.map fun pair => (pair.1 : F) * pair.2.value).sum := by
    intro pairs
    induction pairs with
    | nil => simp
    | cons pair pairs ih =>
      intro start
      rw [List.foldl_cons, ih, intCast_emod, Int.cast_add, Int.cast_mul, intCast_emod,
        List.map_cons, List.sum_cons, add_assoc]
  have hsum := hloop (coefficients.zip claims) 0
  rw [Int.cast_zero, zero_add] at hsum
  exact hsum

theorem claimSum_spec {n : ℕ} {values coefficients : List ℤ}
    (hpoints : ∀ claim ∈ claims, claim.point.length = n) (htrue : ∀ claim ∈ claims,
      claim.value % goldilocksModulus = multilinearExtension values claim.point) :
    (claimSum coefficients claims : F) =
      Multilinear.inner n (fieldAt values) (combination (coefficients.zip claims)) := by
  have hmem : ∀ pair ∈ coefficients.zip claims, pair.2 ∈ claims := fun pair hpair =>
    (List.of_mem_zip hpair).2
  rw [intCast_claimSum, inner_combination _ fun pair hpair => hpoints pair.2 (hmem pair hpair)]
  congr 1
  refine List.map_congr_left fun pair hpair => ?_
  rw [← intCast_multilinearExtension, ← htrue pair.2 (hmem pair hpair), intCast_emod]

theorem terminalClaim_eq_ok {coefficients challenges : List ℤ} {running g v : ℤ}
    (hg : eqCombination coefficients claims challenges.reverse = .ok g) (hne : g ≠ 0)
    (hcanonical : Canonical g) (hv : Canonical v) (hrunning : (running : F) = v * g) :
    terminalClaim coefficients claims challenges running = .ok (challenges.reverse, v) := by
  have hgF : (g : F) ≠ 0 := fun h => hne (hcanonical.ext (by decide) (by simpa using h))
  simp only [terminalClaim, hg, bind_eq_ok, raiseIf_eq_ok, pure_eq_ok, Except.ok.injEq,
    exists_eq_left']
  refine ⟨(), hne, Prod.ext rfl (emod_eq_iff.mpr ⟨hv, ?_⟩)⟩
  rw [Int.cast_mul, intCast_powMod, pow_modulus_sub_two hgF, hrunning, mul_assoc,
    mul_inv_cancel₀ hgF, mul_one]

/-! ## Completeness -/

/-- Completeness of the batch opening. For every statement whose codeword fits the CPU cap, every
vector of canonical values, every nonempty list of claims that hold of the vector, whatever their
points, every nonce, and with or without numpy and the compiled library: when the rejection loops
find their candidates, committing and proving return. The terminal point is the reversed list of
challenges, and the combination at that point decides: when it is not zero, the replay arrives at the
multilinear extension of the vector there, and the verifier accepts the proof exactly in that
case. -/
theorem batchOpening_complete (sha256 : Bytes → Digest)
    (pcsStatement : GoldilocksMultilinearPcsStatementV3) (values : List ℤ)
    (claims : List GoldilocksBatchOpeningClaimV3) (validatorNonce : Bytes) (lib numpy : Bool)
    (hcap : pcsStatement.codewordSize ≤ maxGoldilocksReferenceDomainSize)
    (hvalues : values.length = 2 ^ pcsStatement.variableCount)
    (hcanonical : CanonicalVector values) (hclaims : claims ≠ [])
    (hpoints : ∀ claim ∈ claims, claim.point.length = pcsStatement.variableCount)
    (htrue : ∀ claim ∈ claims,
      claim.value % goldilocksModulus = multilinearExtension values claim.point)
    (hnonce : validatorNonce.length = 32) (hshift : Accepts (pcsStatement.baseShift sha256))
    (hfold : ∀ transcript roundIndex,
      Accepts (deriveField sha256 transcript foldLabel roundIndex))
    (hcoefficients : ∀ transcript, ∀ index < claims.length,
      Accepts (derive sha256 transcript (asciiBytes "batchcoef") index))
    (hrounds : ∀ transcript, ∀ index ≤ pcsStatement.variableCount,
      Accepts (derive sha256 transcript (asciiBytes "batchopen") index)) :
    ∃ tree proof transcript coefficients challenges running g,
      commitGoldilocksMultilinearV3 sha256 pcsStatement values = .ok tree ∧
      claimsPhase sha256 pcsStatement numpy tree.commitment.bytes values claims validatorNonce =
        .ok (proof.roundPolynomials, challenges.reverse,
          multilinearExtension values challenges.reverse) ∧
      proveGoldilocksBatchOpeningV3 sha256 pcsStatement lib numpy tree values claims
        validatorNonce = .ok proof ∧
      batchSeed sha256 pcsStatement tree.commitment.bytes claims validatorNonce = .ok transcript ∧
      (List.range claims.length).mapM (derive sha256 transcript (asciiBytes "batchcoef")) =
        .ok coefficients ∧
      replayClaimRounds sha256 lib proof.roundPolynomials (claimSum coefficients claims) transcript =
        .ok (challenges, running) ∧
      eqCombination coefficients claims challenges.reverse = .ok g ∧
      (g ≠ 0 → replayClaims sha256 pcsStatement lib proof.roundPolynomials tree.commitment.bytes
        claims validatorNonce =
          .ok (challenges.reverse, multilinearExtension values challenges.reverse)) ∧
      (Accepts (verifyGoldilocksBatchOpeningV3 sha256 pcsStatement lib proof tree.commitment.bytes
        claims validatorNonce) ↔ g ≠ 0) := by
  obtain ⟨shift, hshift⟩ := hshift
  have hsmall := variableCount_add_two_le_sixteen hcap
  obtain ⟨codeword, hlayer, hcommit⟩ := commit_honest hshift hsmall hvalues hcanonical
  set tree := honestLayerTree sha256 pcsStatement 0 codeword with htree
  -- the seed and the coefficients
  obtain ⟨transcript, hseed⟩ : Accepts (batchSeed sha256 pcsStatement tree.commitment.bytes claims
      validatorNonce) := by
    simp only [Accepts, batchSeed, bind_eq_ok, fixedBytes32_eq_ok, pure_eq_ok]
    exact ⟨_, tree.commitment, rfl, ⟨validatorNonce, hnonce⟩, rfl, rfl⟩
  obtain ⟨coefficients, hdraws⟩ := exists_mapM_iff.mpr fun index hindex =>
    hcoefficients transcript index (List.mem_range.mp hindex)
  have hvalidate : validateClaims pcsStatement claims = .ok () := by
    simp only [validateClaims, bind_eq_ok, raiseIf_eq_ok, not_exists, not_and, not_not]
    exact ⟨(), hclaims, hpoints⟩
  -- the rounds
  obtain ⟨htableLength, htable⟩ := claimsTable_spec numpy coefficients hpoints
  set gTable := claimsTable numpy coefficients claims pcsStatement.variableCount with hgTable
  have hreduced : values.map (· % (goldilocksModulus : ℤ)) = values :=
    (List.map_congr_left fun v hv => (hcanonical v hv).emod_eq).trans (List.map_id values)
  obtain ⟨rounds, challenges, last, hloop, hrun⟩ := claimsLoop_spec hrounds (Nat.zero_add _).le
    gTable hvalues transcript
  have hpoint : challenges.reverse.length = pcsStatement.variableCount := by
    rw [List.length_reverse, hrun.length_challenges]
  have hlast : last % goldilocksModulus = multilinearExtension values challenges.reverse := by
    refine (Canonical.eq_emod_iff (canonical_emod _)).mpr ?_
    rw [intCast_emod, hrun.last_eq, ← intCast_multilinearExtension, multilinearExtension,
      intCast_emod]
  have hphase : claimsPhase sha256 pcsStatement numpy tree.commitment.bytes values claims
      validatorNonce = .ok (rounds, challenges.reverse,
        multilinearExtension values challenges.reverse) := by
    simp only [claimsPhase, bind_eq_ok, raiseIf_eq_ok, pure_eq_ok, getItem_eq_ok, not_lt, hreduced]
    refine ⟨(), hvalidate, transcript, hseed, coefficients, hdraws, (), ?_, _, hloop, last, rfl, ?_⟩
    · rw [← hgTable, htableLength, hvalues]
      exact Nat.mul_div_le _ 2
    · rw [hlast]
  -- the opening
  obtain ⟨opening, hopen, hclaimed, hopened⟩ := open_honest hshift hfold hsmall hvalues hcanonical
    hlayer lib hpoint (fun v hv => hrun.canonical_challenges v (List.mem_reverse.mp hv)) hnonce
  -- the replay
  have hsum : (claimSum coefficients claims : F) =
      Multilinear.inner pcsStatement.variableCount (fieldAt values) (fieldAt gTable) := by
    rw [claimSum_spec hpoints htrue]
    exact inner_congr (fun _ _ => rfl) fun i hi => (htable i hi).symm
  obtain ⟨running, transcript', hreplay, hrunning⟩ := hrun.replayed lib
    (.proofV3VerificationError "batch opening round does not match the running sum") _
    (canonical_claimSum coefficients claims) hsum
  have hreplayed : replayClaimRounds sha256 lib rounds (claimSum coefficients claims) transcript =
      .ok (challenges, running) := by
    refine (replayClaimRounds_eq_ok ?_ lib (canonical_claimSum _ _) _ _).mpr ⟨_, hreplay, rfl⟩
    rw [hrun.length_rounds]
    omega
  obtain ⟨g, hg, hgCanonical, hgValue⟩ := eqCombination_spec coefficients
    fun claim hclaim => (hpoints claim hclaim).trans hpoint.symm
  have hquotient : (running : F) = (multilinearExtension values challenges.reverse : ℤ) * g := by
    rw [hrunning, intCast_multilinearExtension, hgValue]
    congr 1
    refine inner_congr (fun i hi => htable i ?_) fun _ _ => rfl
    rwa [length_toField, hpoint] at hi
  have hterminal : g ≠ 0 → replayClaims sha256 pcsStatement lib rounds tree.commitment.bytes claims
      validatorNonce = .ok (challenges.reverse, multilinearExtension values challenges.reverse) := by
    intro hne
    simp only [replayClaims, bind_eq_ok, raiseIf_eq_ok, not_not]
    exact ⟨(), hvalidate, (), hrun.length_rounds, transcript, hseed, coefficients, hdraws, _,
      hreplayed, terminalClaim_eq_ok hg hne hgCanonical (canonical_emod _) hquotient⟩
  refine ⟨tree, ⟨rounds, opening⟩, transcript, coefficients, challenges, running, g, hcommit, hphase,
    ?_, hseed, hdraws, hreplayed, hg, hterminal, ⟨?_, fun hne => ?_⟩⟩
  · simp only [proveGoldilocksBatchOpeningV3, bind_eq_ok, pure_eq_ok]
    exact ⟨_, hphase, opening, hopen, rfl⟩
  · -- a combination of zero is rejected by the replay
    rintro ⟨_, hverify⟩ rfl
    simp only [verifyGoldilocksBatchOpeningV3, exceptListed_eq_ok, replayClaims, bind_eq_ok] at hverify
    obtain ⟨_, ⟨-, -, -, -, transcript₁, hseed₁, coefficients₁, hdraws₁, out, hout, hterminal₁⟩, -⟩ :=
      hverify
    obtain rfl := Except.ok.inj (hseed.symm.trans hseed₁)
    obtain rfl := Except.ok.inj (hdraws.symm.trans hdraws₁)
    obtain rfl := Except.ok.inj (hreplayed.symm.trans hout)
    simp only [terminalClaim, hg, bind_eq_ok, raiseIf_eq_ok, Except.ok.injEq, exists_eq_left',
      not_true_eq_false, false_and, exists_false] at hterminal₁
  · rw [verifyGoldilocksBatchOpeningV3]
    obtain ⟨value, hopened⟩ := hopened
    refine ⟨value, exceptListed_eq_ok.mpr ?_⟩
    simp only [bind_eq_ok, raiseIf_eq_ok, not_not]
    refine ⟨_, hterminal hne, (), ?_, ?_⟩
    · rw [hclaimed]
      exact (canonical_emod _).emod_eq
    · rw [hclaimed]
      exact hopened

/-- The vector `(1, 2)` with a claim at the vertex 1, made twice, and a claim at the point 3, with a
hash whose words are all 3. -/
theorem batchOpening_complete_one_variable :
    ∃ tree proof transcript coefficients challenges running g,
      commitGoldilocksMultilinearV3 constantThree oneVariableStatement [1, 2] = .ok tree ∧
      claimsPhase constantThree oneVariableStatement true tree.commitment.bytes [1, 2]
        [⟨[1], 2⟩, ⟨[1], 2⟩, ⟨[3], 4⟩] (List.replicate 32 0) =
        .ok (proof.roundPolynomials, challenges.reverse,
          multilinearExtension [1, 2] challenges.reverse) ∧
      proveGoldilocksBatchOpeningV3 constantThree oneVariableStatement false true tree [1, 2]
        [⟨[1], 2⟩, ⟨[1], 2⟩, ⟨[3], 4⟩] (List.replicate 32 0) = .ok proof ∧
      batchSeed constantThree oneVariableStatement tree.commitment.bytes
        [⟨[1], 2⟩, ⟨[1], 2⟩, ⟨[3], 4⟩] (List.replicate 32 0) = .ok transcript ∧
      (List.range 3).mapM (derive constantThree transcript (asciiBytes "batchcoef")) =
        .ok coefficients ∧
      replayClaimRounds constantThree false proof.roundPolynomials
        (claimSum coefficients [⟨[1], 2⟩, ⟨[1], 2⟩, ⟨[3], 4⟩]) transcript =
          .ok (challenges, running) ∧
      eqCombination coefficients [⟨[1], 2⟩, ⟨[1], 2⟩, ⟨[3], 4⟩] challenges.reverse = .ok g ∧
      (g ≠ 0 → replayClaims constantThree oneVariableStatement false proof.roundPolynomials
        tree.commitment.bytes [⟨[1], 2⟩, ⟨[1], 2⟩, ⟨[3], 4⟩] (List.replicate 32 0) =
          .ok (challenges.reverse, multilinearExtension [1, 2] challenges.reverse)) ∧
      (Accepts (verifyGoldilocksBatchOpeningV3 constantThree oneVariableStatement false proof
        tree.commitment.bytes [⟨[1], 2⟩, ⟨[1], 2⟩, ⟨[3], 4⟩] (List.replicate 32 0)) ↔ g ≠ 0) := by
  have hderive : ∀ (transcript : Digest) (label : Bytes), ∀ index < 3,
      Accepts (derive constantThree transcript label index) := by
    intro transcript label index hindex
    refine ⟨3, ?_⟩
    simp only [derive, digestWord_constantThree, bind_eq_ok, raiseIf_eq_ok]
    exact ⟨(), by omega, rejectionSample_first _ 65535 (by decide +kernel)⟩
  refine batchOpening_complete constantThree oneVariableStatement [1, 2]
    [⟨[1], 2⟩, ⟨[1], 2⟩, ⟨[3], 4⟩] (List.replicate 32 0) false true (by decide) rfl
    (by simp [CanonicalVector, Canonical, goldilocksModulus]) (by simp)
    (by simp [oneVariableStatement]) ?_ rfl ⟨3, ?_⟩ (fun transcript roundIndex => ⟨3, ?_⟩)
    (fun transcript => hderive transcript _)
    fun transcript index hindex => hderive transcript _ index (Nat.lt_of_le_of_lt hindex (by decide))
  · intro claim hclaim
    simp only [List.mem_cons, List.not_mem_nil, or_false] at hclaim
    rcases hclaim with rfl | rfl | rfl <;> decide +kernel
  · simp only [GoldilocksMultilinearPcsStatementV3.baseShift, oneVariableStatement,
      digestWord_constantThree]
    exact rejectionSample_first _ 65535 (by decide +kernel)
  · simp only [deriveField, digestWord_constantThree]
    exact rejectionSample_first _ 65535 (by decide +kernel)

end Verathos.BatchOpening
