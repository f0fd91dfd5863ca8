import Verathos.SuccinctFold.Completeness
import Verathos.SuccinctFold.Wire

/-!
# The succinct fold argument is exact

* `opening_of_verify`: an opening that the commitment accepts is within the limits of the wire format;
* `onWire_of_honestProof`: so is every proof that the prover returns for a committed witness;
* `succinctFold_exact`: the verifier evaluates the tensor product, accepts an honest proof exactly when
  its value at the challenges is not zero, and the wire format loses nothing.
-/

namespace Verathos.SuccinctFold

open BatchOpening Merkle Numpy Pcs

/-! ## Honest proofs on the wire -/

variable {sha256 : Bytes → Digest}

theorem canonical_rounds_of_verifyRounds {layerCommitments : List Bytes} {rounds : List Round}
    {roundIndex : ℕ} {running last : ℤ} {transcript transcript' : Digest} {challenges : List ℤ}
    (h : verifyRounds sha256 layerCommitments rounds roundIndex running transcript =
      .ok (last, challenges, transcript')) : ∀ g ∈ rounds, g.IsCanonical := by
  induction rounds generalizing roundIndex running transcript challenges with
  | nil => simp
  | cons g rounds ih =>
    obtain ⟨hg, -, challenge, root, challenges', -, -, hrest, -⟩ := verifyRounds_cons_eq_ok.mp h
    exact List.forall_mem_cons.mpr ⟨hg, ih hrest⟩

theorem opening_of_verify {pcsStatement : GoldilocksMultilinearPcsStatementV3} {lib : Bool}
    {opening : GoldilocksMultilinearOpeningProofV3} {commitment : Bytes} {point : List ℤ}
    {expectedValue : ℤ} {validatorNonce : Bytes} (hsmall : pcsStatement.variableCount + 2 ≤ 16)
    (h : Accepts (verifyGoldilocksMultilinearOpeningV3 sha256 pcsStatement lib opening commitment
      point expectedValue validatorNonce)) :
    opening.roundPolynomials.length = pcsStatement.variableCount ∧
      (∀ g ∈ opening.roundPolynomials, g.IsCanonical) ∧
      (∀ root ∈ opening.layerCommitments, root.length = 32) ∧
      opening.layerOpenings.length = pcsStatement.variableCount + 1 ∧
      ∀ o ∈ opening.layerOpenings, o.opening.indices.length ≤ 2 ^ 16 := by
  rw [verify_accepts_iff_python, verifyByPython, accepts_bind] at h
  obtain ⟨⟨point', transcript⟩, hshared, hpython⟩ := h
  obtain ⟨-, -, hrounds⟩ := verifyShared_eq_ok hshared
  obtain ⟨running, challenges, transcript', eqProduct, shift, hverify, -, -, -, hquery⟩ :=
    (verifyPython_accepts_iff lib commitment point' transcript hrounds).mp hpython
  have hlayers := opening.length_layerCommitments
  have hopenings := hquery.length_openings
  have hroots : (commitment :: opening.layerCommitments).length = pcsStatement.variableCount + 1 := by
    rw [List.length_cons, hlayers, hrounds]
  refine ⟨hrounds, canonical_rounds_of_verifyRounds hverify, fun root hroot => ?_, hopenings,
    fun o ho => ?_⟩
  · obtain ⟨l, hl⟩ := List.mem_iff_getElem?.mp (List.mem_cons_of_mem commitment hroot)
    have hlt : l < opening.layerOpenings.length := by
      rw [hopenings, ← hroots]
      exact (List.getElem?_eq_some_iff.mp hl).1
    rw [(hquery.layers l _ root (List.getElem?_eq_getElem hlt) hl).root]
    exact Digest.length_eq _
  · obtain ⟨l, hl⟩ := List.mem_iff_getElem?.mp ho
    have hlt : l < (commitment :: opening.layerCommitments).length := by
      rw [hroots, ← hopenings]
      exact (List.getElem?_eq_some_iff.mp hl).1
    have hcount := (hquery.layers l o _ hl (List.getElem?_eq_getElem hlt)).leafCount
    -- a layer has at most as many leaves as the codeword
    have hle : pcsStatement.codewordSize >>> l ≤ 2 ^ 16 := by
      rw [Nat.shiftRight_eq_div_pow, codewordSize_eq]
      exact (Nat.div_le_self _ _).trans (Nat.pow_le_pow_right (by norm_num) hsmall)
    exact (o.admitted.indices.length_le.trans_eq hcount).trans hle

theorem onWire_of_honestProof {statement : GoldilocksSuccinctFoldStatementV3} {queryCount : ℕ}
    {pcsStatement : GoldilocksMultilinearPcsStatementV3} {tree : GoldilocksMerkleTreeReference}
    {xEvaluations : List ℤ} {components : List (List ℤ)} {validatorNonce : Bytes}
    {proof : GoldilocksSuccinctFoldProofV3} {seed : Digest} {challenges : List ℤ}
    (hpcs : statement.pcsStatement sha256 queryCount = .ok pcsStatement)
    (hsmall : pcsStatement.variableCount + 2 ≤ 16)
    (h : HonestProof sha256 statement pcsStatement tree xEvaluations components validatorNonce proof
      seed challenges) : OnWire proof := by
  obtain ⟨hrounds, hcanonical, hroots, hopenings, hindices⟩ := opening_of_verify hsmall
    (h.opened false)
  have hvariables := pcsStatement_eq_ok hpcs
  have houter := h.outer.length_rounds
  refine ⟨?_, by omega, h.outer.canonical_rounds, by omega, hcanonical, hroots, by omega, hindices⟩
  rw [h.claimedSum_eq]
  exact canonical_emod _

/-! ## Exactness -/

/-- The succinct fold argument. For every statement and all components of its sizes:

* over every vector of challenges, the product of the evaluations of the components over their slices
  is the evaluation of the tensor product from its highest variable on;
* for every witness within the cap of the commitment, a proof that the prover returned for its tree
  claims the sum of the witness against the tensor product, and the verifier accepts it with this sum
  exactly when the value of the product at the challenges of the run is not zero; it is encoded, and
  decoded to itself;
* committing and proving return whenever the commitment takes the statement, the values are
  canonical and the rejection loops find their candidates;
* a proof is decoded from one byte string only. -/
theorem succinctFold_exact (sha256 : Bytes → Digest) (statement : GoldilocksSuccinctFoldStatementV3)
    (components : List (List ℤ))
    (hshape : components.map List.length = statement.factorComponentSizes) :
    (∀ challenges : List ℤ, challenges.length = statement.variableCount →
      ∃ value, factorAtPoint challenges components 0 1 = .ok value ∧
        mleEvalMsb (tensorFactor components) challenges = .ok value) ∧
    (∀ (queryCount : ℕ) (lib lib' : Bool) (xEvaluations : List ℤ) (validatorNonce : Bytes)
        (tree : GoldilocksMerkleTreeReference) (proof : GoldilocksSuccinctFoldProofV3),
      2 ^ statement.variableCount * blowup ≤ maxGoldilocksReferenceDomainSize →
      commitGoldilocksSuccinctFoldWitnessV3 sha256 statement queryCount xEvaluations = .ok tree →
      proveGoldilocksSuccinctFoldV3 sha256 statement queryCount lib tree xEvaluations components
        validatorNonce = .ok proof →
      proof.claimedSum = weightedSum xEvaluations components ∧
      (∃ digest seed challenges value, factorDigest sha256 components = .ok digest ∧
        outerSeed sha256 statement tree.commitment.bytes digest proof.claimedSum validatorNonce =
          .ok seed ∧
        outerLoop sha256 0 xEvaluations (tensorFactor components) seed =
          .ok (proof.outerRounds, challenges) ∧
        factorAtPoint challenges components 0 1 = .ok value ∧
        (Accepts (verifyGoldilocksSuccinctFoldV3 sha256 statement queryCount lib' proof
          tree.commitment.bytes components validatorNonce (weightedSum xEvaluations components)) ↔
            value ≠ 0)) ∧
      ∃ payload, encodeGoldilocksSuccinctFoldProofV3 proof = .ok payload ∧
        decodeGoldilocksSuccinctFoldProofV3 lib' payload = .ok proof) ∧
    (∀ (queryCount : ℕ) (lib : Bool) (xEvaluations : List ℤ) (validatorNonce : Bytes)
        (pcsStatement : GoldilocksMultilinearPcsStatementV3),
      statement.pcsStatement sha256 queryCount = .ok pcsStatement →
      2 ^ statement.variableCount * blowup ≤ maxGoldilocksReferenceDomainSize →
      xEvaluations.length = 2 ^ statement.variableCount → CanonicalVector xEvaluations →
      (∀ component ∈ components, CanonicalVector component) → validatorNonce.length = 32 →
      Accepts (pcsStatement.baseShift sha256) →
      (∀ transcript roundIndex, Accepts (deriveField sha256 transcript foldLabel roundIndex)) →
      (∀ transcript roundIndex, Accepts (challengeOf sha256 transcript roundIndex)) →
      ∃ tree proof,
        commitGoldilocksSuccinctFoldWitnessV3 sha256 statement queryCount xEvaluations = .ok tree ∧
        proveGoldilocksSuccinctFoldV3 sha256 statement queryCount lib tree xEvaluations components
          validatorNonce = .ok proof) ∧
    ∀ (lib lib' : Bool) (payload payload' : Bytes) (proof : GoldilocksSuccinctFoldProofV3),
      decodeGoldilocksSuccinctFoldProofV3 lib payload = .ok proof →
      decodeGoldilocksSuccinctFoldProofV3 lib' payload' = .ok proof → payload = payload' := by
  have hsizes := powerSizes_of_shape hshape
  have hbits := bitCount_of_shape hshape
  have hcapOf : ∀ {queryCount pcsStatement},
      statement.pcsStatement sha256 queryCount = .ok pcsStatement →
      2 ^ statement.variableCount * blowup ≤ maxGoldilocksReferenceDomainSize →
      pcsStatement.variableCount + 2 ≤ 16 := by
    intro queryCount pcsStatement hpcs hcap
    refine variableCount_add_two_le_sixteen ?_
    rwa [GoldilocksMultilinearPcsStatementV3.codewordSize, leafCount_eq, pcsStatement_eq_ok hpcs]
  refine ⟨fun challenges hlength => ?_, ?_, ?_, fun lib lib' payload payload' proof h h' => ?_⟩
  · obtain ⟨value, hvalue, -, -⟩ := factorAtPoint_tensorFactor hsizes (hbits.trans hlength.symm)
    refine ⟨value, hvalue, ?_⟩
    rw [← factorAtPoint_eq_mleEvalMsb hsizes (hbits.trans hlength.symm), hvalue]
  · intro queryCount lib lib' xEvaluations validatorNonce tree proof hcap hcommit hprove
    obtain ⟨pcsStatement, hpcs, hcommit⟩ := bind_eq_ok.mp hcommit
    have hsmall := hcapOf hpcs hcap
    obtain ⟨seed, challenges, h⟩ := honestProof_of_prove hpcs hsmall hcommit hprove
    obtain ⟨digest, hdigest, hseed⟩ := h.seed_eq
    obtain ⟨value, hvalue, -, -⟩ := factorAtPoint_tensorFactor hsizes
      (hbits.trans h.outer.length_challenges.symm)
    have hx := (commit_eq_ok hsmall hcommit).1
    rw [pcsStatement_eq_ok hpcs] at hx
    have honWire := onWire_of_honestProof hpcs hsmall h
    exact ⟨h.claimedSum_eq, ⟨digest, seed, challenges, value, hdigest, hseed, h.loop_eq, hvalue,
      verify_accepts_iff hshape (canonical_of_prove hprove) hpcs hx h lib' hvalue⟩,
      proofBytes proof, encode_eq_ok honWire, (decode_eq_ok lib').mpr ⟨honWire, rfl⟩⟩
  · intro queryCount lib xEvaluations validatorNonce pcsStatement hpcs hcap hx hcanonical hcomponents
      hnonce hshift hderive hchallenges
    exact exists_proof hshape hcomponents hpcs (hcapOf hpcs hcap) hx hcanonical lib hnonce hshift
      hderive hchallenges
  · rw [((decode_eq_ok lib).mp h).2, ((decode_eq_ok lib').mp h').2]

/-- A statement in one variable, with a component of one value before the one that spans the
cube. -/
def twoComponentStatement : GoldilocksSuccinctFoldStatementV3 where
  validatorBindingDigest := Digest.one
  variableCount := 1
  factorComponentSizes := [1, 2]
  binding_ne_zero := Digest.one_ne_zero
  sizes_ne_nil := by decide
  sizes_pow := by decide
  sum_bits := by decide

/-- The witness `(1, 2)` against the product of `(5)` and `(1, 2)`, with a hash whose words are all
3: the factor is 20 at the challenge 3. -/
theorem succinctFold_exact_two_components :
    ∃ tree proof payload,
      commitGoldilocksSuccinctFoldWitnessV3 constantThree twoComponentStatement 1 [1, 2] = .ok tree ∧
      proveGoldilocksSuccinctFoldV3 constantThree twoComponentStatement 1 false tree [1, 2]
        [[5], [1, 2]] (List.replicate 32 0) = .ok proof ∧
      proof.claimedSum = 25 ∧
      Accepts (verifyGoldilocksSuccinctFoldV3 constantThree twoComponentStatement 1 false proof
        tree.commitment.bytes [[5], [1, 2]] (List.replicate 32 0) 25) ∧
      encodeGoldilocksSuccinctFoldProofV3 proof = .ok payload ∧
      decodeGoldilocksSuccinctFoldProofV3 false payload = .ok proof := by
  obtain ⟨-, hexact, hexists, -⟩ := succinctFold_exact constantThree twoComponentStatement
    [[5], [1, 2]] rfl
  have hpcs : twoComponentStatement.pcsStatement constantThree 1 =
      .ok { oneVariableStatement with
        validatorBindingDigest := constantThree []
        binding_ne_zero := by decide } := rfl
  have hchallenge : ∀ transcript roundIndex,
      challengeOf constantThree transcript roundIndex = .ok 3 := by
    intro transcript roundIndex
    simp only [challengeOf, digestWord_constantThree]
    exact rejectionSample_first _ 65535 (by decide +kernel)
  obtain ⟨tree, proof, hcommit, hprove⟩ := hexists 1 false [1, 2] (List.replicate 32 0) _ hpcs
    (by decide) rfl (by simp [CanonicalVector, Canonical, goldilocksModulus])
    (by simp [CanonicalVector, Canonical, goldilocksModulus]) rfl
    ⟨3, by
      simp only [GoldilocksMultilinearPcsStatementV3.baseShift, oneVariableStatement,
        digestWord_constantThree]
      exact rejectionSample_first _ 65535 (by decide +kernel)⟩
    (fun transcript roundIndex => ⟨3, by
      simp only [deriveField, digestWord_constantThree]
      exact rejectionSample_first _ 65535 (by decide +kernel)⟩)
    fun transcript roundIndex => ⟨3, hchallenge transcript roundIndex⟩
  obtain ⟨hclaimed, ⟨_, seed, challenges, value, -, -, hloop, hvalue, haccepts⟩, payload, hencode,
    hdecode⟩ := hexact 1 false false [1, 2] (List.replicate 32 0) tree proof (by decide) hcommit hprove
  have hsum : weightedSum [1, 2] [[5], [1, 2]] = 25 := by decide +kernel
  -- the only challenge of the run is 3
  have hthree : challenges = [3] := by
    rw [outerLoop, dif_pos (by decide)] at hloop
    simp only [hchallenge, bind_eq_ok, pure_eq_ok, Except.ok.injEq] at hloop
    obtain ⟨_, rfl, ⟨rounds, rest⟩, hrest, heq⟩ := hloop
    have hnil : rest.length = 0 :=
      (outerLoop_eq_ok (length_foldHalves [1, 2] (2 ^ 0) 3) hrest).length_challenges
    rw [List.length_eq_zero_iff.mp hnil] at heq
    exact (Prod.mk.inj heq).2.symm
  rw [hthree] at hvalue
  have htwenty : value = 20 := Except.ok.inj (hvalue.symm.trans rfl)
  rw [hsum] at hclaimed haccepts
  exact ⟨tree, proof, payload, hcommit, hprove, hclaimed, haccepts.mpr (by rw [htwenty]; decide),
    hencode, hdecode⟩

end Verathos.SuccinctFold
