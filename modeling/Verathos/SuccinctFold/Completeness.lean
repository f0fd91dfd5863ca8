import Verathos.Pcs.Completeness
import Verathos.SuccinctFold.Rounds

/-!
# Honest fold proofs

What the prover returns for a committed witness, and when the verifier accepts it.

* `honestProof_of_prove`: a proof that the prover returned has the honest rounds, and an opening of
  the witness at the reversed challenges that the commitment accepts;
* `verify_accepts_iff`: the verifier accepts it exactly when the factor at the challenges is not
  zero;
* `exists_proof`: committing and proving return when the rejection loops find their candidates.
-/

namespace Verathos.SuccinctFold

open BatchOpening Merkle Multilinear Pcs Wire

/-! ## Statements -/

variable {sha256 : Bytes → Digest} {statement : GoldilocksSuccinctFoldStatementV3}
  {components : List (List ℤ)}

theorem powerSizes_of_shape
    (hshape : components.map List.length = statement.factorComponentSizes) :
    PowerSizes components := by
  intro component hcomponent
  have hsize := statement.sizes_pow component.length
    (hshape ▸ List.mem_map_of_mem hcomponent)
  rw [not_or, not_not, not_lt] at hsize
  obtain ⟨k, hk⟩ := (Nat.and_sub_one_eq_zero_iff_isPowerOfTwo (by omega)).mp hsize.2
  rw [hk, Nat.size_pow, Nat.add_sub_cancel]

theorem bitCount_of_shape
    (hshape : components.map List.length = statement.factorComponentSizes) :
    bitCount components = statement.variableCount := by
  rw [← statement.sum_bits, ← hshape, List.map_map]
  rfl

theorem pcsStatement_eq_ok {queryCount : ℕ} {pcsStatement : GoldilocksMultilinearPcsStatementV3}
    (h : statement.pcsStatement sha256 queryCount = .ok pcsStatement) :
    pcsStatement.variableCount = statement.variableCount := by
  simp only [GoldilocksSuccinctFoldStatementV3.pcsStatement, bind_eq_ok,
    GoldilocksMultilinearPcsStatementV3.postInit] at h
  obtain ⟨digest, -, binding, -, h⟩ := h
  split_ifs at h
  rw [pure_eq_ok] at h
  rw [← h]

theorem fieldComponents_eq_ok {factorComponents components : List (List ℤ)} :
    fieldComponents factorComponents = .ok components ↔
      (∀ component ∈ factorComponents, CanonicalVector component) ∧
        components = factorComponents := by
  have hcomponent : ∀ component results : List ℤ,
      component.mapM (field · "factor value") = .ok results ↔
        CanonicalVector component ∧ results = id component := fun _ _ => mapM_field_eq_ok_iff
  rw [fieldComponents, mapM_eq_ok_of_iff hcomponent, List.map_id]

/-! ## Proofs -/

/-- The sum of the witness against the tensor product of the components. -/
def weightedSum (xEvaluations : List ℤ) (components : List (List ℤ)) : ℤ :=
  (List.zipWith (· * ·) xEvaluations (tensorFactor components)).sum % goldilocksModulus

theorem claimLoop_eq_sum {values weights : List ℤ} (hlength : values.length = weights.length)
    {start : ℤ} (hstart : Canonical start) :
    claimLoop values weights start =
      .ok ((start + (List.zipWith (· * ·) values weights).sum) % goldilocksModulus) := by
  induction values generalizing weights start with
  | nil =>
    obtain rfl := List.length_eq_zero_iff.mp hlength.symm
    rw [claimLoop, List.zipWith_nil_left, List.sum_nil, add_zero, hstart.emod_eq]
  | cons value values ih =>
    obtain ⟨weight, weights, rfl⟩ := List.exists_cons_of_length_eq_add_one hlength.symm
    rw [claimLoop, ih (Nat.succ.inj hlength) (canonical_emod _), Int.emod_add_emod,
      List.zipWith_cons_cons, List.sum_cons, add_assoc]

theorem intCast_weightedSum {xEvaluations : List ℤ} {components : List (List ℤ)} {n : ℕ}
    (hx : xEvaluations.length = 2 ^ n) (hfactor : (tensorFactor components).length = 2 ^ n) :
    (weightedSum xEvaluations components : F) =
      Multilinear.inner n (fieldAt xEvaluations) (fieldAt (tensorFactor components)) := by
  obtain ⟨claimed, hclaim, -, hvalue⟩ := claimLoop_spec (hx.trans hfactor.symm)
    (show Canonical 0 by decide)
  rw [claimLoop_eq_sum (hx.trans hfactor.symm) (by decide), zero_add] at hclaim
  obtain rfl := Except.ok.inj hclaim
  rw [weightedSum, hvalue, Int.cast_zero, zero_add, hx]
  rfl

section Honest

variable {pcsStatement : GoldilocksMultilinearPcsStatementV3} {queryCount : ℕ} {lib : Bool}
  {tree : GoldilocksMerkleTreeReference} {xEvaluations : List ℤ} {validatorNonce : Bytes} {proof : GoldilocksSuccinctFoldProofV3}

/-- The run of the prover behind a proof: its seed, its challenges and its opening. -/
structure HonestProof (sha256 : Bytes → Digest) (statement : GoldilocksSuccinctFoldStatementV3)
    (pcsStatement : GoldilocksMultilinearPcsStatementV3) (tree : GoldilocksMerkleTreeReference)
    (xEvaluations : List ℤ) (components : List (List ℤ)) (validatorNonce : Bytes)
    (proof : GoldilocksSuccinctFoldProofV3) (seed : Digest) (challenges : List ℤ) : Prop where
  /-- The claimed sum is the sum of the witness against the factor. -/
  claimedSum_eq : proof.claimedSum = weightedSum xEvaluations components
  /-- The seed absorbs the statement, the commitment, the factor and the claimed sum. -/
  seed_eq : ∃ digest, factorDigest sha256 components = .ok digest ∧
    outerSeed sha256 statement tree.commitment.bytes digest proof.claimedSum validatorNonce =
      .ok seed
  loop_eq : outerLoop sha256 0 xEvaluations (tensorFactor components) seed =
    .ok (proof.outerRounds, challenges)
  outer : HonestOuter sha256 statement.variableCount 0 xEvaluations (tensorFactor components) seed
    proof.outerRounds challenges
  /-- The opened value is the multilinear extension at the reversed challenges. -/
  claimedValue_eq : proof.opening.claimedValue =
    multilinearExtension xEvaluations challenges.reverse
  opened : ∀ lib, Accepts (verifyGoldilocksMultilinearOpeningV3 sha256 pcsStatement lib
    proof.opening tree.commitment.bytes challenges.reverse
    (multilinearExtension xEvaluations challenges.reverse) validatorNonce)

theorem honestProof_of_prove (hpcs : statement.pcsStatement sha256 queryCount = .ok pcsStatement)
    (hsmall : pcsStatement.variableCount + 2 ≤ 16)
    (hcommit : commitGoldilocksMultilinearV3 sha256 pcsStatement xEvaluations = .ok tree)
    (hprove : proveGoldilocksSuccinctFoldV3 sha256 statement queryCount lib tree xEvaluations
      components validatorNonce = .ok proof) :
    ∃ seed challenges, HonestProof sha256 statement pcsStatement tree xEvaluations components
      validatorNonce proof seed challenges := by
  obtain ⟨hx, -, shift, codeword, hshift, hlayer, rfl⟩ := commit_eq_ok hsmall hcommit
  have hvariables := pcsStatement_eq_ok hpcs
  simp only [proveGoldilocksSuccinctFoldV3, bind_eq_ok, raiseIf_eq_ok, pure_eq_ok, not_not,
    fieldComponents_eq_ok, mapM_field_eq_ok_iff] at hprove
  obtain ⟨-, hshape, components, ⟨-, rfl⟩, xValues, ⟨-, rfl⟩, -, -, claimed, hclaim, digest, hdigest,
    seed, hseed, ⟨rounds, challenges⟩, hloop, _, hpcs', xEvaluations, ⟨-, rfl⟩, opening, hopen,
    rfl⟩ := hprove
  obtain rfl := Except.ok.inj (hpcs.symm.trans hpcs')
  have hfactor : (tensorFactor components).length = 2 ^ pcsStatement.variableCount := by
    rw [length_tensorFactor (powerSizes_of_shape hshape), bitCount_of_shape hshape, hvariables]
  rw [claimLoop_eq_sum (hx.trans hfactor.symm) (by decide), zero_add] at hclaim
  obtain rfl := Except.ok.inj hclaim
  obtain ⟨hvalue, hopened⟩ := open_eq_ok hshift hsmall hx hlayer hopen
  exact ⟨seed, challenges, rfl, ⟨digest, hdigest, hseed⟩, hloop,
    outerLoop_eq_ok (by rw [hx, hvariables]) hloop, hvalue,
    fun lib' => (verify_accepts_congr lib lib').mp hopened⟩

theorem canonical_of_prove
    (hprove : proveGoldilocksSuccinctFoldV3 sha256 statement queryCount lib tree xEvaluations
      components validatorNonce = .ok proof) :
    ∀ component ∈ components, CanonicalVector component := by
  simp only [proveGoldilocksSuccinctFoldV3, bind_eq_ok] at hprove
  obtain ⟨-, -, _, hcomponents, -⟩ := hprove
  exact (fieldComponents_eq_ok.mp hcomponents).1

theorem verify_accepts_iff (hshape : components.map List.length = statement.factorComponentSizes)
    (hcomponents : ∀ component ∈ components, CanonicalVector component)
    (hpcs : statement.pcsStatement sha256 queryCount = .ok pcsStatement)
    (hx : xEvaluations.length = 2 ^ statement.variableCount) {seed : Digest} {challenges : List ℤ}
    (h : HonestProof sha256 statement pcsStatement tree xEvaluations components validatorNonce proof
      seed challenges) (lib : Bool) {value : ℤ}
    (hvalue : factorAtPoint challenges components 0 1 = .ok value) :
    Accepts (verifyGoldilocksSuccinctFoldV3 sha256 statement queryCount lib proof
      tree.commitment.bytes components validatorNonce (weightedSum xEvaluations components)) ↔
        value ≠ 0 := by
  have hsizes := powerSizes_of_shape hshape
  have hbits := bitCount_of_shape hshape
  obtain ⟨digest, hdigest, hseed⟩ := h.seed_eq
  -- the verifier ends the rounds in the product of the two extensions
  obtain ⟨running, hrounds, hrunning⟩ := h.outer.replayed proof.claimedSum
    (by rw [h.claimedSum_eq]; exact canonical_emod _)
    (by rw [h.claimedSum_eq]
        exact intCast_weightedSum hx ((length_tensorFactor hsizes).trans (by rw [hbits])))
  obtain ⟨value', hvalue', hcanonical, hfield⟩ := factorAtPoint_tensorFactor hsizes
    (hbits.trans h.outer.length_challenges.symm)
  obtain rfl := Except.ok.inj (hvalue.symm.trans hvalue')
  constructor
  · rintro ⟨_, hverify⟩
    simp only [verifyGoldilocksSuccinctFoldV3, exceptListed_eq_ok, bind_eq_ok, raiseIf_eq_ok, not_not,
      fieldComponents_eq_ok, field_eq_ok, fixedBytes32_eq_ok] at hverify
    obtain ⟨-, -, _, ⟨-, rfl⟩, -, -, _, -, -, -, fixed, hfixed, digest', hdigest', seed', hseed',
      ⟨running', challenges'⟩, hrounds', value', hvalue', -, hne, -⟩ := hverify
    obtain rfl := Except.ok.inj (hdigest.symm.trans hdigest')
    rw [← hfixed] at hseed'
    obtain rfl := Except.ok.inj (hseed.symm.trans hseed')
    obtain ⟨rfl, rfl⟩ := Prod.mk.inj (Except.ok.inj (hrounds.symm.trans hrounds'))
    obtain rfl := Except.ok.inj (hvalue.symm.trans hvalue')
    exact hne
  · intro hne
    have hneF : (value : F) ≠ 0 := fun hzero =>
      hne (hcanonical.ext (show Canonical 0 by decide) (by simpa using hzero))
    obtain ⟨inverse, hinverse, hinv⟩ := goldilocksInv_spec hcanonical hne
    -- dividing by the factor leaves the opened value
    have hexpected : running * inverse % goldilocksModulus =
        multilinearExtension xEvaluations challenges.reverse := by
      refine emod_eq_iff.mpr ⟨canonical_emod _, ?_⟩
      rw [intCast_multilinearExtension, Int.cast_mul, hinv, hrunning, ← hfield, mul_assoc,
        mul_inv_cancel₀ hneF, mul_one]
    obtain ⟨u, hopened⟩ := h.opened lib
    refine ⟨u, ?_⟩
    simp only [verifyGoldilocksSuccinctFoldV3, exceptListed_eq_ok, bind_eq_ok, raiseIf_eq_ok, not_not,
      fieldComponents_eq_ok, field_eq_ok, fixedBytes32_eq_ok]
    refine ⟨(), hshape, _, ⟨hcomponents, rfl⟩, (), h.outer.length_rounds, _,
      ⟨canonical_emod _, rfl⟩, (), h.claimedSum_eq, tree.commitment, rfl, digest, hdigest, seed,
      hseed, _, hrounds, value, hvalue, (), hne, inverse, hinverse, pcsStatement, hpcs, ?_⟩
    rw [hexpected]
    exact hopened

theorem exists_factorDigest (hshape : components.map List.length = statement.factorComponentSizes)
    {digest : Digest} (hdigest : statement.digest sha256 = .ok digest) :
    ∃ digest, factorDigest sha256 components = .ok digest := by
  simp only [GoldilocksSuccinctFoldStatementV3.digest, bind_eq_ok] at hdigest
  obtain ⟨-, -, sizes, hsizes, -⟩ := hdigest
  have hpack := exists_mapM_iff.mp ⟨sizes, hsizes⟩
  obtain ⟨parts, hparts⟩ : ∃ parts, (components.mapM fun component => do
      let count ← packUnsigned 4 component.length
      return count ++ component.flatMap fieldBytes) = .ok parts := by
    refine exists_mapM_iff.mpr fun component hcomponent => ?_
    obtain ⟨count, hcount⟩ := hpack component.length (hshape ▸ List.mem_map_of_mem hcomponent)
    exact ⟨_, bind_eq_ok.mpr ⟨count, hcount, rfl⟩⟩
  exact ⟨_, bind_eq_ok.mpr ⟨parts, hparts, rfl⟩⟩

theorem exists_proof (hshape : components.map List.length = statement.factorComponentSizes)
    (hcomponents : ∀ component ∈ components, CanonicalVector component)
    (hpcs : statement.pcsStatement sha256 queryCount = .ok pcsStatement)
    (hsmall : pcsStatement.variableCount + 2 ≤ 16)
    (hx : xEvaluations.length = 2 ^ statement.variableCount)
    (hcanonical : CanonicalVector xEvaluations) (lib : Bool) (hnonce : validatorNonce.length = 32)
    (hshift : Accepts (pcsStatement.baseShift sha256))
    (hderive : ∀ transcript roundIndex,
      Accepts (deriveField sha256 transcript foldLabel roundIndex))
    (hchallenges : ∀ transcript roundIndex, Accepts (challengeOf sha256 transcript roundIndex)) :
    ∃ tree proof,
      commitGoldilocksSuccinctFoldWitnessV3 sha256 statement queryCount xEvaluations = .ok tree ∧
      proveGoldilocksSuccinctFoldV3 sha256 statement queryCount lib tree xEvaluations components
        validatorNonce = .ok proof := by
  obtain ⟨shift, hshift⟩ := hshift
  have hvariables := pcsStatement_eq_ok hpcs
  have hxPcs : xEvaluations.length = 2 ^ pcsStatement.variableCount := by rw [hx, hvariables]
  obtain ⟨codeword, hlayer, hcommit⟩ := commit_honest hshift hsmall hxPcs hcanonical
  set tree := honestLayerTree sha256 pcsStatement 0 codeword with htree
  have hfactor : (tensorFactor components).length = xEvaluations.length := by
    rw [length_tensorFactor (powerSizes_of_shape hshape), bitCount_of_shape hshape, hx]
  -- the seed
  obtain ⟨digest, hdigest, -⟩ := bind_eq_ok.mp hpcs
  obtain ⟨factor, hfactorDigest⟩ := exists_factorDigest hshape hdigest
  obtain ⟨seed, hseed⟩ : Accepts (outerSeed sha256 statement tree.commitment.bytes factor
      (weightedSum xEvaluations components) validatorNonce) := by
    simp only [Accepts, outerSeed, bind_eq_ok, fixedBytes32_eq_ok, pure_eq_ok]
    exact ⟨_, digest, hdigest, tree.commitment, rfl, ⟨validatorNonce, hnonce⟩, rfl, rfl⟩
  -- the rounds
  obtain ⟨rounds, challenges, hloop⟩ := exists_outerLoop hchallenges 0 (tensorFactor components) hx
    seed
  have houter := outerLoop_eq_ok hx hloop
  have hpoint : challenges.reverse.length = pcsStatement.variableCount := by
    rw [List.length_reverse, houter.length_challenges, hvariables]
  have hpointCanonical : CanonicalVector challenges.reverse := fun v hv =>
    houter.canonical_challenges v (List.mem_reverse.mp hv)
  obtain ⟨opening, hopen, -⟩ := open_honest hshift hderive hsmall hxPcs hcanonical hlayer lib hpoint
    hpointCanonical hnonce
  refine ⟨tree, ⟨weightedSum xEvaluations components, rounds, opening⟩,
    bind_eq_ok.mpr ⟨pcsStatement, hpcs, hcommit⟩, ?_⟩
  simp only [proveGoldilocksSuccinctFoldV3, bind_eq_ok, raiseIf_eq_ok, pure_eq_ok, not_not,
    fieldComponents_eq_ok, mapM_field_eq_ok_iff]
  refine ⟨(), hshape, _, ⟨hcomponents, rfl⟩, _, ⟨hcanonical, rfl⟩, (), ?_, _, ?_, factor,
    hfactorDigest, seed, hseed, _, hloop, pcsStatement, hpcs, _, ⟨hcanonical, rfl⟩, opening, hopen,
    rfl⟩
  · rw [hx, Nat.one_shiftLeft]
  · rw [claimLoop_eq_sum hfactor.symm (by decide), zero_add]
    rfl

end Honest

end Verathos.SuccinctFold
