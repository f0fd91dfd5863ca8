import Verathos.BatchOpening.Defs
import Verathos.Goldilocks.MleFolds
import Verathos.Wire.Codec

/-!
# The succinct fold argument

A translation of the statement, the prover and the verifier of
`goldilocks_succinct_fold_argument_reference.py`, with `_challenge` of
`goldilocks_fold_sumcheck_reference.py`. The wire format is in `Verathos.SuccinctFold.Wire`.

SHA-256 is a parameter. The argument `lib` says whether the compiled library is loaded, and
`queryCount` is the number of queries that the context gives to a commitment statement.
-/

namespace Verathos.SuccinctFold

open BatchOpening Merkle Numpy Pcs Wire

def transcriptDomain : Bytes :=
  asciiBytes "VERATHOS/PROOF_V3/GOLDILOCKS_SUCCINCT_FOLD/V1/TRANSCRIPT/SHA256"

/-- `_CHALLENGE_DOMAIN` of the fold sumcheck. -/
def challengeDomain : Bytes :=
  asciiBytes "VERATHOS/PROOF_V3/GOLDILOCKS_FOLD_SUMCHECK/V1/CHALLENGE/SHA256"

/-! ## Statements -/

/-- `GoldilocksSuccinctFoldStatementV3`, with the conditions of its constructor. -/
structure GoldilocksSuccinctFoldStatementV3 where
  validatorBindingDigest : Digest
  variableCount : ℕ
  /-- The sizes of the factor components, the most significant one first. -/
  factorComponentSizes : List ℕ
  binding_ne_zero : validatorBindingDigest ≠ Digest.zero
  sizes_ne_nil : factorComponentSizes ≠ []
  sizes_pow : ∀ size ∈ factorComponentSizes, ¬ (size < 1 ∨ size &&& (size - 1) ≠ 0)
  sum_bits : (factorComponentSizes.map fun size => size.size - 1).sum = variableCount

namespace GoldilocksSuccinctFoldStatementV3

def postInit (validatorBindingDigest : Bytes) (variableCount : ℕ)
    (factorComponentSizes : List ℕ) : Result GoldilocksSuccinctFoldStatementV3 := do
  let binding ← fixedBytes32 validatorBindingDigest "succinct-fold binding"
  if hbinding : binding = Digest.zero then
    throw (.proofV3Error "succinct-fold binding must not be zero")
  else if hsizes : factorComponentSizes = [] ∨
      ∃ size ∈ factorComponentSizes, size < 1 ∨ size &&& (size - 1) ≠ 0 then
    throw (.proofV3Error "succinct-fold factor components must be powers of two")
  else if hbits : (factorComponentSizes.map fun size => size.size - 1).sum ≠ variableCount then
    throw (.proofV3Error "succinct-fold factor components do not span the cube")
  else
    return ⟨binding, variableCount, factorComponentSizes, hbinding, fun h => hsizes (.inl h),
      fun size hsize h => hsizes (.inr ⟨size, hsize, h⟩), not_not.mp hbits⟩

variable (sha256 : Bytes → Digest) (statement : GoldilocksSuccinctFoldStatementV3)

def digest : Result Digest := do
  let count ← packUnsigned 4 statement.variableCount
  let sizes ← statement.factorComponentSizes.mapM fun (size : ℕ) => packUnsigned 4 size
  return sha256 (transcriptDomain ++ statement.validatorBindingDigest.bytes ++ count ++
    sizes.flatten)

def pcsStatement (queryCount : ℕ) : Result GoldilocksMultilinearPcsStatementV3 := do
  let digest ← statement.digest sha256
  GoldilocksMultilinearPcsStatementV3.postInit digest.bytes statement.variableCount .v1 queryCount

end GoldilocksSuccinctFoldStatementV3

structure GoldilocksSuccinctFoldProofV3 where
  claimedSum : ℤ
  outerRounds : List Round
  /-- The opening of the witness at the reversed challenges. -/
  opening : GoldilocksMultilinearOpeningProofV3

/-! ## The factor -/

/-- One component of `_tensor_factor`. -/
def tensorStep (table component : List ℤ) : List ℤ :=
  table.flatMap fun left => component.map fun right => left * right % goldilocksModulus

def tensorFactor (components : List (List ℤ)) : List ℤ :=
  components.foldl tensorStep [1]

/-- The loop of the verifier over the components: the product of their evaluations, each over its
slice of the challenges from `cursor` on. -/
def factorAtPoint (challenges : List ℤ) : List (List ℤ) → ℕ → ℤ → Result ℤ
  | [], _, fAtPoint => .ok fAtPoint
  | component :: rest, cursor, fAtPoint => do
    let bits := component.length.size - 1
    let value ← mleEvalMsb component ((challenges.drop cursor).take bits)
    factorAtPoint challenges rest (cursor + bits) (fAtPoint * value % goldilocksModulus)

/-! ## The rounds of the prover -/

/-- The body of the inner loop of a round. -/
def outerStep (xValues fValues : List ℤ) (half : ℕ) (g : Round) (i : ℕ) : Round :=
  let xLo := xValues.getD i 0
  let xHi := xValues.getD (half + i) 0
  let fLo := fValues.getD i 0
  let fHi := fValues.getD (half + i) 0
  ((g.1 + xLo * fLo) % goldilocksModulus, (g.2.1 + xHi * fHi) % goldilocksModulus,
    (g.2.2 + (2 * xHi - xLo) * (2 * fHi - fLo)) % goldilocksModulus)

/-- The values `g0`, `g1` and `g2` of a round. -/
def outerRound (xValues fValues : List ℤ) : Round :=
  let half := xValues.length / 2
  (List.range half).foldl (outerStep xValues fValues half) (0, 0, 0)

section Hash

variable (sha256 : Bytes → Digest)

/-- `_challenge`. -/
def challengeOf (seed : Digest) (roundIndex : ℕ) : Result ℤ :=
  rejectionSample
    (fun counter => digestWord (sha256 (challengeDomain ++ seed.bytes ++ packI roundIndex ++
      packI counter)))
    (· < goldilocksModulus) (.proofV3Error "unable to derive a fold-sumcheck challenge")
    (2 ^ 16) 0

/-- The round loop of the prover, after `count` rounds: the rounds and their challenges. -/
def outerLoop (count : ℕ) (xValues fValues : List ℤ) (transcript : Digest) :
    Result (List Round × List ℤ) :=
  if _h : 1 < xValues.length then do
    let half := xValues.length / 2
    let g := outerRound xValues fValues
    let transcript := absorbRound sha256 transcript g
    let challenge ← challengeOf sha256 transcript (count + 1)
    let (rounds, challenges) ← outerLoop (count + 1) (foldHalves xValues half challenge)
      (foldHalves fValues half challenge) transcript
    return (g :: rounds, challenge :: challenges)
  else return ([], [])
termination_by xValues.length
decreasing_by
  rw [foldHalves, List.length_map, List.length_range]
  omega

variable (statement : GoldilocksSuccinctFoldStatementV3)

def factorDigest (components : List (List ℤ)) : Result Digest := do
  let parts ← components.mapM fun component => do
    let count ← packUnsigned 4 component.length
    return count ++ component.flatMap fieldBytes
  return sha256 parts.flatten

def outerSeed (commitment : Bytes) (factorDigest : Digest) (claimed : ℤ)
    (validatorNonce : Bytes) : Result Digest := do
  let digest ← statement.digest sha256
  let commitment ← fixedBytes32 commitment "succinct-fold commitment"
  let validatorNonce ← fixedBytes32 validatorNonce "validator_nonce"
  return sha256 (transcriptDomain ++ digest.bytes ++ commitment.bytes ++ factorDigest.bytes ++
    fieldBytes claimed ++ validatorNonce.bytes)

/-- The check of the factor components: every value is canonical. -/
def fieldComponents (factorComponents : List (List ℤ)) : Result (List (List ℤ)) :=
  factorComponents.mapM fun component => component.mapM (field · "factor value")

/-! ## The prover -/

def commitGoldilocksSuccinctFoldWitnessV3 (queryCount : ℕ) (xEvaluations : List ℤ) :
    Result GoldilocksMerkleTreeReference := do
  let pcsStatement ← statement.pcsStatement sha256 queryCount
  commitGoldilocksMultilinearV3 sha256 pcsStatement xEvaluations

def proveGoldilocksSuccinctFoldV3 (queryCount : ℕ) (lib : Bool)
    (tree : GoldilocksMerkleTreeReference) (xEvaluations : List ℤ)
    (factorComponents : List (List ℤ)) (validatorNonce : Bytes) :
    Result GoldilocksSuccinctFoldProofV3 := do
  raiseIf (factorComponents.map List.length ≠ statement.factorComponentSizes)
    (.proofV3Error "succinct-fold factor component shapes are wrong")
  let components ← fieldComponents factorComponents
  let xValues ← xEvaluations.mapM (field · "x evaluation")
  raiseIf (xValues.length ≠ 1 <<< statement.variableCount)
    (.proofV3Error "succinct-fold witness size is wrong")
  let fValues := tensorFactor components
  let claimed ← claimLoop xValues fValues 0
  let factorDigest ← factorDigest sha256 components
  let transcript ← outerSeed sha256 statement tree.commitment.bytes factorDigest claimed
    validatorNonce
  let (rounds, challenges) ← outerLoop sha256 0 xValues fValues transcript
  -- an outer challenge binds the highest bit that is left, a point of the commitment starts from
  -- the lowest one
  let pcsStatement ← statement.pcsStatement sha256 queryCount
  let evaluations ← xEvaluations.mapM (field · "x evaluation")
  let opening ← openGoldilocksMultilinearV3 sha256 pcsStatement lib tree evaluations
    challenges.reverse validatorNonce
  return ⟨claimed, rounds, opening⟩

/-! ## The verifier -/

/-- The loop of the verifier over the outer rounds: the last running value and the challenges. -/
def verifyOuterRounds : List Round → ℕ → ℤ → Digest → Result (ℤ × List ℤ)
  | [], _, running, _ => .ok (running, [])
  | (g0, g1, g2) :: rest, roundIndex, running, transcript => do
    let g0 ← field g0 "g0"
    let g1 ← field g1 "g1"
    let g2 ← field g2 "g2"
    raiseIf ((g0 + g1) % goldilocksModulus ≠ running)
      (.proofV3VerificationError "succinct-fold round does not match the running sum")
    let transcript := absorbRound sha256 transcript (g0, g1, g2)
    let challenge ← challengeOf sha256 transcript roundIndex
    let running := recombine (g0, g1, g2) challenge
    let (running, challenges) ← verifyOuterRounds rest (roundIndex + 1) running transcript
    return (running, challenge :: challenges)

def verifyGoldilocksSuccinctFoldV3 (queryCount : ℕ) (lib : Bool)
    (proof : GoldilocksSuccinctFoldProofV3) (commitment : Bytes)
    (factorComponents : List (List ℤ)) (validatorNonce : Bytes) (expectedSum : ℤ) : Result Unit :=
  exceptListed ["IndexError", "KeyError", "TypeError", "ValueError"]
    "succinct-fold proof is malformed" do
      raiseIf (factorComponents.map List.length ≠ statement.factorComponentSizes)
        (.proofV3VerificationError "succinct-fold factor component shapes are wrong")
      let components ← fieldComponents factorComponents
      raiseIf (proof.outerRounds.length ≠ statement.variableCount)
        (.proofV3VerificationError "succinct-fold round count is wrong")
      let expectedSum ← field expectedSum "expected_sum"
      raiseIf (proof.claimedSum ≠ expectedSum)
        (.proofV3VerificationError
          "succinct-fold claimed sum does not match the outer relation")
      let fixed ← fixedBytes32 commitment "succinct-fold commitment"
      let factorDigest ← factorDigest sha256 components
      let transcript ← outerSeed sha256 statement fixed.bytes factorDigest proof.claimedSum
        validatorNonce
      let (running, challenges) ← verifyOuterRounds sha256 proof.outerRounds 1 proof.claimedSum
        transcript
      let fAtPoint ← factorAtPoint challenges components 0 1
      raiseIf (fAtPoint = 0)
        (.proofV3VerificationError "succinct-fold factor evaluates to zero at the challenge")
      let inverse ← goldilocksInv fAtPoint
      let expectedX := running * inverse % goldilocksModulus
      let pcsStatement ← statement.pcsStatement sha256 queryCount
      verifyGoldilocksMultilinearOpeningV3 sha256 pcsStatement lib proof.opening commitment
        challenges.reverse expectedX validatorNonce

end Hash

end Verathos.SuccinctFold
