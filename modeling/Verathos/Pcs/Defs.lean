import Verathos.Goldilocks.Ntt
import Verathos.Merkle.Acceptance

/-!
# The multilinear polynomial commitment

A translation of `goldilocks_multilinear_pcs_reference.py`: the statement and its coset shifts,
the commitment, the opening prover and the Python loop of the verifier. The caches of the source
only save work, so a cached value is computed here every time. Sizes, counts, indices and query
positions are natural numbers; field values are integers, as in the Merkle reference.

The compiled verifier is in `Verathos.Pcs.Compiled`.
-/

namespace Verathos.Pcs

open Merkle ModularPower

/-- `GOLDILOCKS_MULTILINEAR_PCS_BLOWUP_V3`. -/
def blowup : ℕ := 4

/-- `MAX_GOLDILOCKS_MULTILINEAR_PCS_QUERY_COUNT_V3`. -/
def maxQueryCount : ℕ := 64

def statementDomain : Bytes :=
  asciiBytes "VERATHOS/PROOF_V3/GOLDILOCKS_MLPCS/V1/STATEMENT/SHA256"

def layerDomain : Bytes :=
  asciiBytes "VERATHOS/PROOF_V3/GOLDILOCKS_MLPCS/V1/LAYER/SHA256"

def shiftDomain : Bytes :=
  asciiBytes "VERATHOS/PROOF_V3/GOLDILOCKS_MLPCS/V1/SHIFT/SHA256"

def transcriptDomain : Bytes :=
  asciiBytes "VERATHOS/PROOF_V3/GOLDILOCKS_MLPCS/V1/TRANSCRIPT/SHA256"

def challengeDomain : Bytes :=
  asciiBytes "VERATHOS/PROOF_V3/GOLDILOCKS_MLPCS/V1/CHALLENGE/SHA256"

def queryDomain : Bytes :=
  asciiBytes "VERATHOS/PROOF_V3/GOLDILOCKS_MLPCS/V1/QUERY/SHA256"

/-- The label `b"fold"` of the round challenges. -/
def foldLabel : Bytes := asciiBytes "fold"

def field (value : ℤ) (name : String) : Result ℤ := do
  raiseIf (¬ Canonical value) (.proofV3Error (name ++ " must be a canonical Goldilocks element"))
  return value

@[simp]
theorem field_eq_ok {value : ℤ} {name : String} {v : ℤ} :
    field value name = .ok v ↔ Canonical value ∧ v = value := by
  simp only [field, bind_eq_ok, raiseIf_eq_ok, pure_eq_ok, not_not]
  constructor
  · rintro ⟨-, h, rfl⟩
    exact ⟨h, rfl⟩
  · rintro ⟨h, rfl⟩
    exact ⟨(), h, rfl⟩

/-- `value.to_bytes(8, "little")` of a canonical element. -/
def fieldBytes (value : ℤ) : Bytes := LittleEndian.toBytes 8 value.toNat

/-! ## Rejection sampling -/

/-- `int.from_bytes(digest[:8], "little")`. -/
def digestWord (digest : Digest) : ℕ := LittleEndian.toNat (digest.bytes.take 8)

/-- `for counter in range(..): … if admissible(candidate): return candidate`, with `remaining`
values of the counter to go. -/
def rejectionSample (candidate : ℕ → ℕ) (admissible : ℕ → Prop) [DecidablePred admissible]
    (error : PyError) : ℕ → ℕ → Result ℤ
  | 0, _ => .error error
  | remaining + 1, counter =>
    if admissible (candidate counter) then .ok (candidate counter)
    else rejectionSample candidate admissible error remaining (counter + 1)

theorem rejectionSample_eq_ok {candidate : ℕ → ℕ} {admissible : ℕ → Prop}
    [DecidablePred admissible] {error : PyError} {remaining counter : ℕ} {value : ℤ}
    (h : rejectionSample candidate admissible error remaining counter = .ok value) :
    ∃ word : ℕ, value = word ∧ admissible word := by
  induction remaining generalizing counter with
  | zero => simp [rejectionSample] at h
  | succ remaining ih =>
    rw [rejectionSample] at h
    split_ifs at h with hadmissible
    · exact ⟨candidate counter, (Except.ok.inj h).symm, hadmissible⟩
    · exact ih h

theorem rejectionSample_first {candidate : ℕ → ℕ} {admissible : ℕ → Prop}
    [DecidablePred admissible] (error : PyError) (remaining : ℕ) {counter : ℕ}
    (h : admissible (candidate counter)) :
    rejectionSample candidate admissible error (remaining + 1) counter =
      .ok (candidate counter : ℤ) := by
  rw [rejectionSample, if_pos h]

section Hash

variable (sha256 : Bytes → Digest)

def deriveField (seed : Digest) (label : Bytes) (index : ℕ) : Result ℤ :=
  rejectionSample
    (fun counter => digestWord (sha256 (challengeDomain ++ seed.bytes ++ label ++ packI index ++
      packI counter)))
    (· < goldilocksModulus) (.proofV3Error "unable to derive a multilinear PCS challenge")
    (2 ^ 16) 0

/-! ## Statements -/

/-- `_chain_cap_variables`: `MAX_GOLDILOCKS_NATIVE_DOMAIN_SIZE.bit_length() - 3`. -/
def chainCapVariables : ℕ := maxGoldilocksNativeDomainSize.size - 3

def chainMarker : Bytes := asciiBytes "COSET-CHAIN/V2" ++ packI chainCapVariables

def chainMasterShift : Result ℤ :=
  let seed := sha256 (shiftDomain ++ chainMarker)
  rejectionSample (fun counter => digestWord (sha256 (seed.bytes ++ packI counter)))
    (fun candidate => (0 < candidate ∧ candidate < goldilocksModulus) ∧
      powMod candidate (blowup <<< chainCapVariables) goldilocksModulus ≠ 1)
    (.proofV3Error "unable to derive the mlpcs chain master shift") (2 ^ 16) 0

def chainBaseShift (variableCount : ℕ) : Result ℤ := do
  let master ← chainMasterShift sha256
  return powMod master (1 <<< (chainCapVariables - variableCount)) goldilocksModulus

/-- The values of `coset_profile`. -/
inductive CosetProfile where
  /-- `"v1"`: the shift is derived from the statement digest. -/
  | v1
  /-- `"chain"`: columns of every size share one chain of fold domains. -/
  | chain
deriving DecidableEq

end Hash

/-- `GoldilocksMultilinearPcsStatementV3`, with the conditions of its constructor. The field
`queryCount` holds the value that the constructor stores, given or taken from the context. -/
structure GoldilocksMultilinearPcsStatementV3 where
  validatorBindingDigest : Digest
  variableCount : ℕ
  cosetProfile : CosetProfile
  queryCount : ℕ
  binding_ne_zero : validatorBindingDigest ≠ Digest.zero
  one_le_variableCount : 1 ≤ variableCount
  codeword_le : 2 ^ variableCount * blowup ≤ maxGoldilocksNativeDomainSize
  one_le_queryCount : 1 ≤ queryCount
  queryCount_le : queryCount ≤ maxQueryCount

def GoldilocksMultilinearPcsStatementV3.postInit (validatorBindingDigest : Bytes)
    (variableCount : ℕ) (cosetProfile : CosetProfile) (queryCount : ℕ) :
    Result GoldilocksMultilinearPcsStatementV3 := do
  let binding ← fixedBytes32 validatorBindingDigest "mlpcs binding"
  if hbinding : binding = Digest.zero then
    throw (.proofV3Error "mlpcs binding must not be zero")
  else if hvariables : variableCount < 1 ∨
      2 ^ variableCount * blowup > maxGoldilocksNativeDomainSize then
    throw (.proofV3Error "mlpcs variable count exceeds the native cap")
  else if hqueries : queryCount < 1 ∨ queryCount > maxQueryCount then
    throw (.proofV3Error "mlpcs query count is outside the protocol cap")
  else
    return ⟨binding, variableCount, cosetProfile, queryCount, hbinding, by omega, by omega,
      by omega, by omega⟩

namespace GoldilocksMultilinearPcsStatementV3

variable (sha256 : Bytes → Digest) (statement : GoldilocksMultilinearPcsStatementV3)

def leafCount : ℕ := 1 <<< statement.variableCount

def codewordSize : ℕ := statement.leafCount * blowup

def digest : Digest :=
  sha256 (statementDomain ++ statement.validatorBindingDigest.bytes ++
    packI statement.variableCount ++ packI blowup ++ packI statement.queryCount ++
    match statement.cosetProfile with
    | .chain => chainMarker
    | .v1 => [])

def layerBindingDigest (layerIndex : ℕ) : Digest :=
  sha256 (layerDomain ++ (statement.digest sha256).bytes ++ packI layerIndex)

def baseShift : Result ℤ :=
  match statement.cosetProfile with
  | .chain => chainBaseShift sha256 statement.variableCount
  | .v1 =>
    let seed := sha256 (shiftDomain ++ (statement.digest sha256).bytes)
    rejectionSample (fun counter => digestWord (sha256 (seed.bytes ++ packI counter)))
      (fun candidate => (0 < candidate ∧ candidate < goldilocksModulus) ∧
        powMod candidate statement.codewordSize goldilocksModulus ≠ 1)
      (.proofV3Error "unable to derive an mlpcs coset shift") (2 ^ 16) 0

end GoldilocksMultilinearPcsStatementV3

def genPow (size position : ℕ) : Result ℤ := do
  let root ← goldilocksPrincipalRootOfUnity size
  return powMod root position goldilocksModulus

def shiftPow (baseShift : ℤ) (layerIndex : ℕ) : ℤ :=
  powMod baseShift (1 <<< layerIndex) goldilocksModulus

section Hash

variable (sha256 : Bytes → Digest) (statement : GoldilocksMultilinearPcsStatementV3)

def domainShift (layerIndex : ℕ) : Result ℤ := do
  let shift ← statement.baseShift sha256
  return shiftPow shift layerIndex

def domainPoint (layerIndex position : ℕ) : Result ℤ := do
  let size := statement.codewordSize >>> layerIndex
  let shift ← statement.baseShift sha256
  let power ← genPow size position
  return shiftPow shift layerIndex * power % goldilocksModulus

/-! ## The commitment -/

def encode (coefficients : List ℤ) (layerIndex : ℕ) : Result (List ℤ) := do
  let size := statement.codewordSize >>> layerIndex
  let padded := coefficients ++ List.replicate (size - coefficients.length) 0
  let shift ← domainShift sha256 statement layerIndex
  let domain ← goldilocksRadix2DomainReference size shift
  nttGoldilocksReference padded domain

/-- The tree of one codeword, one value a row. -/
def layerTree (codeword : List ℤ) (layerIndex : ℕ) : Result GoldilocksMerkleTreeReference :=
  GoldilocksMerkleTreeReference.fromRows sha256 (codeword.map fun value => [value])
    (statement.layerBindingDigest sha256 layerIndex)

def commitGoldilocksMultilinearV3 (evaluations : List ℤ) :
    Result GoldilocksMerkleTreeReference := do
  raiseIf (evaluations.length ≠ statement.leafCount)
    (.proofV3Error "mlpcs evaluation count does not match the statement")
  let values ← evaluations.mapM (field · "mlpcs evaluation")
  let codeword ← encode sha256 statement values 0
  layerTree sha256 statement codeword 0

end Hash

/-- The inner loop of `_eq_weights`: the weight of one index. -/
def eqWeightOf (point : List ℤ) (index : ℕ) : ℤ :=
  point.zipIdx.foldl
    (fun w (r, j) =>
      w * (if (index >>> j) &&& 1 = 1 then r else (1 - r) % goldilocksModulus) % goldilocksModulus)
    1

def eqWeights (point : List ℤ) : List ℤ :=
  (List.range (1 <<< point.length)).map (eqWeightOf point)

def foldPairs (values : List ℤ) (challenge : ℤ) : List ℤ :=
  (List.range (values.length / 2)).map fun i =>
    (values.getD (2 * i) 0 + challenge * (values.getD (2 * i + 1) 0 - values.getD (2 * i) 0)) %
      goldilocksModulus

/-! ## Proofs -/

/-- A round polynomial by its values at 0, 1 and 2. -/
abbrev Round := ℤ × ℤ × ℤ

/-- `GoldilocksMultilinearOpeningProofV3`, with the conditions of its constructor. Round values
and layer commitments are not checked there. -/
structure GoldilocksMultilinearOpeningProofV3 where
  claimedValue : ℤ
  roundPolynomials : List Round
  layerCommitments : List Bytes
  finalValue : ℤ
  /-- The Merkle openings, from the committed layer to the final one. -/
  layerOpenings : List ConstructedOpening
  canonical_claimedValue : Canonical claimedValue
  canonical_finalValue : Canonical finalValue
  length_layerCommitments : layerCommitments.length = roundPolynomials.length

def GoldilocksMultilinearOpeningProofV3.postInit (claimedValue : ℤ)
    (roundPolynomials : List Round) (layerCommitments : List Bytes) (finalValue : ℤ)
    (layerOpenings : List ConstructedOpening) : Result GoldilocksMultilinearOpeningProofV3 :=
  if hclaimed : ¬ Canonical claimedValue then
    .error (.proofV3Error "claimed_value must be a canonical Goldilocks element")
  else if hfinal : ¬ Canonical finalValue then
    .error (.proofV3Error "final_value must be a canonical Goldilocks element")
  else if hlength : layerCommitments.length ≠ roundPolynomials.length then
    .error (.proofV3Error "mlpcs layer/round count mismatch")
  else
    .ok ⟨claimedValue, roundPolynomials, layerCommitments, finalValue, layerOpenings,
      canonical_of_not_not hclaimed, canonical_of_not_not hfinal, not_not.mp hlength⟩

/-- The set that `_layer_query_indices` collects. -/
def layerQuerySet (positions : List ℕ) (size : ℕ) (isFinal : Bool) : Finset ℕ :=
  if isFinal then (positions.map (· % size)).toFinset
  else (positions.flatMap fun position =>
    [position % (size / 2), position % (size / 2) + size / 2]).toFinset

def layerQueryIndices (positions : List ℕ) (size : ℕ) (isFinal : Bool) : List ℕ :=
  (layerQuerySet positions size isFinal).sort

section Hash

variable (sha256 : Bytes → Digest) (statement : GoldilocksMultilinearPcsStatementV3)

def transcriptSeed (commitment : Bytes) (point : List ℤ) (claimedValue : ℤ)
    (validatorNonce : Bytes) : Result Digest := do
  let commitment ← fixedBytes32 commitment "mlpcs commitment"
  let validatorNonce ← fixedBytes32 validatorNonce "validator_nonce"
  return sha256 (transcriptDomain ++ (statement.digest sha256).bytes ++ commitment.bytes ++
    point.flatMap fieldBytes ++ fieldBytes claimedValue ++ validatorNonce.bytes)

/-- The transcript after a round polynomial. -/
def absorbRound (transcript : Digest) (g : Round) : Digest :=
  sha256 (transcript.bytes ++ fieldBytes g.1 ++ fieldBytes g.2.1 ++ fieldBytes g.2.2)

/-- The query positions in the first half of the base codeword. -/
def queryPositions (transcript : Digest) (baseSize queryCount : ℕ) : List ℕ :=
  let querySeed := sha256 (transcript.bytes ++ asciiBytes "queries")
  (List.range queryCount).map fun queryIndex =>
    digestWord (sha256 (queryDomain ++ querySeed.bytes ++ packI queryIndex)) % (baseSize / 2)

/-! ## The prover -/

/-- The body of the prover's inner loop, on the pairs of one index. -/
def roundStep (values weights : List ℤ) (g : Round) (i : ℕ) : Round :=
  let vLo := values.getD (2 * i) 0
  let vHi := values.getD (2 * i + 1) 0
  let wLo := weights.getD (2 * i) 0
  let wHi := weights.getD (2 * i + 1) 0
  let v2 := (2 * vHi - vLo) % goldilocksModulus
  let w2 := (2 * wHi - wLo) % goldilocksModulus
  ((g.1 + vLo * wLo) % goldilocksModulus, (g.2.1 + vHi * wHi) % goldilocksModulus,
    (g.2.2 + v2 * w2) % goldilocksModulus)

/-- The prover's round polynomial. -/
def roundPolynomial (values weights : List ℤ) : Round :=
  (List.range (values.length / 2)).foldl (roundStep values weights) (0, 0, 0)

/-- What the prover's round loop has produced. -/
structure OpenedRounds where
  rounds : List Round
  layerTrees : List GoldilocksMerkleTreeReference
  values : List ℤ
  transcript : Digest

/-- The round loop of the prover, with `remaining` rounds to go. -/
def openRounds : ℕ → ℕ → List ℤ → List ℤ → Digest → Result OpenedRounds
  | 0, _, values, _, transcript => .ok ⟨[], [], values, transcript⟩
  | remaining + 1, roundIndex, values, weights, transcript => do
    let g := roundPolynomial values weights
    let transcript := absorbRound sha256 transcript g
    let challenge ← deriveField sha256 transcript foldLabel roundIndex
    let values := foldPairs values challenge
    let weights := foldPairs weights challenge
    let foldedCodeword ← encode sha256 statement values (roundIndex + 1)
    let foldedTree ← layerTree sha256 statement foldedCodeword (roundIndex + 1)
    let transcript := sha256 (transcript.bytes ++ foldedTree.commitment.bytes)
    let rest ← openRounds remaining (roundIndex + 1) values weights transcript
    return { rest with rounds := g :: rest.rounds, layerTrees := foldedTree :: rest.layerTrees }

/-- `layer_tree.open(…)`, as an object with the invariant of its constructor. -/
def openLayer (lib : Bool) (tree : GoldilocksMerkleTreeReference) (indices : List ℕ) :
    Result ConstructedOpening :=
  match h : tree.open lib indices with
  | .ok opening => .ok ⟨opening, admitted_of_open h⟩
  | .error error => .error error

/-- The loop over `enumerate(layer_trees)`, from layer `layerIndex` on. -/
def openLayers (lib : Bool) (positions : List ℕ) :
    List GoldilocksMerkleTreeReference → ℕ → Result (List ConstructedOpening)
  | [], _ => .ok []
  | tree :: rest, layerIndex => do
    let size := statement.codewordSize >>> layerIndex
    let opening ← openLayer lib tree
      (layerQueryIndices positions size (layerIndex = statement.variableCount))
    let openings ← openLayers lib positions rest (layerIndex + 1)
    return opening :: openings

/-- The accumulation of the claimed value over `zip(values, weights, strict=True)`. -/
def claimLoop : List ℤ → List ℤ → ℤ → Result ℤ
  | [], [], claimed => .ok claimed
  | value :: values, weight :: weights, claimed =>
    claimLoop values weights ((claimed + value * weight) % goldilocksModulus)
  | _, _, _ => .error (.builtin "ValueError")

/-- `open_goldilocks_multilinear_v3`. The argument `lib` says whether the compiled helper of the
Merkle openings is loaded. -/
def openGoldilocksMultilinearV3 (lib : Bool) (tree : GoldilocksMerkleTreeReference)
    (evaluations point : List ℤ) (validatorNonce : Bytes) :
    Result GoldilocksMultilinearOpeningProofV3 := do
  let n := statement.variableCount
  raiseIf (point.length ≠ n) (.proofV3Error "mlpcs point arity does not match the statement")
  let point ← point.mapM (field · "mlpcs point")
  let values ← evaluations.mapM (field · "mlpcs evaluation")
  raiseIf (values.length ≠ statement.leafCount)
    (.proofV3Error "mlpcs evaluation count does not match the statement")
  let weights := eqWeights point
  let claimed ← claimLoop values weights 0
  let transcript ← transcriptSeed sha256 statement tree.commitment.bytes point claimed validatorNonce
  let opened ← openRounds sha256 statement n 0 values weights transcript
  let finalValue ← getItem opened.values 0
  let positions := queryPositions sha256 opened.transcript statement.codewordSize
    statement.queryCount
  let layerOpenings ← openLayers statement lib positions (tree :: opened.layerTrees) 0
  GoldilocksMultilinearOpeningProofV3.postInit claimed opened.rounds
    (opened.layerTrees.map (·.commitment.bytes)) finalValue layerOpenings

/-! ## The verifier -/

/-- The quadratic through the round values, at the challenge, as the verifier writes it. -/
def recombine (g : Round) (z : ℤ) : ℤ :=
  (g.1 * ((z - 1) * (z - 2) % goldilocksModulus) % goldilocksModulus * inv2
    - g.2.1 * (z * (z - 2) % goldilocksModulus)
    + g.2.2 * (z * (z - 1) % goldilocksModulus) % goldilocksModulus * inv2) % goldilocksModulus

/-- The round loop of the verifier: the last running value, the challenges and the transcript. -/
def verifyRounds (layerCommitments : List Bytes) :
    List Round → ℕ → ℤ → Digest → Result (ℤ × List ℤ × Digest)
  | [], _, running, transcript => .ok (running, [], transcript)
  | (g0, g1, g2) :: rest, roundIndex, running, transcript => do
    let g0 ← field g0 "g0"
    let g1 ← field g1 "g1"
    let g2 ← field g2 "g2"
    raiseIf ((g0 + g1) % goldilocksModulus ≠ running)
      (.proofV3VerificationError "mlpcs round polynomial does not match the running sum")
    let transcript := absorbRound sha256 transcript (g0, g1, g2)
    let challenge ← deriveField sha256 transcript foldLabel roundIndex
    let running := recombine (g0, g1, g2) challenge
    let root ← getItem layerCommitments roundIndex
    let transcript := sha256 (transcript.bytes ++ root)
    let (running, challenges, transcript) ←
      verifyRounds layerCommitments rest (roundIndex + 1) running transcript
    return (running, challenge :: challenges, transcript)

/-- One factor of the coupling product. -/
def eqTermOf (challenge r : ℤ) : ℤ :=
  ((1 - challenge) * (1 - r) + challenge * r) % goldilocksModulus

/-- The coupling product over `zip(challenges, point, strict=True)`. -/
def eqProductLoop : List ℤ → List ℤ → ℤ → Result ℤ
  | [], [], eqProduct => .ok eqProduct
  | challenge :: challenges, r :: point, eqProduct =>
    eqProductLoop challenges point (eqProduct * eqTermOf challenge r % goldilocksModulus)
  | _, _, _ => .error (.builtin "ValueError")

/-- The dictionary of the opened values of one layer. -/
abbrev Opened := Finmap fun _ : ℕ => ℤ

/-- `{index: row[0] for index, row in zip(opening.indices, opening.rows, strict=True)}`. -/
def openedValues : List ℕ → List (List ℤ) → Opened → Result Opened
  | [], [], opened => .ok opened
  | index :: indices, row :: rows, opened => do
    let value ← getItem row 0
    openedValues indices rows (opened.insert index value)
  | _, _, _ => .error (.builtin "ValueError")

/-- `opened[key]`. -/
def getKey (opened : Opened) (key : ℕ) : Result ℤ :=
  match opened.lookup key with
  | some value => .ok value
  | none => .error (.builtin "KeyError")

/-- The loop over `enumerate(proof.layer_openings)`, from layer `layerIndex` on. -/
def verifyLayers (lib : Bool) (roots : List Bytes) (positions : List ℕ) :
    List ConstructedOpening → ℕ → Result (List Opened)
  | [], _ => .ok []
  | constructed :: rest, layerIndex => do
    let opening := constructed.opening
    let size := statement.codewordSize >>> layerIndex
    let root ← getItem roots layerIndex
    verifyGoldilocksMerkleMultiopeningReference sha256 lib root opening
      (statement.layerBindingDigest sha256 layerIndex).bytes size 1
      (layerQueryIndices positions size (layerIndex = statement.variableCount))
    let opened ← openedValues opening.indices opening.rows ∅
    let others ← verifyLayers lib roots positions rest (layerIndex + 1)
    return opened :: others

/-- The value that the child layer must hold, from a pair of values of the parent. -/
def expectedFold (challenge valuePos valueNeg inverse : ℤ) : ℤ :=
  let even := (valuePos + valueNeg) % goldilocksModulus * inv2
  let odd := (valuePos - valueNeg) % goldilocksModulus * inv2 % goldilocksModulus * inverse
  ((1 - challenge) * even + challenge * odd) % goldilocksModulus

/-- The fold equation of one layer at one position. -/
def checkFold (opened : List Opened) (challenges : List ℤ) (layerIndex position : ℕ) :
    Result Unit := do
  let size := statement.codewordSize >>> layerIndex
  let challenge ← getItem challenges layerIndex
  let foldedPosition := position % (size / 2)
  let layer ← getItem opened layerIndex
  let valuePos ← getKey layer foldedPosition
  let valueNeg ← getKey layer (foldedPosition + size / 2)
  let x ← domainPoint sha256 statement layerIndex foldedPosition
  let inverse ← goldilocksInv x
  let childLayer ← getItem opened (layerIndex + 1)
  let child ← getKey childLayer (position % (size / 2))
  raiseIf (expectedFold challenge valuePos valueNeg inverse ≠ child)
    (.proofV3VerificationError "mlpcs fold consistency fails at a queried position")

/-- The Python loop of the verifier, after the checks that both verifiers share. -/
def verifyPython (lib : Bool) (proof : GoldilocksMultilinearOpeningProofV3) (commitment : Bytes)
    (point : List ℤ) (transcript : Digest) : Result Unit := do
  let n := statement.variableCount
  let (running, challenges, transcript) ← verifyRounds sha256 proof.layerCommitments
    proof.roundPolynomials 0 proof.claimedValue transcript
  let eqProduct ← eqProductLoop challenges point 1
  raiseIf (running ≠ proof.finalValue * eqProduct % goldilocksModulus)
    (.proofV3VerificationError "mlpcs final coupling fails: codeword does not bind the sumcheck")
  let positions := queryPositions sha256 transcript statement.codewordSize statement.queryCount
  raiseIf (proof.layerOpenings.length ≠ n + 1)
    (.proofV3VerificationError "mlpcs layer opening count is wrong")
  let opened ← verifyLayers sha256 statement lib (commitment :: proof.layerCommitments) positions
    proof.layerOpenings 0
  (List.range n).forM fun layerIndex =>
    positions.forM (checkFold sha256 statement opened challenges layerIndex)
  let finalLayer ← getItem opened n
  raiseIf (∃ index ∈ finalLayer.keys, finalLayer.lookup index ≠ some proof.finalValue)
    (.proofV3VerificationError "mlpcs final codeword is not the claimed constant")

/-- The checks before either verifier runs: the point and the transcript seed. -/
def verifyShared (proof : GoldilocksMultilinearOpeningProofV3) (commitment : Bytes)
    (point : List ℤ) (expectedValue : ℤ) (validatorNonce : Bytes) :
    Result (List ℤ × Digest) := do
  let n := statement.variableCount
  let point ← point.mapM (field · "mlpcs point")
  raiseIf (point.length ≠ n ∨ proof.roundPolynomials.length ≠ n)
    (.proofV3VerificationError "mlpcs round arity is wrong")
  let expectedValue ← field expectedValue "expected_value"
  raiseIf (proof.claimedValue ≠ expectedValue)
    (.proofV3VerificationError "mlpcs claimed value does not match the outer relation")
  let transcript ← transcriptSeed sha256 statement commitment point proof.claimedValue validatorNonce
  return (point, transcript)

end Hash

/-- The exception clauses of the verifier: `ProofV3VerificationError` passes, the listed errors
become "mlpcs proof is malformed". -/
def exceptMalformed {α : Type} : Result α → Result α
  | .error (.proofV3Error _) => .error (.proofV3VerificationError "mlpcs proof is malformed")
  | .error (.builtin name) =>
    if name ∈ ["IndexError", "KeyError", "TypeError", "ValueError"] then
      .error (.proofV3VerificationError "mlpcs proof is malformed")
    else .error (.builtin name)
  | result => result

@[simp]
theorem exceptMalformed_eq_ok {α : Type} {x : Result α} {a : α} :
    exceptMalformed x = .ok a ↔ x = .ok a := by
  rcases x with (_ | _ | name) | _
  · simp [exceptMalformed]
  · simp [exceptMalformed]
  · simp only [exceptMalformed]
    split_ifs <;> simp
  · simp [exceptMalformed]

/-! ## A small instance -/

/-- A statement in one variable. -/
def oneVariableStatement : GoldilocksMultilinearPcsStatementV3 where
  validatorBindingDigest := Digest.one
  variableCount := 1
  cosetProfile := .v1
  queryCount := 1
  binding_ne_zero := Digest.one_ne_zero
  one_le_variableCount := one_le_one_nat
  codeword_le := by decide
  one_le_queryCount := one_le_one_nat
  queryCount_le := by decide

/-- A hash whose words are all 3. -/
def constantThree (_ : Bytes) : Digest := ⟨3 :: List.replicate 31 0, by simp⟩

theorem digestWord_constantThree (message : Bytes) : digestWord (constantThree message) = 3 := by
  rfl

end Verathos.Pcs
