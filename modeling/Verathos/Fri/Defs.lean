import Verathos.Goldilocks.Interpolation
import Verathos.Pcs.Defs

/-!
# The FRI reference

A translation of `goldilocks_fri_reference.py`: the statement, the Fiat-Shamir derivations, the fold
of one layer, the prover and the verifier. As in the Merkle reference, sizes, counts and indices are
natural numbers and field values are integers. A commitment that the transcript absorbs is a
`Digest`, so the length check of `_commitment_bytes` holds by construction.
-/

namespace Verathos.Fri

open Merkle ModularPower
open Pcs (digestWord rejectionSample openLayer Opened)

def goldilocksFriReferenceAbiV3 : String := "goldilocks.fri.reference.v1"

def goldilocksFriReferenceFormatVersionV3 : ℕ := 1

/-- `MAX_GOLDILOCKS_FRI_REFERENCE_QUERY_COUNT_V3`. -/
def maxQueryCount : ℕ := 64

/-- `MAX_GOLDILOCKS_FRI_REFERENCE_FINAL_DOMAIN_SIZE_V3`. -/
def maxFinalDomainSize : ℕ := 64

/-- `MAX_GOLDILOCKS_FRI_REFERENCE_ROUNDS_V3`. -/
def maxRounds : ℕ := goldilocksTwoAdicity

def statementDomain : Bytes :=
  asciiBytes "VERATHOS/PROOF_V3/GOLDILOCKS_FRI/V1/STATEMENT/SHA256"

def roundBindingDomain : Bytes :=
  asciiBytes "VERATHOS/PROOF_V3/GOLDILOCKS_FRI/V1/ROUND_BINDING/SHA256"

def betaDomain : Bytes := asciiBytes "VERATHOS/PROOF_V3/GOLDILOCKS_FRI/V1/BETA/SHA256"

def queryDomain : Bytes := asciiBytes "VERATHOS/PROOF_V3/GOLDILOCKS_FRI/V1/QUERY/SHA256"

def maxRejectionAttempts : ℕ := 1 <<< 16

/-- The condition under which `_power_of_two` raises. -/
def NotPowerOfTwo (value maximum : ℕ) : Prop :=
  value < 1 ∨ value > maximum ∨ value &&& (value - 1) ≠ 0

instance (value maximum : ℕ) : Decidable (NotPowerOfTwo value maximum) :=
  inferInstanceAs (Decidable (_ ∨ _))

def fieldVector (value : List ℤ) (length : ℕ) (name : String) : Result (List ℤ) := do
  raiseIf (value.length ≠ length)
    (.proofV3Error (name ++ " must contain exactly " ++ toString length ++ " field values"))
  value.zipIdx.mapM fun (entry, index) =>
    canonicalGoldilocks entry (name ++ "[" ++ toString index ++ "]")

/-! ## Statements -/

/-- `GoldilocksFriStatementReference`, with the conditions of its constructor. -/
structure GoldilocksFriStatementReference where
  bindingDigest : Digest
  domainSize : ℕ
  degreeBound : ℕ
  domainShift : ℤ
  queryCount : ℕ
  abiId : String
  formatVersion : ℕ
  abi_eq : abiId = goldilocksFriReferenceAbiV3
  version_eq : formatVersion = goldilocksFriReferenceFormatVersionV3
  binding_ne_zero : bindingDigest ≠ Digest.zero
  domainSize_pow : ¬ NotPowerOfTwo domainSize maxGoldilocksReferenceDomainSize
  degreeBound_pow : ¬ NotPowerOfTwo degreeBound domainSize
  degreeBound_lt : degreeBound < domainSize
  finalDomainSize_le : domainSize / degreeBound ≤ maxFinalDomainSize
  one_le_queryCount : 1 ≤ queryCount
  queryCount_le : queryCount ≤ maxQueryCount
  queryCount_le_half : queryCount ≤ domainSize / 2
  canonical_domainShift : Canonical domainShift
  domainShift_ne_zero : domainShift ≠ 0

def GoldilocksFriStatementReference.postInit (bindingDigest : Bytes) (domainSize degreeBound : ℕ)
    (domainShift : ℤ) (queryCount : ℕ) (abiId : String) (formatVersion : ℕ) :
    Result GoldilocksFriStatementReference := do
  if habi : abiId ≠ goldilocksFriReferenceAbiV3 then
    throw (.proofV3Error "Goldilocks FRI reference ABI is unsupported")
  else if hversion : formatVersion ≠ goldilocksFriReferenceFormatVersionV3 then
    throw (.proofV3Error "Goldilocks FRI reference format version is unsupported")
  else
    let binding ← fixedBytes32 bindingDigest "Goldilocks FRI statement binding_digest"
    if hbinding : binding = Digest.zero then
      throw (.proofV3Error "Goldilocks FRI statement binding_digest must not be zero")
    else if hdomain : NotPowerOfTwo domainSize maxGoldilocksReferenceDomainSize then
      throw (.proofV3Error
        "Goldilocks FRI domain_size must be a power of two within the reference cap")
    else if hdegree : NotPowerOfTwo degreeBound domainSize then
      throw (.proofV3Error
        "Goldilocks FRI degree_bound must be a power of two within the reference cap")
    else if hrate : degreeBound ≥ domainSize then
      throw (.proofV3Error "Goldilocks FRI degree_bound must leave a nontrivial code rate")
    else if hfinal : domainSize / degreeBound > maxFinalDomainSize then
      throw (.proofV3Error "Goldilocks FRI final domain exceeds the CPU reference cap")
    else if hquery : queryCount < 1 ∨ queryCount > maxQueryCount ∨ queryCount > domainSize / 2 then
      throw (.proofV3Error "Goldilocks FRI query_count is outside the reference cap")
    else if hshift : ¬ Canonical domainShift then
      throw (.proofV3Error
        "Goldilocks FRI domain_shift is outside the canonical Goldilocks field")
    else if hzero : domainShift = 0 then
      throw (.proofV3Error "Goldilocks FRI domain_shift must be nonzero")
    else
      return ⟨binding, domainSize, degreeBound, domainShift, queryCount, abiId, formatVersion,
        not_not.mp habi, not_not.mp hversion, hbinding, hdomain, hdegree, by omega, by omega,
        by omega, by omega, by omega, canonical_of_not_not hshift, hzero⟩

namespace GoldilocksFriStatementReference

variable (sha256 : Bytes → Digest) (statement : GoldilocksFriStatementReference)

def roundCount : ℕ := statement.degreeBound.size - 1

def finalDomainSize : ℕ := statement.domainSize / statement.degreeBound

def canonicalBytes : Bytes :=
  LittleEndian.toBytes 2 statement.formatVersion ++ LittleEndian.toBytes 2 statement.abiId.length ++
    asciiBytes statement.abiId ++ statement.bindingDigest.bytes ++ packI statement.domainSize ++
    packI statement.degreeBound ++ LittleEndian.toBytes 8 statement.domainShift.toNat ++
    packI statement.queryCount

def digest : Digest := sha256 (statementDomain ++ statement.canonicalBytes)

end GoldilocksFriStatementReference

section Hash

variable (sha256 : Bytes → Digest) (statement : GoldilocksFriStatementReference)

def roundDomain (roundIndex : ℕ) : Result GoldilocksRadix2DomainReference := do
  raiseIf (roundIndex > statement.roundCount)
    (.proofV3Error "Goldilocks FRI round index is out of range")
  goldilocksRadix2DomainReference (statement.domainSize >>> roundIndex)
    (powMod statement.domainShift (1 <<< roundIndex) goldilocksModulus)

def roundBinding (roundIndex : ℕ) : Result Digest := do
  let domain ← roundDomain statement roundIndex
  return sha256 (roundBindingDomain ++ (statement.digest sha256).bytes ++ packI roundIndex ++
    packI domain.size ++ LittleEndian.toBytes 8 domain.shift.toNat)

def deriveBeta (commitments : List Digest) (roundIndex : ℕ) : Result ℤ := do
  raiseIf (commitments.length ≠ roundIndex + 1)
    (.proofV3Error "Goldilocks FRI beta transcript has an unexpected commitment count")
  let frame := betaDomain ++ (statement.digest sha256).bytes ++ packI roundIndex ++
    packI commitments.length ++ commitments.flatMap (·.bytes)
  rejectionSample (fun counter => digestWord (sha256 (frame ++ packI counter)))
    (fun candidate => 0 < candidate ∧ candidate < goldilocksModulus)
    (.proofV3Error "unable to derive a canonical Goldilocks FRI beta") maxRejectionAttempts 0

/-- The loop of `_derive_query_bases`, with `remaining` values of the counter to go. -/
def queryBasesLoop (candidate : ℕ → ℕ) (limit threshold queryCount : ℕ) :
    ℕ → ℕ → Finset ℕ → Result (List ℕ)
  | 0, _, _ => .error (.proofV3Error "unable to derive distinct Goldilocks FRI query bases")
  | remaining + 1, counter, result =>
    if candidate counter ≥ threshold then
      queryBasesLoop candidate limit threshold queryCount remaining (counter + 1) result
    else
      let result := insert (candidate counter % limit) result
      if result.card = queryCount then .ok result.sort
      else queryBasesLoop candidate limit threshold queryCount remaining (counter + 1) result

def deriveQueryBases (commitments : List Digest) : Result (List ℕ) := do
  raiseIf (commitments.length ≠ statement.roundCount + 1)
    (.proofV3Error "Goldilocks FRI query transcript has an unexpected commitment count")
  let limit := statement.domainSize / 2
  let threshold := (1 <<< 64) - (1 <<< 64) % limit
  let frame := queryDomain ++ (statement.digest sha256).bytes ++ packI statement.queryCount ++
    packI commitments.length ++ commitments.flatMap (·.bytes)
  queryBasesLoop (fun counter => digestWord (sha256 (frame ++ packI counter))) limit threshold
    statement.queryCount maxRejectionAttempts 0 ∅

end Hash

/-- The body of the loop of `_fold_layer`. -/
def foldAt (values points : List ℤ) (half : ℕ) (inverseTwo challenge : ℤ) (index : ℕ) :
    Result ℤ := do
  let positive ← getItem values index
  let negative ← getItem values (index + half)
  let even := (positive + negative) * inverseTwo % goldilocksModulus
  let point ← getItem points index
  let inverse ← goldilocksInv point
  let odd := (positive - negative) * inverseTwo % goldilocksModulus * inverse % goldilocksModulus
  return (even + challenge * odd) % goldilocksModulus

def foldLayer (values : List ℤ) (domain : GoldilocksRadix2DomainReference) (beta : ℤ) :
    Result (List ℤ) := do
  raiseIf (values.length ≠ domain.size ∨ domain.size < 2)
    (.proofV3Error "Goldilocks FRI fold has an unexpected source domain")
  let challenge ← canonicalGoldilocks beta "Goldilocks FRI beta"
  raiseIf (challenge = 0) (.proofV3Error "Goldilocks FRI beta must be nonzero")
  let points ← domain.points
  let half := domain.size / 2
  let inverseTwo ← goldilocksInv 2
  (List.range half).mapM (foldAt values points half inverseTwo challenge)

def pairIndices (statement : GoldilocksFriStatementReference) (queryBases : List ℕ)
    (roundIndex : ℕ) : Result (List ℕ) := do
  raiseIf (roundIndex ≥ statement.roundCount)
    (.proofV3Error "Goldilocks FRI query round is out of range")
  let half := statement.domainSize >>> (roundIndex + 1)
  let bases := (queryBases.map (· % half)).toFinset.sort
  return (bases ++ bases.map (· + half)).insertionSort (· ≤ ·)

/-! ## Proofs -/

/-- `GoldilocksFriProofReference`, with the conditions of its constructor. -/
structure GoldilocksFriProofReference where
  commitments : List Digest
  /-- The openings of the folded layers at the queried pairs. -/
  roundOpenings : List ConstructedOpening
  finalOpening : ConstructedOpening
  commitments_ne_nil : commitments ≠ []
  length_commitments_le : commitments.length ≤ maxRounds + 1

/-- The loop of the constructor over the commitments. -/
def normalizedCommitments (commitments : List Bytes) : Result (List Digest) :=
  commitments.zipIdx.mapM fun (item, index) =>
    fixedBytes32 item ("Goldilocks FRI proof commitment[" ++ toString index ++ "]")

theorem length_normalizedCommitments {commitments : List Bytes} {normalized : List Digest}
    (h : normalizedCommitments commitments = .ok normalized) :
    normalized.length = commitments.length := by
  rw [normalizedCommitments, mapM_eq_ok] at h
  rw [← h.length_eq, List.length_zipIdx]

def GoldilocksFriProofReference.postInit (commitments : List Bytes)
    (roundOpenings : List ConstructedOpening) (finalOpening : ConstructedOpening) (abiId : String)
    (formatVersion : ℕ) : Result GoldilocksFriProofReference :=
  if abiId ≠ goldilocksFriReferenceAbiV3 then
    .error (.proofV3Error "Goldilocks FRI proof ABI is unsupported")
  else if formatVersion ≠ goldilocksFriReferenceFormatVersionV3 then
    .error (.proofV3Error "Goldilocks FRI proof format version is unsupported")
  else if hnil : commitments = [] then
    .error (.proofV3Error "Goldilocks FRI proof commitments must be nonempty")
  else if hcount : commitments.length > maxRounds + 1 then
    .error (.proofV3Error "Goldilocks FRI proof has too many commitments")
  else
    match hnormalized : normalizedCommitments commitments with
    | .error error => .error error
    | .ok normalized => .ok {
        commitments := normalized
        roundOpenings
        finalOpening
        commitments_ne_nil := by
          have hlength := length_normalizedCommitments hnormalized
          rintro rfl
          exact hnil (List.eq_nil_of_length_eq_zero hlength.symm)
        length_commitments_le := by
          rw [length_normalizedCommitments hnormalized]
          omega }

/-! ## The prover -/

/-- What the round loop of the prover leaves: the trees, and the codeword of the last one. -/
structure Committed where
  trees : List GoldilocksMerkleTreeReference
  current : List ℤ

section Hash

variable (sha256 : Bytes → Digest) (statement : GoldilocksFriStatementReference)

/-- The round loop of the prover from round `roundIndex` on, with `remaining` folds to go and the
commitments of the earlier rounds. -/
def commitRounds : ℕ → ℕ → List ℤ → List Digest → Result Committed
  | remaining, roundIndex, current, commitments => do
    let binding ← roundBinding sha256 statement roundIndex
    let tree ← GoldilocksMerkleTreeReference.fromRows sha256 (current.map fun value => [value])
      binding
    let commitments := commitments ++ [tree.commitment]
    match remaining with
    | 0 => return ⟨[tree], current⟩
    | remaining + 1 =>
      let beta ← deriveBeta sha256 statement commitments roundIndex
      let domain ← roundDomain statement roundIndex
      let folded ← foldLayer current domain beta
      let rest ← commitRounds remaining (roundIndex + 1) folded commitments
      return { rest with trees := tree :: rest.trees }

/-- The round loop of `prove_goldilocks_fri_reference`, on checked evaluations. -/
def commitLayers (evaluations : List ℤ) : Result Committed := do
  let current ← fieldVector evaluations statement.domainSize "Goldilocks FRI source evaluations"
  commitRounds sha256 statement statement.roundCount 0 current []

/-- `prove_goldilocks_fri_reference`. The argument `lib` says whether the compiled helper of the
Merkle openings is loaded. -/
def proveGoldilocksFriReference (lib : Bool) (evaluations : List ℤ) :
    Result GoldilocksFriProofReference := do
  let committed ← commitLayers sha256 statement evaluations
  let trees := committed.trees
  let commitments := trees.map (·.commitment)
  let queryBases ← deriveQueryBases sha256 statement commitments
  let roundOpenings ← (List.range statement.roundCount).mapM fun roundIndex => do
    let tree ← getItem trees roundIndex
    let indices ← pairIndices statement queryBases roundIndex
    openLayer lib tree indices
  let lastTree ← getItem trees (trees.length - 1)
  let finalOpening ← openLayer lib lastTree (List.range statement.finalDomainSize)
  GoldilocksFriProofReference.postInit (commitments.map (·.bytes)) roundOpenings finalOpening
    goldilocksFriReferenceAbiV3 goldilocksFriReferenceFormatVersionV3

/-! ## The verifier -/

def openedValues (opening : GoldilocksMerkleMultiOpeningReference) : Result Opened := do
  raiseIf (opening.leafWidth ≠ 1)
    (.proofV3VerificationError "Goldilocks FRI opening has an unexpected width")
  Pcs.openedValues opening.indices opening.rows ∅

/-- The check of the opening of one round. -/
def verifyRoundOpening (lib : Bool) (commitments : List Digest) (queryBases : List ℕ)
    (opening : ConstructedOpening) (roundIndex : ℕ) : Result Unit := do
  let domain ← roundDomain statement roundIndex
  let commitment ← getItem commitments roundIndex
  let binding ← roundBinding sha256 statement roundIndex
  let expectedIndices ← pairIndices statement queryBases roundIndex
  verifyGoldilocksMerkleMultiopeningReference sha256 lib commitment.bytes opening.opening
    binding.bytes domain.size 1 expectedIndices

/-- The checks of the verifier that the `try` block protects. -/
def verifyOpenings (lib : Bool) (proof : GoldilocksFriProofReference) : Result Unit := do
  let queryBases ← deriveQueryBases sha256 statement proof.commitments
  proof.roundOpenings.zipIdx.forM fun (opening, roundIndex) =>
    verifyRoundOpening sha256 statement lib proof.commitments queryBases opening roundIndex
  let commitment ← getItem proof.commitments (proof.commitments.length - 1)
  let binding ← roundBinding sha256 statement statement.roundCount
  verifyGoldilocksMerkleMultiopeningReference sha256 lib commitment.bytes
    proof.finalOpening.opening binding.bytes statement.finalDomainSize 1
    (List.range statement.finalDomainSize)

/-- The folding check of the verifier at one base. -/
def checkFold (points : List ℤ) (half : ℕ) (inverseTwo beta : ℤ)
    (sourceValues targetValues : Opened) (base : ℕ) : Result Unit := do
  match sourceValues.lookup base, sourceValues.lookup (base + half) with
  | some positive, some negative =>
    let point ← getItem points base
    let inverse ← goldilocksInv point
    let expected := ((positive + negative) * inverseTwo + beta *
      ((positive - negative) * inverseTwo % goldilocksModulus * inverse % goldilocksModulus)) %
        goldilocksModulus
    let targetIndex := base % half
    raiseIf (targetValues.lookup targetIndex ≠ some expected)
      (.proofV3VerificationError "Goldilocks FRI folding relation does not hold")
  | _, _ =>
    throw (.proofV3VerificationError "Goldilocks FRI opening omits a folded pair")

/-- `target_values`: the dictionary of the next layer. -/
def targetValues (openedRounds : List Opened) (finalValues : Opened) (roundIndex : ℕ) :
    Result Opened :=
  if roundIndex + 1 = statement.roundCount then .ok finalValues
  else getItem openedRounds (roundIndex + 1)

/-- The body of the verifier's loop over the opened rounds. The keys of the dictionary were inserted
in increasing order. -/
def checkRound (commitments : List Digest) (openedRounds : List Opened) (finalValues : Opened)
    (sourceValues : Opened) (roundIndex : ℕ) : Result Unit := do
  let beta ← deriveBeta sha256 statement (commitments.take (roundIndex + 1)) roundIndex
  let domain ← roundDomain statement roundIndex
  let points ← domain.points
  let half := domain.size / 2
  let inverseTwo ← goldilocksInv 2
  let target ← targetValues statement openedRounds finalValues roundIndex
  (sourceValues.keys.sort.filter (· < half)).forM
    (checkFold points half inverseTwo beta sourceValues target)

/-- `set(values.values())`. -/
def valueSet (opened : Opened) : Finset ℤ := opened.keys.image fun key => (opened.lookup key).getD 0

def verifyGoldilocksFriReference (lib : Bool) (proof : GoldilocksFriProofReference) :
    Result Unit := do
  raiseIf (proof.commitments.length ≠ statement.roundCount + 1)
    (.proofV3VerificationError "Goldilocks FRI proof has an unexpected commitment count")
  raiseIf (proof.roundOpenings.length ≠ statement.roundCount)
    (.proofV3VerificationError "Goldilocks FRI proof has an unexpected round-opening count")
  exceptListed [] "Goldilocks FRI proof is malformed" (verifyOpenings sha256 statement lib proof)
  let openedRounds ← proof.roundOpenings.mapM fun opening => openedValues opening.opening
  let finalValues ← openedValues proof.finalOpening.opening
  openedRounds.zipIdx.forM fun (sourceValues, roundIndex) =>
    checkRound sha256 statement proof.commitments openedRounds finalValues sourceValues roundIndex
  raiseIf (finalValues.keys ≠ Finset.range statement.finalDomainSize)
    (.proofV3VerificationError "Goldilocks FRI final opening is incomplete")
  raiseIf ((valueSet finalValues).card ≠ 1)
    (.proofV3VerificationError "Goldilocks FRI final codeword is not constant")

end Hash

end Verathos.Fri
