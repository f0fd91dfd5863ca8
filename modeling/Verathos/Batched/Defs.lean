import Mathlib.Data.String.Basic
import Mathlib.Data.List.Sort
import Verathos.Pcs.Defs

/-!
# The batched opening verifier

A translation of `verify_goldilocks_batched_opening_v3` of `goldilocks_batched_pcs_opening.py`: one
lockstep sumcheck for every column, and one fold chain for a random linear combination of their
codewords. The dictionaries that the source keys by the position of a component are lists here.

Field elements are derived from the transcript by a parameter `derive`. The code's own choice is
`_derive_field`, that is `Pcs.deriveField sha256`; the verifier uses nothing else about it.

The prover of the module needs device kernels and is not modelled.
-/

namespace Verathos.Batched

open Merkle Pcs

def batchTranscriptDomain : Bytes :=
  asciiBytes "VERATHOS/PROOF_V3/GOLDILOCKS_MLPCS_BATCH/V1/TRANSCRIPT/SHA256"

def batchLayerDomain : Bytes :=
  asciiBytes "VERATHOS/PROOF_V3/GOLDILOCKS_MLPCS_BATCH/V1/LAYER/SHA256"

/-- The label `b"batchrlc"` of the combination coefficient. -/
def batchRlcLabel : Bytes := asciiBytes "batchrlc"

/-- The label `b"batchfold"` of the round challenges. -/
def batchFoldLabel : Bytes := asciiBytes "batchfold"

/-! ## Statements and proofs -/

structure BatchedComponentStatementV3 where
  tag : String
  statement : GoldilocksMultilinearPcsStatementV3
  commitment : Bytes
  point : List ℤ
  claimedValue : ℤ

/-- `GoldilocksBatchedComponentOpeningV3`. Its constructor checks nothing. -/
structure GoldilocksBatchedComponentOpeningV3 where
  tag : String
  roundPolynomials : List Round
  finalValue : ℤ
  baseOpening : ConstructedOpening

/-- `GoldilocksBatchedOpeningProofV3`. Its constructor checks nothing. -/
structure GoldilocksBatchedOpeningProofV3 where
  components : List GoldilocksBatchedComponentOpeningV3
  layerCommitments : List Bytes
  layerOpenings : List ConstructedOpening

section Order

variable {α : Type} (statementOf : α → GoldilocksMultilinearPcsStatementV3) (tagOf : α → String)

/-- The order of the keys `(-variable_count, tag)`. -/
def KeyLe (a b : α) : Prop :=
  (statementOf b).variableCount < (statementOf a).variableCount ∨
    (statementOf a).variableCount = (statementOf b).variableCount ∧ tagOf a ≤ tagOf b

instance : DecidableRel (KeyLe statementOf tagOf) := fun a b =>
  inferInstanceAs (Decidable ((statementOf b).variableCount < (statementOf a).variableCount ∨
    (statementOf a).variableCount = (statementOf b).variableCount ∧ tagOf a ≤ tagOf b))

def sortedOrder (entries : List α) : Result (List α) := do
  let order := entries.insertionSort (KeyLe statementOf tagOf)
  raiseIf (¬ (order.map tagOf).Nodup)
    (.proofV3Error "batched opening component tags collide")
  return order

end Order

def requireChain (statement : GoldilocksMultilinearPcsStatementV3) : Result Unit :=
  raiseIf (statement.cosetProfile ≠ .chain)
    (.proofV3Error "batched opening requires the chain coset profile")

def deg2At (evals : Round) (z : ℤ) : ℤ := recombine evals z

section Hash

variable (sha256 : Bytes → Digest)

/-- What `_batch_seed` absorbs for one entry. -/
def seedEntry (component : BatchedComponentStatementV3) : Result Bytes := do
  let commitment ← fixedBytes32 component.commitment "batch commitment"
  let point ← component.point.mapM (field · "batch point")
  let claimed ← field component.claimedValue "batch claim"
  return (component.statement.digest sha256).bytes ++ commitment.bytes ++ packI point.length ++
    point.flatMap fieldBytes ++ fieldBytes claimed

def batchSeed (order : List BatchedComponentStatementV3) (validatorNonce : Bytes) :
    Result Digest := do
  let entries ← order.mapM (seedEntry sha256)
  let nonce ← fixedBytes32 validatorNonce "validator_nonce"
  return sha256 (batchTranscriptDomain ++ packI order.length ++ entries.flatten ++ nonce.bytes)

def batchLayerBinding (seed : Digest) (layerIndex : ℕ) : Digest :=
  sha256 (batchLayerDomain ++ seed.bytes ++ packI layerIndex)

/-! ## The lockstep sumchecks -/

/-- What the verifier knows of one column of the batch: its statement, its share of the proof, the
round in which it joins and its coefficient in the combination. -/
structure Lane where
  component : BatchedComponentStatementV3
  wire : GoldilocksBatchedComponentOpeningV3
  join : ℕ
  power : ℤ

/-- The powers of the coefficient, from `acc` on. -/
def powersFrom (rho : ℤ) : ℕ → ℤ → List ℤ
  | 0, _ => []
  | count + 1, acc => acc :: powersFrom rho count (acc * rho % goldilocksModulus)

/-- The lanes of a batch, in the verifier's order. -/
def lanesOf (nMax : ℕ) (rho : ℤ) (order : List BatchedComponentStatementV3)
    (wires : List GoldilocksBatchedComponentOpeningV3) : List Lane :=
  (order.zip (wires.zip (powersFrom rho order.length 1))).map fun (component, wire, power) =>
    ⟨component, wire, nMax - component.statement.variableCount, power⟩

/-- `runnings[index]` and `local_round[index]`. -/
structure Running where
  /-- The value that the next round polynomial must sum to. -/
  value : ℤ
  localRound : ℕ
deriving DecidableEq

/-- The first loop over the columns in a round: check the round polynomial against the running
value, and return what it adds to the transcript. -/
def checkRound (roundIndex : ℕ) : Lane × Running → Result Bytes
  | (lane, running) =>
    if lane.join > roundIndex then .ok [] else
      match lane.wire.roundPolynomials[running.localRound]? with
      | none => .error (.proofV3VerificationError "batched opening round arity is wrong")
      | some (g0, g1, g2) => do
        let g0 ← field g0 "g0"
        let g1 ← field g1 "g1"
        let g2 ← field g2 "g2"
        raiseIf ((g0 + g1) % goldilocksModulus ≠ running.value)
          (.proofV3VerificationError "batched opening round sum is wrong")
        return fieldBytes g0 ++ fieldBytes g1 ++ fieldBytes g2

/-- The second loop over the columns in a round: the running value becomes the round polynomial at
the challenge. -/
def foldRound (roundIndex : ℕ) (challenge : ℤ) : Lane × Running → Result (Lane × Running)
  | (lane, running) =>
    if lane.join > roundIndex then .ok (lane, running) else do
      let (g0, g1, g2) ← getItem lane.wire.roundPolynomials running.localRound
      let g0 ← field g0 "round value"
      let g1 ← field g1 "round value"
      let g2 ← field g2 "round value"
      return (lane, ⟨deg2At (g0, g1, g2) challenge, running.localRound + 1⟩)

/-- The field element that is derived from a transcript, a label and an index. -/
abbrev Derive := Digest → Bytes → ℕ → Result ℤ

variable (derive : Derive)

/-- The round loop, with `remaining` rounds to go: the running values, the challenges and the
transcript. -/
def roundLoop (layerCommitments : List Bytes) :
    ℕ → ℕ → List (Lane × Running) → Digest → Result (List (Lane × Running) × List ℤ × Digest)
  | 0, _, runnings, transcript => .ok (runnings, [], transcript)
  | remaining + 1, roundIndex, runnings, transcript => do
    let blobs ← runnings.mapM (checkRound roundIndex)
    let transcript := sha256 (transcript.bytes ++ blobs.flatten)
    let challenge ← derive transcript batchFoldLabel roundIndex
    let runnings ← runnings.mapM (foldRound roundIndex challenge)
    let commitment ← getItem layerCommitments roundIndex
    let commitment ← fixedBytes32 commitment "batch layer commitment"
    let transcript := sha256 (transcript.bytes ++ commitment.bytes)
    let (runnings, challenges, transcript) ←
      roundLoop layerCommitments remaining (roundIndex + 1) runnings transcript
    return (runnings, challenge :: challenges, transcript)

/-- The product of the equality terms of one column. -/
def couplingProduct (challenges : List ℤ) (join : ℕ) (point : List ℤ) (variableCount : ℕ) : Result ℤ :=
  (List.range variableCount).foldlM
    (fun eqProduct j => do
      let c ← getItem challenges (join + j)
      let r ← getItem point j
      let r ← field r "batch point"
      return eqProduct * eqTermOf c r % goldilocksModulus)
    1

/-- The checks of one column after the rounds. -/
def checkCoupling (challenges : List ℤ) : Lane × Running → Result Unit
  | (lane, running) => do
    let variableCount := lane.component.statement.variableCount
    raiseIf (lane.wire.roundPolynomials.length ≠ variableCount)
      (.proofV3VerificationError "batched opening round count is wrong")
    let eqProduct ← couplingProduct challenges lane.join lane.component.point variableCount
    let final ← field lane.wire.finalValue "final value"
    raiseIf (running.value ≠ final * eqProduct % goldilocksModulus)
      (.proofV3VerificationError "batched opening final coupling fails")

/-- What the checks of the sumchecks leave for the queries. -/
structure Sumchecks where
  top : GoldilocksMultilinearPcsStatementV3
  lanes : List Lane
  seed : Digest
  rho : ℤ
  challenges : List ℤ
  transcript : Digest

/-- The verifier up to the couplings of the columns. -/
def verifySumchecks (proof : GoldilocksBatchedOpeningProofV3)
    (components : List BatchedComponentStatementV3) (validatorNonce : Bytes) :
    Result Sumchecks := do
  raiseIf (components = [])
    (.proofV3VerificationError "batched opening needs at least one component")
  components.forM fun component => do
    requireChain component.statement
    raiseIf (component.point.length ≠ component.statement.variableCount)
      (.proofV3VerificationError "batched opening point arity is wrong")
  let order ← sortedOrder (·.statement) (·.tag) components
  raiseIf (order.map (·.tag) ≠ proof.components.map (·.tag))
    (.proofV3VerificationError "batched opening component order is wrong")
  let top := (← getItem order 0).statement
  raiseIf (∃ component ∈ order, component.statement.queryCount ≠ top.queryCount)
    (.proofV3VerificationError "batched opening components use mixed PCS query counts")
  let nMax := top.variableCount
  raiseIf (proof.layerCommitments.length ≠ nMax ∨ proof.layerOpenings.length ≠ nMax)
    (.proofV3VerificationError "batched opening layer count is wrong")
  let seed ← batchSeed sha256 order validatorNonce
  let rho ← derive seed batchRlcLabel 0
  let lanes := lanesOf nMax rho order proof.components
  let runnings ← lanes.mapM fun lane => do
    let claim ← field lane.component.claimedValue "batch claim"
    return (lane, (⟨claim, 0⟩ : Running))
  let (runnings, challenges, transcript) ← roundLoop sha256 derive proof.layerCommitments
    nMax 0 runnings seed
  runnings.forM (checkCoupling challenges)
  return ⟨top, lanes, seed, rho, challenges, transcript⟩

/-! ## The queries -/

/-- The opening of one committed column at its query indices. -/
def verifyBase (lib : Bool) (positions : List ℕ) (lane : Lane) : Result Opened := do
  let statement := lane.component.statement
  let opening := lane.wire.baseOpening.opening
  let size := statement.codewordSize
  verifyGoldilocksMerkleMultiopeningReference sha256 lib lane.component.commitment opening
    (statement.layerBindingDigest sha256 0).bytes size 1 (layerQueryIndices positions size false)
  openedValues opening.indices opening.rows ∅

/-- The loop over `enumerate(proof.layer_openings, start=1)`, from layer `layerIndex` on. -/
def verifyBatchLayers (lib : Bool) (seed : Digest) (baseSize nMax : ℕ) (roots : List Bytes)
    (positions : List ℕ) : List ConstructedOpening → ℕ → Result (List Opened)
  | [], _ => .ok []
  | constructed :: rest, layerIndex => do
    let opening := constructed.opening
    let size := baseSize >>> layerIndex
    let root ← getItem roots (layerIndex - 1)
    verifyGoldilocksMerkleMultiopeningReference sha256 lib root opening
      (batchLayerBinding sha256 seed layerIndex).bytes size 1
      (layerQueryIndices positions size (layerIndex = nMax))
    let opened ← openedValues opening.indices opening.rows ∅
    let others ← verifyBatchLayers lib seed baseSize nMax roots positions rest (layerIndex + 1)
    return opened :: others

/-- `_rlc_at`: the combination of the columns that join at a layer, at one position. -/
def rlcAt (columns : List (Lane × Opened)) (layerIndex position : ℕ) : Result ℤ :=
  columns.foldlM
    (fun total (lane, opened) =>
      if lane.join ≠ layerIndex then .ok total else do
        let value ← getKey opened position
        return (total + lane.power * value) % goldilocksModulus)
    0

/-- The value of a parent layer at one position: the folded layer, if there is one, and the columns
that join there. -/
def parentValue (columns : List (Lane × Opened)) (layers : List Opened)
    (roundIndex position : ℕ) : Result ℤ :=
  if roundIndex = 0 then rlcAt columns 0 position else do
    let layer ← getItem layers (roundIndex - 1)
    let value ← getKey layer position
    let joined ← rlcAt columns roundIndex position
    return (value + joined) % goldilocksModulus

/-- The fold equation of one round at one position. -/
def checkBatchFold (top : GoldilocksMultilinearPcsStatementV3) (columns : List (Lane × Opened))
    (layers : List Opened) (challenges : List ℤ) (roundIndex position : ℕ) : Result Unit := do
  let size := top.codewordSize >>> roundIndex
  let half := size / 2
  let challenge ← getItem challenges roundIndex
  let foldedPosition := position % half
  let valuePos ← parentValue columns layers roundIndex foldedPosition
  let valueNeg ← parentValue columns layers roundIndex (foldedPosition + half)
  let x ← domainPoint sha256 top roundIndex foldedPosition
  let inverse ← goldilocksInv x
  let childLayer ← getItem layers roundIndex
  let child ← getKey childLayer (position % half)
  raiseIf (expectedFold challenge valuePos valueNeg inverse ≠ child)
    (.proofV3VerificationError "batched opening fold consistency fails")

/-- The combination of the final values. -/
def terminalValue (lanes : List Lane) : Result ℤ :=
  lanes.foldlM
    (fun terminal lane => do
      let final ← field lane.wire.finalValue "final value"
      return (terminal + lane.power * final) % goldilocksModulus)
    0

/-- The verifier from the query positions on. -/
def verifyQueries (lib : Bool) (proof : GoldilocksBatchedOpeningProofV3) (checked : Sumchecks) :
    Result Unit := do
  let top := checked.top
  let nMax := top.variableCount
  let baseSize := top.codewordSize
  let positions := queryPositions sha256 checked.transcript baseSize top.queryCount
  let bases ← checked.lanes.mapM (verifyBase sha256 lib positions)
  let columns := checked.lanes.zip bases
  let layers ← verifyBatchLayers sha256 lib checked.seed baseSize nMax proof.layerCommitments
    positions proof.layerOpenings 1
  (List.range nMax).forM fun roundIndex =>
    positions.forM (checkBatchFold sha256 top columns layers checked.challenges roundIndex)
  let terminal ← terminalValue checked.lanes
  let finalLayer ← getItem layers (nMax - 1)
  raiseIf (∃ index ∈ finalLayer.keys, finalLayer.lookup index ≠ some terminal)
    (.proofV3VerificationError "batched opening terminal is not the RLC constant")

end Hash

/-- The exception clauses of the verifier. -/
def exceptBatchMalformed {α : Type} : Result α → Result α
  | .error (.proofV3Error _) =>
    .error (.proofV3VerificationError "batched opening proof is malformed")
  | .error (.builtin name) =>
    if name ∈ ["IndexError", "KeyError", "TypeError", "ValueError"] then
      .error (.proofV3VerificationError "batched opening proof is malformed")
    else .error (.builtin name)
  | result => result

@[simp]
theorem exceptBatchMalformed_eq_ok {α : Type} {x : Result α} {a : α} :
    exceptBatchMalformed x = .ok a ↔ x = .ok a := by
  rcases x with (_ | _ | name) | _
  · simp [exceptBatchMalformed]
  · simp [exceptBatchMalformed]
  · simp only [exceptBatchMalformed]
    split_ifs <;> simp
  · simp [exceptBatchMalformed]

def verifyGoldilocksBatchedOpeningV3 (sha256 : Bytes → Digest) (derive : Derive) (lib : Bool)
    (proof : GoldilocksBatchedOpeningProofV3) (components : List BatchedComponentStatementV3)
    (validatorNonce : Bytes) : Result Unit :=
  exceptBatchMalformed do
    let checked ← verifySumchecks sha256 derive proof components validatorNonce
    verifyQueries sha256 lib proof checked

end Verathos.Batched
