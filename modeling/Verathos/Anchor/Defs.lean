import Verathos.Basic
import Verathos.Lib.OddMerkle

/-!
# Execution anchors

A translation of `execution_anchor.py`: the two-level Merkle commitment to the rows of a runtime
stage, its openings by lanes, and the streaming accumulator of the row hashes.

A stage identifier is the byte string of its ASCII text. The Merkle tree of `zkllm` is outside the
repository. It is a parameter, a `MerkleLibrary`, and `MerkleLibrary.OddDuplicate` states what the
code relies on: it is the odd-duplicate tree. `hash_leaf` and `hash_node` are arbitrary.

* An object whose constructor checks its fields is a structure with the checked facts as fields, and
  `…new` is the constructor.
-/

namespace Verathos.Anchor

/-! ## Stage identifiers -/

/-- A lower-case letter or a digit. -/
def isAlphanumeric (c : UInt8) : Bool := (0x61 ≤ c && c ≤ 0x7a) || (0x30 ≤ c && c ≤ 0x39)

/-- A letter, a digit, or one of underscore, dot, colon, slash and hyphen. -/
def isIdentifierCharacter (c : UInt8) : Bool :=
  isAlphanumeric c || c = 0x5f || c = 0x2e || c = 0x3a || c = 0x2f || c = 0x2d

/-- `_IDENTIFIER.fullmatch(stage_id) is not None`. -/
def isIdentifier : Bytes → Bool
  | [] => false
  | first :: rest => isAlphanumeric first && rest.all isIdentifierCharacter && rest.length ≤ 95

/-- A stage identifier that `_stage` accepts. -/
structure StageId where
  text : Bytes
  valid : isIdentifier text = true
deriving DecidableEq

def stage (text : Bytes) : Result StageId :=
  if h : isIdentifier text = true then .ok ⟨text, h⟩
  else .error (.proofV3Error "execution anchor stage id is malformed")

def defaultLaneBytes : ℕ := 2048

def compactGdnLaneBytes : ℕ := 256

def compactGdnSuffixes : List Bytes :=
  [asciiBytes ".gdn_qkvz_output", asciiBytes ".gdn_ba_output", asciiBytes ".gdn_o_input"]

/-- `execution_anchor_lane_bytes_v3`. -/
def laneBytes (stageId : StageId) : ℕ :=
  if compactGdnSuffixes.any fun suffix => suffix.isSuffixOf stageId.text then compactGdnLaneBytes
  else defaultLaneBytes

theorem laneBytes_cases (stageId : StageId) :
    laneBytes stageId = compactGdnLaneBytes ∨ laneBytes stageId = defaultLaneBytes := by
  unfold laneBytes
  split_ifs
  · exact .inl rfl
  · exact .inr rfl

theorem laneBytes_pos (stageId : StageId) : 0 < laneBytes stageId := by
  rcases laneBytes_cases stageId with h | h <;> rw [h] <;> decide

/-! ## The Merkle library -/

/-- `zkllm.types.MerklePath`: a leaf index, and the siblings with whether they are on the left. -/
structure MerklePath where
  leafIndex : ℕ
  siblings : List (Digest × Bool)
deriving DecidableEq

/-- What the code uses of `zkllm.crypto.merkle`. -/
structure MerkleLibrary where
  hashLeaf : Bytes → Digest
  hashNode : Digest → Digest → Digest
  Tree : Type
  fromLeafHashes : List Digest → Tree
  root : Tree → Digest
  numLeaves : Tree → ℕ
  getPath : Tree → ℕ → MerklePath
  verifyMerklePathWithLeafHash : Digest → Digest → MerklePath → Bool

/-- The direction bits of a path of this length: the sibling is on the left of an odd node. -/
def directions (leafIndex length : ℕ) : List Bool := (List.range length).map leafIndex.testBit

/-- A path with siblings and the directions of its index. -/
def MerklePath.ofSiblings (leafIndex : ℕ) (siblings : List Digest) : MerklePath :=
  ⟨leafIndex, siblings.zip (directions leafIndex siblings.length)⟩

/-- The library is the odd-duplicate tree. -/
structure MerkleLibrary.OddDuplicate (lib : MerkleLibrary) : Prop where
  /-- The root is reached by combining neighbours, and a last node without neighbour with itself. -/
  root_fromLeafHashes : ∀ leaves ≠ [],
    OddMerkle.root lib.hashNode leaves = some (lib.root (lib.fromLeafHashes leaves))
  numLeaves_fromLeafHashes : ∀ leaves, lib.numLeaves (lib.fromLeafHashes leaves) = leaves.length
  /-- The path of a leaf has its siblings, which are on the left of odd nodes. -/
  getPath_fromLeafHashes : ∀ leaves index, index < leaves.length →
    lib.getPath (lib.fromLeafHashes leaves) index =
      .ofSiblings index (OddMerkle.path lib.hashNode leaves index)
  /-- A path with the directions of its index is verified by climbing to the root. -/
  verify_ofSiblings : ∀ root leaf index siblings,
    lib.verifyMerklePathWithLeafHash root leaf (.ofSiblings index siblings) = true ↔
      OddMerkle.climbPath lib.hashNode leaf index siblings = root

/-! ## Rows -/

/-- The `while` loop of `execution_anchor_row_leaf_from_chunks_v3` ends with one node. -/
def rowLeafFromChunks (hashNode : Digest → Digest → Digest) (chunkHashes : List Digest) :
    Result Digest := do
  raiseIf (chunkHashes = [])
    (.proofV3Error "execution anchor row chunk hashes are malformed")
  getItem (OddMerkle.reduce hashNode chunkHashes) 0

/-- `data[offset : offset + size]` for the offsets `0`, `size`, `2 * size`, … -/
def chunks (size : ℕ) (data : Bytes) : List Bytes :=
  (List.range ((data.length + size - 1) / size)).map fun i => (data.drop (i * size)).take size

/-- The row with zero bytes up to a multiple of the lane width. -/
def padded (size : ℕ) (row : Bytes) : Bytes :=
  row ++ List.replicate ((size - row.length % size) % size) 0

/-- The lanes of a row. -/
def lanes (stageId : StageId) (row : Bytes) : List Bytes :=
  chunks (laneBytes stageId) (padded (laneBytes stageId) row)

/-- `execution_anchor_row_leaf_hash_v3`. -/
def rowLeafHash (lib : MerkleLibrary) (stageId : StageId) (rowIndex rowWidth : ℕ) (row : Bytes) :
    Result Digest := do
  raiseIf (¬ (rowIndex < 2 ^ 32 ∧ 0 < rowWidth ∧ rowWidth < 2 ^ 24 ∧ row.length = rowWidth))
    (.proofV3Error "execution anchor row is malformed")
  rowLeafFromChunks lib.hashNode ((lanes stageId row).map lib.hashLeaf)

/-! ## Commitments and openings -/

/-- `ExecutionAnchorCommitmentV3`. -/
structure ExecutionAnchorCommitment where
  stageId : StageId
  rowCount : ℕ
  rowWidth : ℕ
  root : Digest
  rowCount_pos : 0 < rowCount
  rowCount_lt : rowCount < 2 ^ 32
  rowWidth_pos : 0 < rowWidth
  rowWidth_lt : rowWidth < 2 ^ 24
  root_ne_zero : root ≠ Digest.zero
deriving DecidableEq

/-- The constructor of `ExecutionAnchorCommitmentV3`. -/
def ExecutionAnchorCommitment.new (stageId : StageId) (rowCount rowWidth : ℕ) (root : Digest) :
    Result ExecutionAnchorCommitment :=
  if h : 0 < rowCount ∧ rowCount < 2 ^ 32 ∧ 0 < rowWidth ∧ rowWidth < 2 ^ 24 ∧
      root ≠ Digest.zero then
    .ok ⟨stageId, rowCount, rowWidth, root, h.1, h.2.1, h.2.2.1, h.2.2.2.1, h.2.2.2.2⟩
  else .error (.proofV3Error "execution anchor commitment is malformed")

/-- `ExecutionAnchorLaneOpeningV3`. -/
structure ExecutionAnchorLaneOpening where
  rowIndex : ℕ
  laneIndex : ℕ
  lane : Bytes
  laneSiblingHashes : List Digest
  rowSiblingHashes : List Digest
  rowIndex_lt : rowIndex < 2 ^ 32
  laneIndex_lt : laneIndex < 2 ^ 24
  lane_length : lane.length = compactGdnLaneBytes ∨ lane.length = defaultLaneBytes
  laneSiblingHashes_le : laneSiblingHashes.length ≤ 32
  rowSiblingHashes_le : rowSiblingHashes.length ≤ 32
deriving DecidableEq

/-- The constructor of `ExecutionAnchorLaneOpeningV3`. -/
def ExecutionAnchorLaneOpening.new (rowIndex laneIndex : ℕ) (lane : Bytes)
    (laneSiblingHashes rowSiblingHashes : List Digest) : Result ExecutionAnchorLaneOpening :=
  if h : rowIndex < 2 ^ 32 ∧ laneIndex < 2 ^ 24 ∧
      (lane.length = compactGdnLaneBytes ∨ lane.length = defaultLaneBytes) then
    if hlane : laneSiblingHashes.length ≤ 32 then
      if hrow : rowSiblingHashes.length ≤ 32 then
        .ok ⟨rowIndex, laneIndex, lane, laneSiblingHashes, rowSiblingHashes, h.1, h.2.1, h.2.2, hlane,
          hrow⟩
      else .error (.proofV3Error "execution anchor row sibling path is malformed")
    else .error (.proofV3Error "execution anchor lane sibling path is malformed")
  else .error (.proofV3Error "execution anchor lane opening is malformed")

section Library

variable (lib : MerkleLibrary)

/-- `build_execution_anchor_tree_v3`. -/
def buildExecutionAnchorTree (stageId : StageId) (rows : List Bytes) :
    Result (ExecutionAnchorCommitment × lib.Tree) := do
  raiseIf (rows = []) (.proofV3Error "execution anchor rows are malformed")
  let width := (rows.headD []).length
  let leaves ← rows.zipIdx.mapM fun (row, index) => rowLeafHash lib stageId index width row
  let tree := lib.fromLeafHashes leaves
  let commitment ← ExecutionAnchorCommitment.new stageId rows.length width (lib.root tree)
  return (commitment, tree)

/-- `build_execution_anchor_lane_opening_v3`. -/
def buildExecutionAnchorLaneOpening (commitment : ExecutionAnchorCommitment) (rowIndex : ℕ)
    (row : Bytes) (rowTree : lib.Tree) (laneIndex : ℕ) : Result ExecutionAnchorLaneOpening := do
  raiseIf (¬ (lib.root rowTree = commitment.root ∧ lib.numLeaves rowTree = commitment.rowCount ∧
      rowIndex < commitment.rowCount ∧ row.length = commitment.rowWidth))
    (.proofV3Error "execution anchor lane source is malformed")
  let rowLanes := lanes commitment.stageId row
  match rowLanes[laneIndex]? with
  | none => .error (.proofV3Error "execution anchor lane index is out of range")
  | some lane =>
    let laneTree := lib.fromLeafHashes (rowLanes.map lib.hashLeaf)
    let lanePath := lib.getPath laneTree laneIndex
    let rowPath := lib.getPath rowTree rowIndex
    ExecutionAnchorLaneOpening.new rowIndex laneIndex lane (lanePath.siblings.map Prod.fst)
      (rowPath.siblings.map Prod.fst)

/-- The loop over the lane siblings of `verify_execution_anchor_lane_v3`. -/
def climbLanes (hashNode : Digest → Digest → Digest) (laneIndex : ℕ) (leaf : Digest)
    (siblings : List Digest) : Digest :=
  siblings.zipIdx.foldl (fun rowLeaf (sibling, level) =>
    if laneIndex.testBit level then hashNode sibling rowLeaf else hashNode rowLeaf sibling) leaf

/-- The number of lanes of a row of the commitment. -/
def laneCount (commitment : ExecutionAnchorCommitment) : ℕ :=
  (commitment.rowWidth + laneBytes commitment.stageId - 1) / laneBytes commitment.stageId

/-- `verify_execution_anchor_lane_v3`. -/
def verifyExecutionAnchorLane (commitment : ExecutionAnchorCommitment)
    (opening : ExecutionAnchorLaneOpening) : Result Bytes := do
  let width := laneBytes commitment.stageId
  raiseIf (opening.rowIndex ≥ commitment.rowCount ∨ opening.laneIndex ≥ laneCount commitment ∨
      opening.lane.length ≠ width ∨
      opening.laneSiblingHashes.length ≠ (laneCount commitment - 1).size ∨
      opening.rowSiblingHashes.length ≠ (commitment.rowCount - 1).size)
    (.proofV3VerificationError "execution anchor lane opening geometry is malformed")
  let laneDataLen := min width (commitment.rowWidth - opening.laneIndex * width)
  raiseIf (opening.lane.drop laneDataLen ≠ List.replicate (width - laneDataLen) 0)
    (.proofV3VerificationError "execution anchor final lane has non-canonical padding")
  let rowLeaf := climbLanes lib.hashNode opening.laneIndex (lib.hashLeaf opening.lane)
    opening.laneSiblingHashes
  let rowPath : MerklePath := ⟨opening.rowIndex, opening.rowSiblingHashes.zipIdx.map
    fun (sibling, level) => (sibling, opening.rowIndex.testBit level)⟩
  raiseIf (lib.verifyMerklePathWithLeafHash commitment.root rowLeaf rowPath = false)
    (.proofV3VerificationError "execution anchor lane does not match the pre-nonce root")
  return opening.lane.take laneDataLen

end Library

end Verathos.Anchor
