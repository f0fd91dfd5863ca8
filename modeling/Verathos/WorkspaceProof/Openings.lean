import Verathos.Lib.Chains
import Verathos.WorkspaceProof.Trees

/-!
# The checks of workspace openings

A translation of the checks of openings of `neurons/capacity_audit_v2.py`: `_strict_merkle_path`,
`_verify_q_opening`, `_packed_state_block_i8` and `_transition_bands`.

The openings are JSON values. Whether the number of a text with a fraction or an exponent is a given
integer is a parameter `floatIs`, of which nothing is assumed.

The messages that the checks of accepted openings hash are `qOpeningMessages` and `bandMessages`.
-/

namespace Verathos.WorkspaceProof

def maxMatrixDim : ℕ := 1 <<< 17

/-- `CapacityGemmV2Context`, by the fields that the openings are checked against. -/
structure CapacityGemmV2Context where
  roundRoot : Digest
  matrixDim : ℕ
  blockSize : ℕ
  rowBlock : ℕ
  columnBlock : ℕ
  transitionMixRounds : ℕ
  stateRoot : Bytes
  two_le_matrixDim : 2 ≤ matrixDim
  matrixDim_le : matrixDim ≤ maxMatrixDim
  two_le_blockSize : 2 ≤ blockSize
  blockSize_le : blockSize ≤ matrixDim
  blockSize_and : blockSize &&& (blockSize - 1) = 0
  blockSize_dvd : blockSize ∣ matrixDim
  rowBlock_lt : rowBlock < matrixDim / blockSize
  columnBlock_lt : columnBlock < matrixDim / blockSize
  transitionMixRounds_lt : transitionMixRounds < 2 ^ 16
  /-- A transition workspace has a state root of 32 bytes, another one has none. -/
  length_stateRoot : stateRoot.length = if transitionMixRounds = 0 then 0 else 32

namespace CapacityGemmV2Context

/-- The number of blocks of a row. -/
def blocksPerRow (context : CapacityGemmV2Context) : ℕ := context.matrixDim / context.blockSize

def blockIndex (context : CapacityGemmV2Context) : ℕ :=
  context.rowBlock * context.blocksPerRow + context.columnBlock

end CapacityGemmV2Context

/-! ## The block of Q -/

def integer (value : Json) (fieldName : String) (minimum maximum : ℤ) : Opened ℤ :=
  match value with
  | .int integer => do
    failIf (integer < minimum ∨ integer > maximum)
      (.formatError (fieldName ++ " is outside the allowed range"))
    return integer
  | _ => .error (.formatError (fieldName ++ " must be an integer"))

/-- `tuple(value)`; `none` is a `TypeError`. -/
def tupleOf : Json → Option (List Json)
  | .arr items => some items
  | .str text => some (text.toList.map fun c => .str (String.singleton c))
  | .obj members => some ((Json.dict members).entries.map fun entry => .str entry.1)
  | _ => none

/-- `isinstance(value, str)`. -/
def isText : Json → Bool
  | .str _ => true
  | _ => false

/-- `tuple(tuple(row) for row in q_block_i32)`. -/
def tupleRows (qBlockI32 : Json) : Opened (List (List Json)) :=
  match (tupleOf qBlockI32).bind fun rows => rows.mapM tupleOf with
  | some rows => .ok rows
  | none => .error (.formatError "Q block must be a matrix")

def strictI32Block (qBlockI32 : Json) (blockSize : ℕ) : Opened (List (List ℤ)) := do
  failIf (isText qBlockI32) (.formatError "Q block must be a matrix")
  let rows ← tupleRows qBlockI32
  failIf (rows.length ≠ blockSize ∨ ∃ row ∈ rows, row.length ≠ blockSize)
    (.formatError "Q block shape does not match block_size")
  rows.mapM fun row => row.mapM fun value =>
    integer value "Q block value" (-(1 <<< 31)) ((1 <<< 31) - 1)

/-! ## Paths -/

def treeHeight (numLeaves : ℕ) : ℕ := FlatMerkle.height numLeaves

/-- `isinstance(value, Mapping) and set(value) == {…}`. -/
def mappingOf (fields : Finset String) : Json → Option (OrderedDict String Json)
  | .obj members =>
    let mapping := Json.dict members
    if (mapping.entries.map Prod.fst).toFinset = fields then some mapping else none
  | _ => none

/-- `leaf_index == expected_leaf`, of a value that is no boolean. -/
def isLeafIndex (floatIs : List Char → ℤ → Bool) (expectedLeaf : ℕ) : Option Json → Bool
  | some (.int n) => n = expectedLeaf
  | some (.float text) => floatIs text expectedLeaf
  | _ => false

/-- The checks of an entry of the siblings. -/
def strictSibling (nodeIndex : ℕ) : Json → Opened (Bytes × Bool)
  | .arr [.str digestHex, isLeft] => do
    failIf (digestHex.length ≠ 64) (.formatError "Merkle sibling digest is malformed")
    match isLeft with
    | .bool isLeft =>
      match Hex.ofText digestHex with
      | some digest =>
        failIf (isLeft ≠ decide (nodeIndex % 2 = 1))
          (.formatError "Merkle sibling direction does not match")
        return (digest, isLeft)
      | none => .error (.formatError "Merkle sibling digest is malformed")
    | _ => .error (.formatError "Merkle sibling direction is malformed")
  | .arr [_, _] => .error (.formatError "Merkle sibling digest is malformed")
  | _ => .error (.formatError "Merkle sibling entry is malformed")

/-- The loop over the siblings. -/
def strictSiblings : ℕ → List Json → Opened (List (Bytes × Bool))
  | _, [] => .ok []
  | nodeIndex, item :: items => do
    let sibling ← strictSibling nodeIndex item
    let siblings ← strictSiblings (nodeIndex / 2) items
    return sibling :: siblings

def strictMerklePath (floatIs : List Char → ℤ → Bool) (pathData : Option Json)
    (expectedLeaf numLeaves : ℕ) : Opened MerklePath :=
  match pathData.bind (mappingOf {"leaf_index", "siblings"}) with
  | none => .error (.formatError "Merkle path fields are not canonical")
  | some mapping => do
    failIf (isLeafIndex floatIs expectedLeaf (mapping.get "leaf_index") = false)
      (.formatError "Merkle path leaf index does not match")
    match mapping.get "siblings" with
    | some (.arr siblingsData) =>
      failIf (siblingsData.length ≠ treeHeight numLeaves)
        (.formatError "Merkle path length does not match the tree")
      let siblings ← strictSiblings expectedLeaf siblingsData
      return ⟨expectedLeaf, siblings⟩
    | _ => .error (.formatError "Merkle path length does not match the tree")

section Sha256

variable (sha256 : Bytes → Digest) (floatIs : List Char → ℤ → Bool)

def verifyQOpening (context : CapacityGemmV2Context) (qBlockI32 : Json) (qMerklePath : Option Json) :
    Opened (List (List ℤ) × Digest) := do
  let qBlock ← strictI32Block qBlockI32 context.blockSize
  let path ← strictMerklePath floatIs qMerklePath context.blockIndex
    (context.blocksPerRow * context.blocksPerRow)
  let leafHash ← workspaceQBlockHashI32 sha256 qBlock
  failIf (verifyWorkspaceMerklePath sha256 context.roundRoot.bytes leafHash path = false)
    (.verificationError "Q block Merkle path did not verify")
  return (qBlock, leafHash)

/-! ## The blocks of A and B -/

/-- The blocks of A and B of a state block. -/
structure StateBlock where
  aBlock : List (List Int8)
  bBlock : List (List Int8)
deriving DecidableEq

/-- The row of an array of bytes, as signed integers. -/
def signedRow (raw : Bytes) (blockSize row : ℕ) : List Int8 :=
  ((raw.drop (row * blockSize)).take blockSize).map UInt8.toInt8

/-- The even rows of the reshaped array are those of A, the odd ones those of B. -/
def unpackStateBlock (blockSize : ℕ) (raw : Bytes) : StateBlock where
  aBlock := (List.range blockSize).map fun row => signedRow raw blockSize (2 * row)
  bBlock := (List.range blockSize).map fun row => signedRow raw blockSize (2 * row + 1)

/-- `"base64:"`. -/
def base64Prefix : List Char := "base64:".toList

def packedStateBlockI8 (value : Option Json) (blockSize : ℕ) : Opened StateBlock :=
  match value with
  | some (.str text) => do
    failIf (base64Prefix.isPrefixOf text.toList = false)
      (.formatError "packed state block must use canonical base64")
    let encoded := text.toList.drop base64Prefix.length
    match Base64.decode encoded with
    | some raw =>
      failIf (Base64.encode raw ≠ encoded) (.formatError "packed state block is noncanonical")
      failIf (raw.length ≠ 2 * blockSize * blockSize)
        (.formatError "packed state block has the wrong length")
      return unpackStateBlock blockSize raw
    | none => .error (.formatError "packed state block is invalid")
  | _ => .error (.formatError "packed state block must use canonical base64")

def requiredTransitionStateBlocks (context : CapacityGemmV2Context) : List ℕ :=
  if context.transitionMixRounds = 0 then []
  else
    let rowBlocks := (Finset.range context.blocksPerRow).image fun column =>
      context.rowBlock * context.blocksPerRow + column
    let columnBlocks := (Finset.range context.blocksPerRow).image fun row =>
      row * context.blocksPerRow + context.columnBlock
    (rowBlocks ∪ columnBlocks).sort (· ≤ ·)

/-- The checks of a state opening before its hash: the block and the path. -/
def readStateOpening (context : CapacityGemmV2Context) (opening : Json) (expectedIndex : ℕ) :
    Opened (StateBlock × MerklePath) :=
  match mappingOf {"block_index", "state_block_i8", "merkle_path"} opening with
  | none => .error (.formatError "state opening fields are not canonical")
  | some mapping =>
    match mapping.get "block_index" with
    | some (.int blockIndex) => do
      failIf (blockIndex ≠ expectedIndex)
        (.verificationError "state openings do not match the exact required block set")
      let block ← packedStateBlockI8 (mapping.get "state_block_i8") context.blockSize
      let path ← strictMerklePath floatIs (mapping.get "merkle_path") expectedIndex
        (context.blocksPerRow * context.blocksPerRow)
      return (block, path)
    | _ => .error (.formatError "state block index must be an integer")

/-- The body of the loop over the openings: the block under its index. -/
def openStateBlock (context : CapacityGemmV2Context) (opening : Json) (expectedIndex : ℕ) :
    Opened (ℕ × StateBlock) := do
  let (block, path) ← readStateOpening floatIs context opening expectedIndex
  let leafHash ← workspaceStateBlockHashI8 sha256 block.aBlock block.bBlock
  failIf (verifyWorkspaceStateMerklePath sha256 context.stateRoot leafHash path = false)
    (.verificationError "state Merkle path did not verify")
  return (expectedIndex, block)

/-- `opened[block_index]`. -/
def openedAt (opened : OrderedDict ℕ StateBlock) (blockIndex : ℕ) : Opened StateBlock :=
  match opened.get blockIndex with
  | some block => .ok block
  | none => .error (.builtin "KeyError")

/-- Blocks next to each other. -/
def besides (blockSize : ℕ) (blocks : List (List (List Int8))) : List (List Int8) :=
  (List.range blockSize).map fun row => blocks.flatMap fun block => block.getD row []

/-- The end of `_transition_bands`: the bands of the opened blocks. -/
def bandsOf (context : CapacityGemmV2Context) (opened : OrderedDict ℕ StateBlock) :
    Opened (List (List Int8) × List (List Int8)) := do
  let xBlocks ← (List.range context.blocksPerRow).mapM fun blockColumn =>
    openedAt opened (context.rowBlock * context.blocksPerRow + blockColumn)
  let wBlocks ← (List.range context.blocksPerRow).mapM fun blockRow =>
    openedAt opened (blockRow * context.blocksPerRow + context.columnBlock)
  return (besides context.blockSize (xBlocks.map StateBlock.aBlock),
    (wBlocks.map StateBlock.bBlock).flatten)

def transitionBands (context : CapacityGemmV2Context) (stateOpenings : Json) :
    Opened (List (List Int8) × List (List Int8)) :=
  match stateOpenings with
  | .arr openings => do
    let expectedIndices := requiredTransitionStateBlocks context
    failIf (openings.length ≠ expectedIndices.length)
      (.verificationError "state openings do not match the exact required block set")
    let opened ← (openings.zip expectedIndices).mapM fun (opening, expectedIndex) =>
      openStateBlock sha256 floatIs context opening expectedIndex
    bandsOf context (.ofList opened)
  | _ => .error (.formatError "state openings must be a sequence")

/-! ## What the checks hash -/

/-- The message of a node above the current one. -/
def nodeMessage (tag : Bytes) (current : Digest) (step : Bytes × Bool) : Bytes :=
  if step.2 then tag ++ step.1 ++ current.bytes else tag ++ current.bytes ++ step.1

/-- The messages of a block, of its leaf and of the nodes above it. -/
def openingMessages (blockTag leafTag nodeTag bytes : Bytes) (path : MerklePath) : List Bytes :=
  (blockTag ++ bytes) :: (leafTag ++ (sha256 (blockTag ++ bytes)).bytes) ::
    HashChain.messages sha256 (nodeMessage nodeTag)
      (sha256 (leafTag ++ (sha256 (blockTag ++ bytes)).bytes)) path.siblings

/-- The messages that `_verify_q_opening` hashes for an opening that it accepts. -/
def qOpeningMessages (context : CapacityGemmV2Context) (qBlockI32 : Json)
    (qMerklePath : Option Json) : Opened (List Bytes) := do
  let qBlock ← strictI32Block qBlockI32 context.blockSize
  let path ← strictMerklePath floatIs qMerklePath context.blockIndex
    (context.blocksPerRow * context.blocksPerRow)
  let bytes ← qBlockBytes qBlock
  return openingMessages sha256 workspaceQBlockTag workspaceQLeafTag workspaceQNodeTag bytes path

/-- The messages that are hashed for one state opening. -/
def stateOpeningMessages (context : CapacityGemmV2Context) (opening : Json) (expectedIndex : ℕ) :
    Opened (List Bytes) := do
  let (block, path) ← readStateOpening floatIs context opening expectedIndex
  return openingMessages sha256 (fixedTag workspaceStateBlockTag) (fixedTag workspaceStateLeafTag)
    (fixedTag workspaceStateNodeTag) (stateBlockBytes block.aBlock block.bBlock) path

/-- The messages that `_transition_bands` hashes for openings that it accepts. -/
def bandMessages (context : CapacityGemmV2Context) (stateOpenings : Json) : Opened (List Bytes) :=
  match stateOpenings with
  | .arr openings => do
    let messages ← (openings.zip (requiredTransitionStateBlocks context)).mapM
      fun (opening, expectedIndex) =>
        stateOpeningMessages sha256 floatIs context opening expectedIndex
    return messages.flatten
  | _ => .ok []

end Sha256

end Verathos.WorkspaceProof
