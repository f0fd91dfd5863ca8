import Verathos.Merkle.Compiled

/-!
# The multi-opening verifier

`verify_goldilocks_merkle_multiopening_reference`, and the constructor and the opening routine
that share its sibling schedule. The argument `lib` says whether the compiled helper is loaded:
with it, the schedule and the reconstruction come from `Verathos.Merkle.Compiled`; without it,
from the Python loops.
-/

namespace Verathos.Merkle

def expectedSiblingCoordinates (lib : Bool) (leafCount : ℕ) (indices : List ℕ) :
    List (ℕ × ℕ) :=
  if lib then
    (Compiled.siblingCoordinates leafCount indices).getD (siblingCoordinatesPython leafCount indices)
  else siblingCoordinatesPython leafCount indices

/-- The coordinates of the carried nodes, in order. -/
def GoldilocksMerkleMultiOpeningReference.coordinates
    (opening : GoldilocksMerkleMultiOpeningReference) : List (ℕ × ℕ) :=
  opening.siblings.map fun node => (node.level, node.index)

def GoldilocksMerkleMultiOpeningReference.postInit (lib : Bool)
    (opening : GoldilocksMerkleMultiOpeningReference) :
    Result GoldilocksMerkleMultiOpeningReference := do
  raiseIf (opening.abiId ≠ goldilocksMerkleReferenceAbiV3)
    (.proofV3Error "Merkle multiproof ABI is unsupported")
  let leafCount ← Merkle.leafCount opening.leafCount
  let leafWidth ← Merkle.leafWidth opening.leafWidth
  let indices ← Merkle.indices opening.indices leafCount "Merkle multiproof indices"
  let rows ← fieldRows opening.rows "Merkle multiproof rows" (some indices.length) (some leafWidth)
  let siblings ← materializeIterable opening.siblings "Merkle multiproof siblings" maxLeafCount
  raiseIf (opening.coordinates ≠ expectedSiblingCoordinates lib leafCount indices)
    (.proofV3Error
      "Merkle multiproof sibling coordinates are incomplete, duplicate, or reordered")
  return { opening with leafCount, leafWidth, indices, rows, siblings }

def GoldilocksMerkleTreeReference.open (lib : Bool) (tree : GoldilocksMerkleTreeReference)
    (indices : List ℕ) : Result GoldilocksMerkleMultiOpeningReference := do
  let selected ← Merkle.indices indices tree.leafCount "Merkle opening indices"
  let siblings ← (expectedSiblingCoordinates lib tree.leafCount selected).mapM
    fun (level, index) => do
      let nodes ← getItem tree.levels level
      let digest ← getItem nodes index
      GoldilocksMerkleSiblingReference.postInit { level, index, digest }
  let rows ← selected.mapM (getItem tree.rows)
  GoldilocksMerkleMultiOpeningReference.postInit lib
    { bindingDigest := tree.bindingDigest, leafCount := tree.leafCount,
      leafWidth := tree.leafWidth, indices := selected, rows, siblings }

/-! ## The Python reconstruction -/

/-- The dictionary `current` of the reconstruction: digests by node index. -/
abbrev Nodes := Finmap fun _ : ℕ => Digest

/-- `by_level.get(level, ())`. -/
def byLevel (coordinates : List (ℕ × ℕ)) (level : ℕ) : List ℕ :=
  (coordinates.filter (·.1 = level)).map (·.2)

/-- Store this level's sibling digests in `current`, advancing `sibling_offset`. -/
def mergeSiblings (siblingDigests : List Digest) : List ℕ → Nodes → ℕ → Result (Nodes × ℕ)
  | [], current, siblingOffset => .ok (current, siblingOffset)
  | siblingIndex :: rest, current, siblingOffset => do
    let digest ← getItem siblingDigests siblingOffset
    mergeSiblings siblingDigests rest (current.insert siblingIndex digest) (siblingOffset + 1)

/-- Hash the children of every listed parent. -/
def hashParents (combine : ℕ → Digest → Digest → Digest) (current : Nodes) :
    List ℕ → Nodes → Result Nodes
  | [], parents => .ok parents
  | parentIndex :: rest, parents =>
    match current.lookup (parentIndex * 2), current.lookup (parentIndex * 2 + 1) with
    | some left, some right =>
      hashParents combine current rest
        (parents.insert parentIndex (combine parentIndex left right))
    | _, _ => .error (.proofV3VerificationError "Merkle opening is missing a sibling node")

section Reconstruct

variable (sha256 : Bytes → Digest)

/-- The level loop of the Python reconstruction. -/
def reconstructLoop (nodePrefix : Bytes) (coordinates : List (ℕ × ℕ))
    (siblingDigests : List Digest) : ℕ → ℕ → Nodes → ℕ → Result (Nodes × ℕ)
  | 0, _, current, siblingOffset => .ok (current, siblingOffset)
  | remaining + 1, level, current, siblingOffset => do
    let activeIndices := current.keys
    let (merged, siblingOffset) ←
      mergeSiblings siblingDigests (byLevel coordinates level) current siblingOffset
    let parents ← hashParents
      (fun parentIndex left right => sha256 (nodePrefix ++ packI (level + 1) ++ packI parentIndex ++
        left.bytes ++ right.bytes))
      merged (activeIndices.image (· / 2)).sort ∅
    reconstructLoop nodePrefix coordinates siblingDigests remaining (level + 1) parents
      siblingOffset

/-- The check that every width-1 row passes before its value is hashed. -/
def checkRowW1 (row : List ℤ) : Result ℤ := do
  raiseIf (row.length ≠ 1) (.proofV3VerificationError "Merkle opening row width is unexpected")
  let value ← getItem row 0
  raiseIf (¬ Canonical value)
    (.proofV3VerificationError "Merkle opening row value is not canonical")
  return value

/-- The digest of an opened leaf in the Python reconstruction. -/
def openedLeafDigest (leafPrefix : Bytes) (leafWidth index : ℕ) (row : List ℤ) :
    Result Digest := do
  if leafWidth = 1 then
    let value ← checkRowW1 row
    return sha256 (leafPrefix ++ packI index ++ LittleEndian.toBytes 8 value.toNat)
  else
    let encoded ← encodeGoldilocksMerkleLeafReference row
    return sha256 (leafPrefix ++ packI index ++ encoded)

/-- The dictionary of opened leaves, from `zip(indices, rows, strict=True)`. -/
def openedLeaves (leafPrefix : Bytes) (leafWidth : ℕ) :
    List ℕ → List (List ℤ) → Nodes → Result Nodes
  | [], [], current => .ok current
  | index :: indices, row :: rows, current => do
    let digest ← openedLeafDigest sha256 leafPrefix leafWidth index row
    openedLeaves leafPrefix leafWidth indices rows (current.insert index digest)
  | _, _, _ => .error (.builtin "ValueError")

/-- The Python reconstruction of the raw root. -/
def reconstructPython (leafPrefix nodePrefix : Bytes) (leafCount leafWidth : ℕ)
    (indices : List ℕ) (rows : List (List ℤ)) (coordinates : List (ℕ × ℕ))
    (siblingDigests : List Digest) : Result Digest := do
  let leaves ← openedLeaves sha256 leafPrefix leafWidth indices rows ∅
  let (current, siblingOffset) ← reconstructLoop sha256 nodePrefix coordinates siblingDigests
    (height leafCount) 0 leaves 0
  raiseIf (siblingOffset ≠ siblingDigests.length ∨ current.keys ≠ {0})
    (.proofV3VerificationError "Merkle opening reconstruction is incomplete")
  match current.lookup 0 with
  | some root => return root
  | none => throw (.builtin "KeyError")

/-- The answer of the compiled reconstruction, or `none` when Python falls back to its loop. -/
def reconstructCompiled (lib : Bool) (leafPrefix nodePrefix : Bytes) (leafCount leafWidth : ℕ)
    (indices : List ℕ) (rows : List (List ℤ)) (coordinates : List (ℕ × ℕ))
    (siblingDigests : List Digest) : Result (Option (Except ℕ Digest)) := do
  let siblings := (coordinates.zip siblingDigests).map fun ((level, index), digest) =>
    (level, index, digest)
  if leafWidth = 1 then
    let rowValues ← rows.mapM checkRowW1
    if lib then
      Compiled.reconstructW1 sha256 leafPrefix nodePrefix leafCount indices rowValues siblings
    else return none
  else if lib then
    Compiled.reconstructWn sha256 leafPrefix nodePrefix leafCount indices rows.flatten leafWidth
      siblings
  else return none

/-- The raw root: the compiled answer when there is one, the Python loop otherwise. A return
code of the compiled helper rejects; it does not fall back. -/
def reconstructRoot (lib : Bool) (leafPrefix nodePrefix : Bytes) (leafCount leafWidth : ℕ)
    (indices : List ℕ) (rows : List (List ℤ)) (coordinates : List (ℕ × ℕ))
    (siblingDigests : List Digest) : Result Digest := do
  let compiled ← reconstructCompiled sha256 lib leafPrefix nodePrefix leafCount leafWidth indices
    rows coordinates siblingDigests
  match compiled with
  | some (.ok result) => return result
  | some (.error _) =>
    throw (.proofV3VerificationError "Merkle opening reconstruction is incomplete")
  | none =>
    reconstructPython sha256 leafPrefix nodePrefix leafCount leafWidth indices rows coordinates
      siblingDigests

def verifyGoldilocksMerkleMultiopeningReference (lib : Bool) (commitment : Bytes)
    (opening : GoldilocksMerkleMultiOpeningReference) (expectedBindingDigest : Bytes)
    (expectedLeafCount expectedLeafWidth : ℕ) (expectedIndices : List ℕ) : Result Unit := do
  let (expectedBinding, leafCount, leafWidth, indices, root) ←
    exceptProofV3 (.proofV3VerificationError "Merkle verifier expectation is malformed") (do
      let expectedBinding ← fixedBytes32 expectedBindingDigest "expected Merkle binding_digest"
      let leafCount ← leafCount expectedLeafCount
      let leafWidth ← leafWidth expectedLeafWidth
      let indices ← indices expectedIndices leafCount "expected Merkle indices"
      let root ← fixedBytes32 commitment "expected Merkle commitment"
      return (expectedBinding, leafCount, leafWidth, indices, root))
  raiseIf (opening.bindingDigest ≠ expectedBinding)
    (.proofV3VerificationError "Merkle opening binding_digest is unexpected")
  raiseIf (opening.leafCount ≠ leafCount ∨ opening.leafWidth ≠ leafWidth)
    (.proofV3VerificationError "Merkle opening tree metadata is unexpected")
  raiseIf (opening.indices ≠ indices)
    (.proofV3VerificationError "Merkle opening indices are unexpected")
  let expectedCoordinates := expectedSiblingCoordinates lib leafCount indices
  raiseIf (opening.coordinates ≠ expectedCoordinates)
    (.proofV3VerificationError
      "Merkle opening sibling coordinates are incomplete, duplicate, or reordered")
  let header := treeHeader expectedBinding leafCount leafWidth
  let leafPrefix := leafDomain ++ header
  let nodePrefix := nodeDomain ++ header
  let siblingDigests := opening.siblings.map (·.digest)
  let rawRoot ← reconstructRoot sha256 lib leafPrefix nodePrefix leafCount leafWidth indices
    opening.rows expectedCoordinates siblingDigests
  raiseIf (root ≠ commitmentHash sha256 expectedBinding leafCount leafWidth rawRoot)
    (.proofV3VerificationError "Merkle opening does not match commitment")

end Reconstruct

end Verathos.Merkle
