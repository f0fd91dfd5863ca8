import Mathlib.Data.Finmap
import Mathlib.Data.Finset.Sort
import Verathos.Goldilocks.Field

/-!
# The Goldilocks Merkle reference

A translation of the pure-Python part of `goldilocks_merkle_reference.py`: the domain-separated
hashes, the construction of a tree, the opening of a set of leaves, and the reconstruction of a
root from an opening. Python sets are finite sets, dictionaries are finite maps, and `sorted`
is `Finset.sort`. Tree sizes, widths, levels and indices are natural numbers; field values are
integers, because the code checks them for canonicity.

The compiled helper and the verifier that chooses between it and the Python loops are in
`Verathos.Merkle.Compiled` and `Verathos.Merkle.Verify`.
-/

namespace Verathos.Merkle

/-- `MAX_GOLDILOCKS_MERKLE_REFERENCE_LEAF_COUNT`. -/
def maxLeafCount : ℕ := maxGoldilocksReferenceDomainSize

/-- `MAX_GOLDILOCKS_MERKLE_REFERENCE_LEAF_WIDTH`. -/
def maxLeafWidth : ℕ := 2 ^ 12

/-- `MAX_GOLDILOCKS_MERKLE_REFERENCE_FIELD_VALUES`. -/
def maxFieldValues : ℕ := 2 ^ 21

def goldilocksMerkleReferenceAbiV3 : String := "goldilocks.merkle.reference.v1"

def leafDomain : Bytes :=
  asciiBytes "VERATHOS/PROOF_V3/GOLDILOCKS_MERKLE/V1/LEAF/SHA256"

def nodeDomain : Bytes :=
  asciiBytes "VERATHOS/PROOF_V3/GOLDILOCKS_MERKLE/V1/NODE/SHA256"

def rootDomain : Bytes :=
  asciiBytes "VERATHOS/PROOF_V3/GOLDILOCKS_MERKLE/V1/ROOT/SHA256"

/-- `struct.pack("<I", value)`. Every caller keeps the value below `2 ^ 32`. -/
def packI (value : ℕ) : Bytes := LittleEndian.toBytes 4 value

/-! ## Input checks -/

/-- `_leaf_count`: a power of two up to the native domain size. -/
def leafCount (value : ℕ) : Result ℕ := do
  raiseIf (value < 1 ∨ value > maxGoldilocksNativeDomainSize ∨ value &&& (value - 1) ≠ 0)
    (.proofV3Error "Merkle leaf_count must be a power of two within the CPU reference cap")
  return value

def leafWidth (value : ℕ) : Result ℕ := do
  raiseIf (value < 1 ∨ value > maxLeafWidth)
    (.proofV3Error "Merkle leaf_width is outside the CPU reference cap")
  return value

/-- `_materialize_iterable`: the items, refused as soon as there are more than `maximum`. -/
def materializeIterable {α : Type} (items : List α) (name : String) (maximum : ℕ) :
    Result (List α) := do
  raiseIf (items.length > maximum) (.proofV3Error (name ++ " exceeds the CPU reference cap"))
  return items

def fieldRow (value : List ℤ) (name : String) (width : Option ℕ) : Result (List ℤ) := do
  let items ← materializeIterable value name maxLeafWidth
  raiseIf (items = []) (.proofV3Error (name ++ " must not be empty"))
  raiseIf (∃ w ∈ width, items.length ≠ w)
    (.proofV3Error (name ++ " must contain exactly " ++ toString (width.getD 0)
      ++ " field elements"))
  items.zipIdx.mapM fun (item, index) =>
    canonicalGoldilocks item (name ++ "[" ++ toString index ++ "]")

/-- The condition under which `_field_rows` returns its argument without entering the loop. -/
def fieldRowsFastPath (value : List (List ℤ)) (expectedCount width : Option ℕ) : Bool :=
  match value with
  | [] => false
  | [] :: _ => false
  | (head :: tail) :: _ =>
    let fastWidth := width.getD (head :: tail).length
    value.length ≤ maxLeafCount && expectedCount.all (value.length = ·) &&
      if fastWidth = 1 ∧ value.length ≤ maxFieldValues then
        value.all (·.length = 1) && value.flatten.all fun item => decide (Canonical item)
      else
        1 ≤ fastWidth && fastWidth ≤ maxLeafWidth && value.length * fastWidth ≤ maxFieldValues &&
          value.all fun row =>
            row.length = fastWidth && row.all fun item => decide (Canonical item)

/-- The loop of `_field_rows`: normalise one row after another, keeping the expected width and
the number of values seen so far. -/
def fieldRowsLoop (name : String) : List (List ℤ × ℕ) → Option ℕ → ℕ → Result (List (List ℤ) × Option ℕ)
  | [], expectedWidth, _ => .ok ([], expectedWidth)
  | (row, index) :: rest, expectedWidth, totalValues => do
    let normalizedRow ← fieldRow row (name ++ "[" ++ toString index ++ "]") expectedWidth
    let totalValues := totalValues + normalizedRow.length
    raiseIf (totalValues > maxFieldValues)
      (.proofV3Error (name ++ " exceeds the CPU field-value reference cap"))
    let (normalized, width) ←
      fieldRowsLoop name rest (some (expectedWidth.getD normalizedRow.length)) totalValues
    return (normalizedRow :: normalized, width)

def fieldRows (value : List (List ℤ)) (name : String) (expectedCount width : Option ℕ) :
    Result (List (List ℤ)) := do
  if fieldRowsFastPath value expectedCount width then
    return value
  let rows ← materializeIterable value name maxFieldValues
  raiseIf (rows = []) (.proofV3Error (name ++ " must not be empty"))
  raiseIf (∃ count ∈ expectedCount, rows.length ≠ count)
    (.proofV3Error (name ++ " must contain exactly " ++ toString (expectedCount.getD 0) ++ " rows"))
  let (normalized, expectedWidth) ← fieldRowsLoop name rows.zipIdx width 0
  let _ ← leafWidth (expectedWidth.getD 0)
  return normalized

def encodeGoldilocksMerkleLeafReference (values : List ℤ) : Result Bytes := do
  let row ← fieldRow values "Merkle leaf" none
  let encoded ← row.mapM goldilocksToBytes
  return encoded.flatten

/-- The condition under which `_indices` returns its argument without entering the loop. -/
def indicesFastPath (value : List ℕ) (leafCount : ℕ) : Bool :=
  0 < value.length && value.length ≤ leafCount && value.all (· < leafCount) &&
    decide (value.IsChain (· < ·))

/-- The checks that `_indices` makes of one entry after another. -/
def indicesLoop (leafCount : ℕ) (name : String) : Option ℕ → List (ℕ × ℕ) → Result Unit
  | _, [] => .ok ()
  | previous, (entry, index) :: rest => do
    raiseIf (entry ≥ leafCount)
      (.proofV3Error (name ++ "[" ++ toString index ++ "] is outside the Merkle tree"))
    raiseIf (∃ p ∈ previous, p ≥ entry)
      (.proofV3Error
        (name ++ " must be strictly increasing without duplicates or reordering"))
    indicesLoop leafCount name (some entry) rest

def indices (value : List ℕ) (leafCount : ℕ) (name : String) : Result (List ℕ) := do
  if indicesFastPath value leafCount then
    return value
  let entries ← materializeIterable value name leafCount
  raiseIf (entries = []) (.proofV3Error (name ++ " must not be empty"))
  indicesLoop leafCount name none entries.zipIdx
  return entries

/-! ## Hashes -/

def treeHeader (bindingDigest : Digest) (leafCount leafWidth : ℕ) : Bytes :=
  bindingDigest.bytes ++ packI leafCount ++ packI leafWidth

def height (leafCount : ℕ) : ℕ := leafCount.size - 1

section Hash

variable (sha256 : Bytes → Digest)

def leafHash (bindingDigest : Digest) (leafCount leafWidth index : ℕ) (row : List ℤ) :
    Result Digest := do
  let encoded ← encodeGoldilocksMerkleLeafReference row
  return sha256 (leafDomain ++ treeHeader bindingDigest leafCount leafWidth ++ packI index ++ encoded)

/-- The message hashed for an inner node. -/
def nodeMessage (bindingDigest : Digest) (leafCount leafWidth parentLevel parentIndex : ℕ)
    (left right : Digest) : Bytes :=
  nodeDomain ++ treeHeader bindingDigest leafCount leafWidth ++ packI parentLevel ++
    packI parentIndex ++ left.bytes ++ right.bytes

def parentHash (bindingDigest : Digest) (leafCount leafWidth parentLevel parentIndex : ℕ)
    (left right : Digest) : Digest :=
  sha256 (nodeMessage bindingDigest leafCount leafWidth parentLevel parentIndex left right)

/-- The message hashed for the final commitment. -/
def rootMessage (bindingDigest : Digest) (leafCount leafWidth : ℕ) (rawRoot : Digest) : Bytes :=
  rootDomain ++ treeHeader bindingDigest leafCount leafWidth ++ rawRoot.bytes

def commitmentHash (bindingDigest : Digest) (leafCount leafWidth : ℕ) (rawRoot : Digest) : Digest :=
  sha256 (rootMessage bindingDigest leafCount leafWidth rawRoot)

end Hash

/-! ## Trees -/

/-- The nodes above a level, paired from the left. A level has a power of two of nodes, so a
node without a partner only occurs at the root, where no further level is built. -/
def parentLevelNodes (combine : ℕ → Digest → Digest → Digest) : ℕ → List Digest → List Digest
  | parentIndex, left :: right :: rest =>
    combine parentIndex left right :: parentLevelNodes combine (parentIndex + 1) rest
  | _, _ => []

theorem length_parentLevelNodes (combine : ℕ → Digest → Digest → Digest) (parentIndex : ℕ)
    (nodes : List Digest) :
    (parentLevelNodes combine parentIndex nodes).length = nodes.length / 2 := by
  fun_induction parentLevelNodes combine parentIndex nodes with
  | case1 parentIndex left right rest ih =>
    rw [List.length_cons, ih, List.length_cons, List.length_cons]
    omega
  | case2 nodes _ h =>
    rcases nodes with _ | ⟨left, _ | ⟨right, rest⟩⟩
    · rfl
    · simp
    · exact absurd rfl (h left right rest)

/-- The `while len(current) > 1` loop of `_build_levels`: the levels above `current`. -/
def buildLevelsLoop (combine : ℕ → ℕ → Digest → Digest → Digest) (parentLevel : ℕ)
    (current : List Digest) : List (List Digest) :=
  if _h : 1 < current.length then
    let next := parentLevelNodes (combine parentLevel) 0 current
    next :: buildLevelsLoop combine (parentLevel + 1) next
  else []
termination_by current.length
decreasing_by
  rw [length_parentLevelNodes]
  omega

section Tree

variable (sha256 : Bytes → Digest)

def buildLevels (bindingDigest : Digest) (rows : List (List ℤ)) (leafWidth : ℕ) :
    Result (List (List Digest)) := do
  let leafCount := rows.length
  let current ← rows.zipIdx.mapM fun (row, index) =>
    leafHash sha256 bindingDigest leafCount leafWidth index row
  return current :: buildLevelsLoop (parentHash sha256 bindingDigest leafCount leafWidth) 1 current

/-- `GoldilocksMerkleTreeReference`: a tree with its rows and all of its nodes. -/
structure GoldilocksMerkleTreeReference where
  /-- The caller's binding digest, part of every hashed message. -/
  bindingDigest : Digest
  leafCount : ℕ
  leafWidth : ℕ
  /-- The commitment: the hash of the tree header and the raw root. -/
  commitment : Digest
  rows : List (List ℤ)
  levels : List (List Digest)

def normalizedLevels (value : List (List Digest)) (leafCount : ℕ) :
    Result (List (List Digest)) := do
  let expectedLevels := height leafCount + 1
  let rawLevels ← materializeIterable value "Merkle tree levels" expectedLevels
  raiseIf (rawLevels.length ≠ expectedLevels)
    (.proofV3Error "Merkle tree has an unexpected number of levels")
  rawLevels.zipIdx.mapM fun (rawNodes, level) => do
    let expectedNodes := leafCount >>> level
    let nodes ← materializeIterable rawNodes ("Merkle tree level " ++ toString level) expectedNodes
    raiseIf (nodes.length ≠ expectedNodes)
      (.proofV3Error ("Merkle tree level " ++ toString level ++ " has an unexpected node count"))
    return nodes

def GoldilocksMerkleTreeReference.postInit (tree : GoldilocksMerkleTreeReference) :
    Result GoldilocksMerkleTreeReference := do
  let leafCount ← Merkle.leafCount tree.leafCount
  let leafWidth ← Merkle.leafWidth tree.leafWidth
  let rows ← fieldRows tree.rows "Merkle tree rows" (some leafCount) (some leafWidth)
  let levels ← normalizedLevels tree.levels leafCount
  let expectedLevels ← buildLevels sha256 tree.bindingDigest rows leafWidth
  raiseIf (levels ≠ expectedLevels)
    (.proofV3Error "Merkle tree levels do not match canonical rows")
  let rawRoot ← getItem (levels.getLastD []) 0
  raiseIf (tree.commitment ≠
      commitmentHash sha256 tree.bindingDigest leafCount leafWidth rawRoot)
    (.proofV3Error "Merkle commitment does not match canonical rows")
  return { tree with leafCount, leafWidth, rows, levels }

/-- `GoldilocksMerkleTreeReference.from_rows`: commit a power-of-two table of equal-width rows. -/
def GoldilocksMerkleTreeReference.fromRows (rows : List (List ℤ)) (bindingDigest : Digest) :
    Result GoldilocksMerkleTreeReference := do
  let normalizedRows ← fieldRows rows "Merkle tree rows" none none
  let leafCount ← Merkle.leafCount normalizedRows.length
  let firstRow ← getItem normalizedRows 0
  let leafWidth ← Merkle.leafWidth firstRow.length
  let levels ← buildLevels sha256 bindingDigest normalizedRows leafWidth
  let rawRoot ← getItem (levels.getLastD []) 0
  let commitment := commitmentHash sha256 bindingDigest leafCount leafWidth rawRoot
  GoldilocksMerkleTreeReference.postInit sha256
    { bindingDigest, leafCount, leafWidth, commitment, rows := normalizedRows, levels }

end Tree

/-! ## Openings -/

/-- `GoldilocksMerkleSiblingReference`: one node of a multiproof. -/
structure GoldilocksMerkleSiblingReference where
  level : ℕ
  index : ℕ
  digest : Digest
deriving DecidableEq

def GoldilocksMerkleSiblingReference.postInit (node : GoldilocksMerkleSiblingReference) :
    Result GoldilocksMerkleSiblingReference := do
  raiseIf (node.level ≥ 2 ^ 32) (.proofV3Error "Merkle sibling level is outside uint32")
  raiseIf (node.index ≥ 2 ^ 32) (.proofV3Error "Merkle sibling index is outside uint32")
  return node

/-- The Python loop of `_expected_sibling_coordinates`, over the levels that remain. -/
def siblingCoordinatesLoop : ℕ → ℕ → Finset ℕ → List (ℕ × ℕ)
  | 0, _, _ => []
  | remaining + 1, level, current =>
    let missing := ((current.filter fun index => index ^^^ 1 ∉ current).image (· ^^^ 1)).sort
    missing.map (level, ·) ++
      siblingCoordinatesLoop remaining (level + 1) (current.image (· / 2))

/-- The Python branch of `_expected_sibling_coordinates`. -/
def siblingCoordinatesPython (leafCount : ℕ) (indices : List ℕ) : List (ℕ × ℕ) :=
  siblingCoordinatesLoop (height leafCount) 0 indices.toFinset

/-- `GoldilocksMerkleMultiOpeningReference`: the opened rows and the sibling schedule. -/
structure GoldilocksMerkleMultiOpeningReference where
  bindingDigest : Digest
  leafCount : ℕ
  leafWidth : ℕ
  indices : List ℕ
  rows : List (List ℤ)
  siblings : List GoldilocksMerkleSiblingReference
  abiId : String := goldilocksMerkleReferenceAbiV3
deriving DecidableEq

end Verathos.Merkle
