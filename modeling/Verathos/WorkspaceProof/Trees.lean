import Verathos.Basic
import Verathos.Lib.FlatMerkle
import Verathos.Lib.Json
import Verathos.Lib.RowMajor

/-!
# The Merkle trees of a workspace

A translation of the block hashes and of the trees of `neurons/capacity_audit_workspace_proof.py`:
`WorkspaceStateMerkleTree` over blocks of A and B, and `WorkspaceMerkleTree` over blocks of Q. Both
classes are `WorkspaceTree`, with their own hash of two nodes; a tree keeps all its nodes in one
list and finds the siblings of a leaf there by the offsets of the levels.

`zkllm.types.MerklePath` is a record of a leaf index and of siblings with their sides.
-/

namespace Verathos.WorkspaceProof

open FlatMerkle (flatten withSides)
open OddMerkle (pairUp)

/-- An exception of the trees and of the openings. -/
inductive OpeningError where
  | valueError (message : String)
  | formatError (message : String)
  | verificationError (message : String)
  /-- Another exception of the language, such as `KeyError` or `struct.error`. -/
  | builtin (name : String)
deriving DecidableEq

/-- The result of code that may raise one of them. -/
abbrev Opened := Except OpeningError

/-- `if condition: raise error`. -/
def failIf (condition : Prop) [Decidable condition] (error : OpeningError) : Opened Unit :=
  if condition then .error error else .ok ()

/-- `items[index]`. -/
def itemAt {α : Type} (items : List α) (index : ℕ) : Opened α :=
  match items[index]? with
  | some item => .ok item
  | none => .error (.builtin "IndexError")

/-! ## Tags -/

/-- A tag, which fits into 32 bytes. -/
structure Tag where
  bytes : Bytes
  length_le : bytes.length ≤ 32

def fixedTag (tag : Tag) : Bytes := tag.bytes ++ List.replicate (32 - tag.bytes.length) 0

def workspaceQBlockTag : Bytes := asciiBytes "VERATHOS_Q_BLOCK_V1"

def workspaceQLeafTag : Bytes := asciiBytes "VERATHOS_Q_LEAF_V1"

def workspaceQNodeTag : Bytes := asciiBytes "VERATHOS_Q_NODE_V1"

def workspaceStateBlockTag : Tag := ⟨asciiBytes "VERATHOS_AB_STATE_BLOCK_V1", by decide⟩

def workspaceStateLeafTag : Tag := ⟨asciiBytes "VERATHOS_AB_STATE_LEAF_V1", by decide⟩

def workspaceStateNodeTag : Tag := ⟨asciiBytes "VERATHOS_AB_STATE_NODE_V1", by decide⟩

/-! ## Hashes -/

section Hashes

variable (sha256 : Bytes → Digest)

/-- `struct.pack("<i", int(value))`. -/
def packI32 (value : ℤ) : Opened Bytes := do
  failIf (value < -2 ^ 31 ∨ value ≥ 2 ^ 31) (.builtin "struct.error")
  return LittleEndian.toBytesSigned 4 value

/-- What `workspace_q_block_hash_i32` hashes of a block. -/
def qBlockBytes (blockRows : List (List ℤ)) : Opened Bytes := do
  let values ← blockRows.flatten.mapM packI32
  return values.flatten

/-- The messages of the hash of a block: of the block itself, and of the leaf. -/
def leafMessages (blockTag leafTag bytes : Bytes) : Bytes × Bytes :=
  (blockTag ++ bytes, leafTag ++ (sha256 (blockTag ++ bytes)).bytes)

def workspaceQBlockHashI32 (blockRows : List (List ℤ)) : Opened Digest := do
  let bytes ← qBlockBytes blockRows
  return sha256 (leafMessages sha256 workspaceQBlockTag workspaceQLeafTag bytes).2

/-- The shape of `np.asarray(rows)`; rows of several lengths have none. -/
def arrayShape {α : Type} : List (List α) → Opened (List ℕ)
  | [] => .ok [0]
  | row :: rows => do
    failIf (∃ other ∈ rows, other.length ≠ row.length) (.builtin "ValueError")
    return [rows.length + 1, row.length]

/-- The shape checks of `_state_block_arrays_i8` and of `workspace_state_block_hash_i8`. -/
def checkStateBlockShape (aBlockRows bBlockRows : List (List Int8)) : Opened Unit := do
  let aShape ← arrayShape aBlockRows
  let bShape ← arrayShape bBlockRows
  failIf (aShape.length ≠ 2 ∨ bShape.length ≠ 2 ∨ aShape ≠ bShape)
    (.valueError "invalid state block shape")
  failIf (0 ∈ aShape) (.valueError "state block must not be empty")

/-- The bytes of a state block: the rows of A and B in turn. -/
def stateBlockBytes (aBlockRows bBlockRows : List (List Int8)) : Bytes :=
  (List.zipWith (fun aRow bRow => aRow.map Int8.toUInt8 ++ bRow.map Int8.toUInt8) aBlockRows
    bBlockRows).flatten

def workspaceStateBlockHashI8 (aBlockRows bBlockRows : List (List Int8)) : Opened Digest := do
  checkStateBlockShape aBlockRows bBlockRows
  return sha256 (leafMessages sha256 (fixedTag workspaceStateBlockTag)
    (fixedTag workspaceStateLeafTag) (stateBlockBytes aBlockRows bBlockRows)).2

def workspaceMerkleParent (left right : Bytes) : Digest :=
  sha256 (workspaceQNodeTag ++ left ++ right)

def workspaceStateMerkleParent (left right : Bytes) : Digest :=
  sha256 (fixedTag workspaceStateNodeTag ++ left ++ right)

end Hashes

/-! ## Trees -/

def levelSizes (numLeaves : ℕ) : List ℕ := FlatMerkle.sizes numLeaves

def levelOffsets (numLeaves : ℕ) : List ℕ := (levelSizes numLeaves).dropLast.scanl (· + ·) 0

section Parent

variable (parent : Bytes → Bytes → Digest)

/-- The hash of two nodes. -/
def node (left right : Digest) : Digest := parent left.bytes right.bytes

/-- The `while` loop of `workspace_merkle_root_from_leaves` ends with one node. -/
def rootFromLeaves (message : String) (leafHashes : List Digest) : Opened Digest := do
  failIf (leafHashes = []) (.valueError message)
  itemAt (OddMerkle.reduce (node parent) leafHashes) 0

/-- A tree: its number of leaves, its nodes from the leaves up, and the offsets of the levels. -/
structure WorkspaceTree where
  numLeaves : ℕ
  nodes : List Digest
  offsets : List ℕ
deriving DecidableEq

/-- The `while` loop of the constructor. -/
def buildLevels (level nodes : List Digest) (offsets : List ℕ) : List Digest × List ℕ :=
  if 1 < level.length then
    buildLevels (pairUp (node parent) level) (nodes ++ pairUp (node parent) level)
      (offsets ++ [nodes.length])
  else (nodes, offsets)
termination_by level.length
decreasing_by
  rw [OddMerkle.length_pairUp]
  omega

/-- The constructor of both classes. -/
def WorkspaceTree.new (leafHashes : List Digest) : Opened WorkspaceTree := do
  failIf (leafHashes = []) (.valueError "leaf_hashes must not be empty")
  let (nodes, offsets) := buildLevels parent leafHashes leafHashes [0]
  return ⟨leafHashes.length, nodes, offsets ++ [nodes.length]⟩

end Parent

def WorkspaceTree.root (tree : WorkspaceTree) : Opened Digest :=
  match tree.nodes.getLast? with
  | some root => .ok root
  | none => .error (.builtin "IndexError")

/-- `MerklePath`: a leaf index, and the siblings with whether they are on the left. -/
structure MerklePath where
  leafIndex : ℕ
  siblings : List (Bytes × Bool)
deriving DecidableEq

/-- The loop of `get_path` over the levels that have a level above them. -/
def WorkspaceTree.pathLoop (nodes : List Digest) (offsets : List ℕ) :
    List (ℕ × ℕ) → ℕ → Opened (List (Bytes × Bool))
  | [], _ => .ok []
  | (levelSize, level) :: levels, idx => do
    let offset ← itemAt offsets level
    let sibling ← itemAt nodes (offset + FlatMerkle.siblingIndex idx levelSize)
    let siblings ← pathLoop nodes offsets levels (idx / 2)
    return (sibling.bytes, idx % 2 = 1) :: siblings

/-- The path of a leaf. -/
def WorkspaceTree.pathOf (tree : WorkspaceTree) (leafIndex : ℕ) : Opened MerklePath := do
  let siblings ← pathLoop tree.nodes (levelOffsets tree.numLeaves)
    (levelSizes tree.numLeaves).dropLast.zipIdx leafIndex
  return ⟨leafIndex, siblings⟩

/-- `get_path` of `WorkspaceMerkleTree`. -/
def WorkspaceTree.getPath (tree : WorkspaceTree) (bi bj : ℕ) (blocksPerRow : Option ℕ) :
    Opened MerklePath :=
  let bpr := (blocksPerRow.filter (· ≠ 0)).getD (Nat.sqrt tree.numLeaves)
  tree.pathOf (bi * bpr + bj)

/-- `get_path` of `WorkspaceStateMerkleTree`. -/
def WorkspaceTree.getStatePath (tree : WorkspaceTree) (blockIndex : ℤ) : Opened MerklePath := do
  failIf (blockIndex < 0 ∨ blockIndex ≥ tree.numLeaves) (.valueError "block_index out of range")
  tree.pathOf blockIndex.toNat

/-- `[row[bj * block_size : (bj + 1) * block_size] for row in
matrix[bi * block_size : (bi + 1) * block_size]]`. -/
def blockRows {α : Type} (matrix : List (List α)) (blockSize bi bj : ℕ) : List (List α) :=
  RowMajor.block matrix blockSize bi bj

/-- The coordinates of the blocks in the order of the leaves. -/
def blockCoordinates (blocksPerRow : ℕ) : List (ℕ × ℕ) :=
  (List.range blocksPerRow).flatMap fun bi => (List.range blocksPerRow).map fun bj => (bi, bj)

section Matrices

variable (sha256 : Bytes → Digest)

/-- The leaves of `WorkspaceMerkleTree.from_matrix_i32`. -/
def qLeaves (matrix : List (List ℤ)) (blockSize : ℕ) : Opened (List Digest) :=
  (blockCoordinates (matrix.length / blockSize)).mapM fun block =>
    workspaceQBlockHashI32 sha256 (blockRows matrix blockSize block.1 block.2)

def fromMatrixI32 (matrix : List (List ℤ)) (blockSize : ℕ) : Opened WorkspaceTree := do
  failIf (matrix.length = 0 ∨ ∃ row ∈ matrix, row.length ≠ matrix.length)
    (.valueError "matrix must be non-empty and square")
  failIf (blockSize = 0) (.builtin "ZeroDivisionError")
  failIf (matrix.length % blockSize ≠ 0)
    (.valueError "matrix dimension must be divisible by block_size")
  let leaves ← qLeaves sha256 matrix blockSize
  WorkspaceTree.new (workspaceMerkleParent sha256) leaves

def workspaceMerkleRootFromLeaves (leafHashes : List Digest) : Opened Digest :=
  rootFromLeaves (workspaceMerkleParent sha256)
    "cannot build workspace Merkle root from empty leaves" leafHashes

/-- The leaves of `WorkspaceStateMerkleTree.from_state_i8_matrices`. -/
def stateLeaves (aMatrix bMatrix : List (List Int8)) (blockSize : ℕ) : Opened (List Digest) :=
  (blockCoordinates (aMatrix.length / blockSize)).mapM fun block =>
    workspaceStateBlockHashI8 sha256 (blockRows aMatrix blockSize block.1 block.2)
      (blockRows bMatrix blockSize block.1 block.2)

def fromStateI8Matrices (aMatrix bMatrix : List (List Int8)) (blockSize : ℕ) :
    Opened WorkspaceTree := do
  failIf (aMatrix.length = 0 ∨ bMatrix.length ≠ aMatrix.length)
    (.valueError "state matrices must be non-empty and same-sized")
  failIf ((∃ row ∈ aMatrix, row.length ≠ aMatrix.length) ∨
      ∃ row ∈ bMatrix, row.length ≠ aMatrix.length)
    (.valueError "state matrices must be square")
  failIf (blockSize = 0) (.builtin "ZeroDivisionError")
  failIf (aMatrix.length % blockSize ≠ 0)
    (.valueError "state matrix dimension must be divisible by block_size")
  let leaves ← stateLeaves sha256 aMatrix bMatrix blockSize
  WorkspaceTree.new (workspaceStateMerkleParent sha256) leaves

def workspaceStateMerkleRootFromLeaves (leafHashes : List Digest) : Opened Digest :=
  rootFromLeaves (workspaceStateMerkleParent sha256)
    "cannot build workspace state Merkle root from empty leaves" leafHashes

end Matrices

/-! ## Paths -/

/-- One step of a verification. -/
def climbStep (parent : Bytes → Bytes → Digest) (current : Digest) (step : Bytes × Bool) : Digest :=
  if step.2 then parent step.1 current.bytes else parent current.bytes step.1

/-- The loop of both verifications. -/
def verifyPath (parent : Bytes → Bytes → Digest) (root : Bytes) (leafHash : Digest)
    (path : MerklePath) : Bool :=
  (path.siblings.foldl (climbStep parent) leafHash).bytes = root

def verifyWorkspaceMerklePath (sha256 : Bytes → Digest) (root : Bytes) (leafHash : Digest)
    (path : MerklePath) : Bool :=
  verifyPath (workspaceMerkleParent sha256) root leafHash path

def verifyWorkspaceStateMerklePath (sha256 : Bytes → Digest) (root : Bytes) (leafHash : Digest)
    (path : MerklePath) : Bool :=
  verifyPath (workspaceStateMerkleParent sha256) root leafHash path

def serializeMerklePath (path : MerklePath) : Json :=
  .obj [("leaf_index", .int path.leafIndex),
    ("siblings", .arr (path.siblings.map fun step =>
      .arr [.str (Hex.toText step.1), .bool step.2]))]

/-!
## Paths of the workspace trees

What a tree has from its leaves (`TreeOf`): its root is that of `rootFromLeaves`
(`TreeOf.root_eq`), the path of every leaf is read off the list of nodes (`TreeOf.pathOf_eq`) and
leads from the leaf to the root (`verifyPath_honestPath`).
-/

section Results

variable {α : Type}

@[simp]
theorem failIf_eq_ok {condition : Prop} [Decidable condition] {error : OpeningError} {u : Unit} :
    failIf condition error = .ok u ↔ ¬ condition := by
  unfold failIf
  split_ifs with h <;> simp [h]

theorem failIf_of_not {condition : Prop} [Decidable condition] (h : ¬ condition)
    (error : OpeningError) : failIf condition error = .ok () := if_neg h

@[simp]
theorem itemAt_eq_ok {items : List α} {index : ℕ} {item : α} :
    itemAt items index = .ok item ↔ items[index]? = some item := by
  unfold itemAt
  split <;> simp_all

end Results

variable {parent : Bytes → Bytes → Digest} {leaves : List Digest} {tree : WorkspaceTree}

variable (parent) in
theorem fst_buildLevels (level front : List Digest) (offsets : List ℕ) :
    (buildLevels parent level (front ++ level) offsets).1 =
      front ++ flatten (node parent) level := by
  induction h : level.length using Nat.strong_induction_on generalizing level front offsets with
  | _ n ih =>
    subst h
    rw [buildLevels]
    split_ifs with hone
    · have hlength : (pairUp (node parent) level).length < level.length := by
        rw [OddMerkle.length_pairUp]
        omega
      rw [ih _ hlength _ (front ++ level) _ rfl, FlatMerkle.flatten_of_lt _ hone, List.append_assoc]
    · rw [FlatMerkle.flatten_of_le _ (by omega)]

/-- A tree over leaves. -/
structure TreeOf (parent : Bytes → Bytes → Digest) (leaves : List Digest) (tree : WorkspaceTree) :
    Prop where
  ne_nil : leaves ≠ []
  numLeaves_eq : tree.numLeaves = leaves.length
  nodes_eq : tree.nodes = flatten (node parent) leaves

variable (parent) in
theorem exists_treeOf (hne : leaves ≠ []) :
    ∃ tree, WorkspaceTree.new parent leaves = .ok tree ∧ TreeOf parent leaves tree := by
  obtain ⟨nodes, offsets, hbuild⟩ : ∃ nodes offsets,
      buildLevels parent leaves leaves [0] = (nodes, offsets) := ⟨_, _, rfl⟩
  have hnodes : nodes = flatten (node parent) leaves := by
    have hfst := fst_buildLevels parent leaves [] [0]
    rwa [List.nil_append, hbuild] at hfst
  refine ⟨⟨leaves.length, nodes, offsets ++ [nodes.length]⟩, ?_, hne, rfl, hnodes⟩
  rw [WorkspaceTree.new, failIf_of_not hne, hbuild]
  rfl

theorem TreeOf.root_eq (h : TreeOf parent leaves tree) (message : String) :
    ∃ root, tree.root = .ok root ∧ rootFromLeaves parent message leaves = .ok root ∧
      OddMerkle.root (node parent) leaves = some root := by
  obtain ⟨leaf, hleaf⟩ := List.exists_mem_of_ne_nil leaves h.ne_nil
  obtain ⟨index, hindex⟩ := List.mem_iff_getElem?.mp hleaf
  obtain ⟨root, hroot⟩ : ∃ root, OddMerkle.root (node parent) leaves = some root :=
    ⟨_, OddMerkle.climbPath_path (node parent) hindex⟩
  refine ⟨root, ?_, ?_, hroot⟩
  · rw [WorkspaceTree.root, h.nodes_eq, FlatMerkle.getLast?_flatten, hroot]
  · rw [rootFromLeaves, failIf_of_not h.ne_nil, itemAt, ← List.head?_eq_getElem?]
    rw [OddMerkle.root] at hroot
    rw [hroot]
    rfl

/-- The siblings of a leaf with their sides, as bytes. -/
def honestSiblings (parent : Bytes → Bytes → Digest) (leaves : List Digest) (index : ℕ) :
    List (Bytes × Bool) :=
  (withSides index (OddMerkle.path (node parent) leaves index)).map fun step =>
    (step.1.bytes, step.2)

variable (parent) in
/-- The loop of `get_path` from a level on: `before` are the offsets of the levels below it, and
`front` their nodes. -/
theorem pathLoop_eq {level : List Digest} {index : ℕ} (hindex : index < level.length)
    (front : List Digest) (before : List ℕ) :
    WorkspaceTree.pathLoop (front ++ flatten (node parent) level)
        (before ++ (levelSizes level.length).dropLast.scanl (· + ·) front.length)
        ((levelSizes level.length).dropLast.zipIdx before.length) index =
      .ok (honestSiblings parent level index) := by
  induction h : level.length using Nat.strong_induction_on
    generalizing level index front before with
  | _ n ih =>
    subst h
    by_cases hone : 1 < level.length
    · obtain ⟨sibling, hsibling, -⟩ :=
        OddMerkle.exists_sibling (node parent) (List.getElem?_eq_getElem hindex)
      have hlength : (pairUp (node parent) level).length < level.length := by
        rw [OddMerkle.length_pairUp]
        omega
      have hparent : index / 2 < (pairUp (node parent) level).length := by
        rw [OddMerkle.length_pairUp]
        omega
      have hplace : FlatMerkle.siblingIndex index level.length < level.length := by
        have hsome := FlatMerkle.getElem?_siblingIndex hindex
        rw [hsibling] at hsome
        exact (List.getElem?_eq_some_iff.mp hsome).1
      have hoffset (offsets : List ℕ) : (before ++ front.length :: offsets)[before.length]? =
          some front.length := by
        rw [List.getElem?_append_right (le_refl _), Nat.sub_self, List.getElem?_cons_zero]
      have hnode : (front ++ flatten (node parent) level)[front.length +
          FlatMerkle.siblingIndex index level.length]? = some sibling := by
        rw [List.getElem?_append_right (Nat.le_add_right _ _), Nat.add_sub_cancel_left,
          FlatMerkle.flatten_of_lt _ hone, List.getElem?_append_left hplace,
          FlatMerkle.getElem?_siblingIndex hindex, hsibling]
      have hrest := ih _ hlength hparent (front ++ level) (before ++ [front.length]) rfl
      rw [List.append_assoc, ← FlatMerkle.flatten_of_lt _ hone, OddMerkle.length_pairUp,
        List.append_assoc, List.singleton_append, List.length_append, List.length_append,
        List.length_singleton] at hrest
      rw [levelSizes, FlatMerkle.dropLast_sizes_of_lt hone, List.scanl_cons, List.zipIdx_cons,
        WorkspaceTree.pathLoop]
      simp only [bind_eq_ok, itemAt_eq_ok]
      refine ⟨front.length, hoffset _, sibling, hnode, _, hrest, ?_⟩
      have hpath : OddMerkle.path (node parent) level index =
          sibling :: OddMerkle.path (node parent) (pairUp (node parent) level) (index / 2) := by
        rw [OddMerkle.path, if_pos hone, hsibling]
        rfl
      rw [honestSiblings, honestSiblings, hpath]
      rfl
    · rw [levelSizes, FlatMerkle.sizes_of_le (by omega), honestSiblings, OddMerkle.path, if_neg hone]
      rfl

variable {index : ℕ}

theorem TreeOf.pathOf_eq (h : TreeOf parent leaves tree) (hindex : index < leaves.length) :
    tree.pathOf index = .ok ⟨index, honestSiblings parent leaves index⟩ := by
  have hloop := pathLoop_eq parent hindex [] []
  rw [WorkspaceTree.pathOf, h.nodes_eq, h.numLeaves_eq, levelOffsets]
  exact bind_eq_ok.mpr ⟨_, hloop, rfl⟩

theorem TreeOf.getStatePath_eq (h : TreeOf parent leaves tree) (hindex : index < leaves.length) :
    tree.getStatePath index = .ok ⟨index, honestSiblings parent leaves index⟩ := by
  have hrange : ¬ ((index : ℤ) < 0 ∨ (index : ℤ) ≥ tree.numLeaves) := by
    rw [h.numLeaves_eq]
    omega
  rw [WorkspaceTree.getStatePath, failIf_of_not hrange]
  exact h.pathOf_eq hindex

theorem TreeOf.getPath_eq (h : TreeOf parent leaves tree) {blocksPerRow bi bj : ℕ}
    (hleaves : leaves.length = blocksPerRow * blocksPerRow) (hbi : bi < blocksPerRow)
    (hbj : bj < blocksPerRow) {given : Option ℕ} (hgiven : given = none ∨ given = some blocksPerRow) :
    tree.getPath bi bj given =
      .ok ⟨bi * blocksPerRow + bj, honestSiblings parent leaves (bi * blocksPerRow + bj)⟩ := by
  have hbpr : (given.filter (· ≠ 0)).getD (Nat.sqrt tree.numLeaves) = blocksPerRow := by
    rcases hgiven with rfl | rfl
    · rw [h.numLeaves_eq, hleaves]
      exact Nat.sqrt_eq blocksPerRow
    · have hpositive : blocksPerRow ≠ 0 := by omega
      simp [Option.filter, hpositive]
  have hindex : bi * blocksPerRow + bj < leaves.length := by
    rw [hleaves]
    nlinarith
  rw [WorkspaceTree.getPath, hbpr]
  exact h.pathOf_eq hindex

theorem verifyPath_honestPath {leaf root : Digest} (hleaf : leaves[index]? = some leaf)
    (hroot : OddMerkle.root (node parent) leaves = some root) :
    verifyPath parent root.bytes leaf ⟨index, honestSiblings parent leaves index⟩ = true := by
  have hclimb := OddMerkle.climbPath_path (node parent) hleaf
  rw [hroot, ← FlatMerkle.foldl_withSides] at hclimb
  rw [verifyPath, honestSiblings, List.foldl_map, decide_eq_true_eq]
  exact congrArg Digest.bytes (Option.some.inj hclimb).symm

theorem length_honestSiblings (h : index < leaves.length) :
    (honestSiblings parent leaves index).length = FlatMerkle.height leaves.length := by
  rw [honestSiblings, List.length_map, FlatMerkle.length_withSides,
    FlatMerkle.length_path_eq_height (node parent) h]

end Verathos.WorkspaceProof
