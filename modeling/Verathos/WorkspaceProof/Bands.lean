import Verathos.WorkspaceProof.Openings

/-!
# Openings of the workspace trees

The blocks of square matrices, their trees and the openings of the trees.

* `unpackStateBlock_stateBlockBytes`: the bytes of a state block are taken apart into its rows;
* `strictMerklePath_serialize`: the serialized path of a leaf passes the strict checks;
* `exists_fromStateI8Matrices`, `exists_fromMatrixI32`: the trees of matrices of any number of
  blocks;
* `transitionBands_stateOpenings`: the openings of the required blocks give the bands of the
  matrices;
* `verifyQOpening_qBlockJson`: the opening of the block of Q gives the block.

The code that makes the openings is not part of the repository: `stateOpening` and `qBlockJson` say
what the checks expect of it.
-/

namespace Verathos.WorkspaceProof

open RowMajor (HasShape)

/-! ## State blocks as bytes -/

section Packing

variable {blockSize : ℕ} {a b : List (List Int8)}

theorem hasShape_stateRows (ha : HasShape blockSize blockSize a)
    (hb : HasShape blockSize blockSize b) :
    HasShape blockSize (2 * blockSize) (List.zipWith (fun aRow bRow =>
      aRow.map Int8.toUInt8 ++ bRow.map Int8.toUInt8) a b) := by
  refine ⟨by rw [List.length_zipWith, ha.1, hb.1, min_self], fun row hrow => ?_⟩
  obtain ⟨r, hr, rfl⟩ := List.mem_iff_getElem.mp hrow
  rw [List.getElem_zipWith, List.length_append, List.length_map, List.length_map,
    ha.2 _ (List.getElem_mem _), hb.2 _ (List.getElem_mem _), two_mul]

theorem length_stateBlockBytes (ha : HasShape blockSize blockSize a)
    (hb : HasShape blockSize blockSize b) :
    (stateBlockBytes a b).length = 2 * blockSize * blockSize := by
  rw [stateBlockBytes, RowMajor.length_flatten (hasShape_stateRows ha hb)]
  ring

theorem map_toInt8_toUInt8 (row : List Int8) : (row.map Int8.toUInt8).map UInt8.toInt8 = row := by
  rw [List.map_map]
  exact (List.map_congr_left fun value _ => Int8.toInt8_toUInt8 value).trans (List.map_id row)

theorem signedRow_stateBlockBytes (ha : HasShape blockSize blockSize a)
    (hb : HasShape blockSize blockSize b) {r : ℕ} {aRow bRow : List Int8} (haRow : a[r]? = some aRow)
    (hbRow : b[r]? = some bRow) :
    signedRow (stateBlockBytes a b) blockSize (2 * r) = aRow ∧
      signedRow (stateBlockBytes a b) blockSize (2 * r + 1) = bRow := by
  have hwidth : (aRow.map Int8.toUInt8).length = blockSize := by
    rw [List.length_map, ha.2 aRow (List.mem_of_getElem? haRow)]
  have hwidth' : (bRow.map Int8.toUInt8).length = blockSize := by
    rw [List.length_map, hb.2 bRow (List.mem_of_getElem? hbRow)]
  have hpair : ((stateBlockBytes a b).drop (r * (2 * blockSize))).take (2 * blockSize) =
      aRow.map Int8.toUInt8 ++ bRow.map Int8.toUInt8 := by
    apply RowMajor.take_drop_flatten (hasShape_stateRows ha hb).2
    rw [List.getElem?_zipWith, haRow, hbRow]
  constructor
  · have hrow : ((stateBlockBytes a b).drop (2 * r * blockSize)).take blockSize =
        aRow.map Int8.toUInt8 := by
      rw [show 2 * r * blockSize = r * (2 * blockSize) by ring]
      have htake := congrArg (List.take blockSize) hpair
      rwa [List.take_take, min_eq_left (by omega), List.take_left' hwidth] at htake
    rw [signedRow, hrow, map_toInt8_toUInt8]
  · have hrow : ((stateBlockBytes a b).drop ((2 * r + 1) * blockSize)).take blockSize =
        bRow.map Int8.toUInt8 := by
      rw [show (2 * r + 1) * blockSize = r * (2 * blockSize) + blockSize by ring,
        ← List.drop_drop]
      have hdrop := congrArg (List.drop blockSize) hpair
      rw [List.drop_take, List.drop_left' hwidth] at hdrop
      rwa [show 2 * blockSize - blockSize = blockSize by omega] at hdrop
    rw [signedRow, hrow, map_toInt8_toUInt8]

theorem unpackStateBlock_stateBlockBytes (ha : HasShape blockSize blockSize a)
    (hb : HasShape blockSize blockSize b) :
    unpackStateBlock blockSize (stateBlockBytes a b) = ⟨a, b⟩ := by
  have hrows (r : ℕ) (hr : r < blockSize) :=
    signedRow_stateBlockBytes ha hb (List.getElem?_eq_getElem (l := a) (i := r) (by rw [ha.1]; exact hr))
      (List.getElem?_eq_getElem (l := b) (i := r) (by rw [hb.1]; exact hr))
  rw [unpackStateBlock, StateBlock.mk.injEq]
  constructor
  · refine List.ext_getElem (by rw [List.length_map, List.length_range, ha.1]) fun r hr _ => ?_
    rw [List.length_map, List.length_range] at hr
    rw [List.getElem_map, List.getElem_range, (hrows r hr).1]
  · refine List.ext_getElem (by rw [List.length_map, List.length_range, hb.1]) fun r hr _ => ?_
    rw [List.length_map, List.length_range] at hr
    rw [List.getElem_map, List.getElem_range, (hrows r hr).2]

theorem hasShape_unpackStateBlock {raw : Bytes} (hraw : raw.length = 2 * blockSize * blockSize) :
    HasShape blockSize blockSize (unpackStateBlock blockSize raw).aBlock ∧
      HasShape blockSize blockSize (unpackStateBlock blockSize raw).bBlock := by
  have hrow (row : ℕ) (h : row < 2 * blockSize) : (signedRow raw blockSize row).length = blockSize := by
    rw [signedRow, List.length_map]
    exact RowMajor.length_slice hraw h
  refine ⟨⟨by simp [unpackStateBlock], ?_⟩, ⟨by simp [unpackStateBlock], ?_⟩⟩
  · simp only [unpackStateBlock, List.forall_mem_map, List.mem_range]
    exact fun r hr => hrow _ (by omega)
  · simp only [unpackStateBlock, List.forall_mem_map, List.mem_range]
    exact fun r hr => hrow _ (by omega)

end Packing

/-! ## Serialized paths -/

section Paths

variable {parent : Bytes → Bytes → Digest} {leaves : List Digest} {tree : WorkspaceTree}
  {floatIs : List Char → ℤ → Bool}

theorem mappingOf_obj {fields : Finset String} {members : List (String × Json)}
    (hnodup : (members.map Prod.fst).Nodup) (hfields : (members.map Prod.fst).toFinset = fields) :
    mappingOf fields (.obj members) = some (Json.dict members) := by
  have hentries : (Json.dict members).entries = members := OrderedDict.entries_ofList hnodup
  rw [mappingOf]
  exact if_pos (hentries.symm ▸ hfields)

theorem get_dict {members : List (String × Json)} {key : String} {value : Json}
    (hnodup : (members.map Prod.fst).Nodup) (hmem : (key, value) ∈ members) :
    (Json.dict members).get key = some value := by
  have hentries : (Json.dict members).entries = members := OrderedDict.entries_ofList hnodup
  rw [OrderedDict.get_eq_some, hentries]
  exact hmem

theorem strictSibling_eq (digest : Digest) (nodeIndex : ℕ) :
    strictSibling nodeIndex
        (.arr [.str (Hex.toText digest.bytes), .bool (decide (nodeIndex % 2 = 1))]) =
      .ok (digest.bytes, decide (nodeIndex % 2 = 1)) := by
  have hlength : ¬ (Hex.toText digest.bytes).length ≠ 64 := by
    rw [Hex.length_toText, digest.length_eq]
    decide
  rw [strictSibling, failIf_of_not hlength, Hex.ofText_toText]
  dsimp only
  rw [failIf_of_not (not_not_intro rfl)]
  rfl

theorem strictSiblings_eq (siblings : List Digest) (nodeIndex : ℕ) :
    strictSiblings nodeIndex (((FlatMerkle.withSides nodeIndex siblings).map fun step =>
        (step.1.bytes, step.2)).map fun step => .arr [.str (Hex.toText step.1), .bool step.2]) =
      .ok ((FlatMerkle.withSides nodeIndex siblings).map fun step => (step.1.bytes, step.2)) := by
  induction siblings generalizing nodeIndex with
  | nil => rfl
  | cons sibling rest ih =>
    simp only [FlatMerkle.withSides, List.map_cons, strictSiblings, bind_eq_ok]
    exact ⟨_, strictSibling_eq sibling nodeIndex, _, ih _, rfl⟩

theorem strictMerklePath_serialize {index : ℕ} (hindex : index < leaves.length) :
    strictMerklePath floatIs
        (some (serializeMerklePath ⟨index, honestSiblings parent leaves index⟩)) index
        leaves.length = .ok ⟨index, honestSiblings parent leaves index⟩ := by
  set siblings : List Json := (honestSiblings parent leaves index).map fun step =>
    .arr [.str (Hex.toText step.1), .bool step.2] with hsiblings
  set members : List (String × Json) :=
    [("leaf_index", .int index), ("siblings", .arr siblings)] with hmembers
  have hnodup : (members.map Prod.fst).Nodup := (by decide : ["leaf_index", "siblings"].Nodup)
  have hmapping : mappingOf {"leaf_index", "siblings"} (.obj members) = some (Json.dict members) :=
    mappingOf_obj hnodup rfl
  have hleaf : (Json.dict members).get "leaf_index" = some (.int index) :=
    get_dict hnodup (by simp [hmembers])
  have hitems : (Json.dict members).get "siblings" = some (.arr siblings) :=
    get_dict hnodup (by simp [hmembers])
  have hlength : ¬ siblings.length ≠ treeHeight leaves.length := by
    rw [hsiblings, List.length_map, length_honestSiblings hindex]
    exact not_not_intro rfl
  have hleafIndex : ¬ isLeafIndex floatIs index (some (.int index)) = false := by
    simp [isLeafIndex]
  rw [strictMerklePath, serializeMerklePath, ← hsiblings, ← hmembers, Option.bind_some, hmapping]
  dsimp only
  rw [hleaf, failIf_of_not hleafIndex, hitems]
  dsimp only
  rw [failIf_of_not hlength]
  exact bind_eq_ok.mpr ⟨_, rfl, bind_eq_ok.mpr ⟨_, rfl, bind_eq_ok.mpr
    ⟨_, strictSiblings_eq _ index, rfl⟩⟩⟩

end Paths

/-! ## The trees of matrices -/

section Matrices

variable {sha256 : Bytes → Digest} {count blockSize : ℕ}

theorem length_blockCoordinates (count : ℕ) : (blockCoordinates count).length = count * count := by
  rw [blockCoordinates, List.flatMap_def]
  have hshape : RowMajor.HasShape count count
      ((List.range count).map fun bi => (List.range count).map fun bj => (bi, bj)) :=
    ⟨by simp, by simp⟩
  exact RowMajor.length_flatten hshape

theorem getElem?_blockCoordinates {bi bj : ℕ} (hbi : bi < count) (hbj : bj < count) :
    (blockCoordinates count)[bi * count + bj]? = some (bi, bj) := by
  have hrows : ∀ row ∈ (List.range count).map fun bi => (List.range count).map fun bj => (bi, bj),
      row.length = count := by simp
  have hrow : ((List.range count).map fun bi => (List.range count).map fun bj => (bi, bj))[bi]? =
      some ((List.range count).map fun bj => (bi, bj)) := by
    rw [List.getElem?_map, List.getElem?_range hbi, Option.map_some]
  have hslice := congrArg (·[bj]?) (RowMajor.take_drop_flatten hrows hrow)
  rw [List.getElem?_take_of_lt hbj, List.getElem?_drop, List.getElem?_map,
    List.getElem?_range hbj, Option.map_some] at hslice
  rw [blockCoordinates, List.flatMap_def, hslice]

theorem mem_blockCoordinates {block : ℕ × ℕ} (h : block ∈ blockCoordinates count) :
    block.1 < count ∧ block.2 < count := by
  simp only [blockCoordinates, List.mem_flatMap, List.mem_map, List.mem_range] at h
  obtain ⟨bi, hbi, bj, hbj, rfl⟩ := h
  exact ⟨hbi, hbj⟩

theorem length_of_hasShape {α : Type} {matrix : List (List α)} (hcount : 0 < count)
    (hsize : 0 < blockSize) (h : HasShape (count * blockSize) (count * blockSize) matrix) :
    matrix.length ≠ 0 ∧ matrix.length % blockSize = 0 ∧ matrix.length / blockSize = count ∧
      ¬ ∃ row ∈ matrix, row.length ≠ matrix.length := by
  have hpos : 0 < count * blockSize := Nat.mul_pos hcount hsize
  rw [h.1]
  refine ⟨hpos.ne', Nat.mul_mod_left _ _, Nat.mul_div_cancel _ hsize, ?_⟩
  rintro ⟨row, hrow, hne⟩
  exact hne (h.2 row hrow)

/-! ### Blocks of A and B -/

/-- The leaf of a state block. -/
def stateLeaf (sha256 : Bytes → Digest) (aBlock bBlock : List (List Int8)) : Digest :=
  sha256 (leafMessages sha256 (fixedTag workspaceStateBlockTag) (fixedTag workspaceStateLeafTag)
    (stateBlockBytes aBlock bBlock)).2

theorem arrayShape_eq {α : Type} {rows columns : ℕ} {matrix : List (List α)} (hrows : 0 < rows)
    (h : HasShape rows columns matrix) : arrayShape matrix = .ok [rows, columns] := by
  obtain ⟨hlength, hwidth⟩ := h
  cases matrix with
  | nil => exact absurd hlength hrows.ne
  | cons row matrix =>
    obtain ⟨hrow, hrest⟩ := List.forall_mem_cons.mp hwidth
    have hsame : ¬ ∃ other ∈ matrix, other.length ≠ row.length := by
      rintro ⟨other, hother, hne⟩
      exact hne ((hrest other hother).trans hrow.symm)
    rw [arrayShape, failIf_of_not hsame, ← hlength, ← hrow]
    rfl

theorem workspaceStateBlockHashI8_eq {aBlock bBlock : List (List Int8)} (hsize : 0 < blockSize)
    (ha : HasShape blockSize blockSize aBlock) (hb : HasShape blockSize blockSize bBlock) :
    workspaceStateBlockHashI8 sha256 aBlock bBlock = .ok (stateLeaf sha256 aBlock bBlock) := by
  have hsquare : checkStateBlockShape aBlock bBlock = .ok () := by
    have hne : ¬ 0 ∈ [blockSize, blockSize] := by simp; omega
    rw [checkStateBlockShape, arrayShape_eq hsize ha, arrayShape_eq hsize hb]
    exact bind_eq_ok.mpr ⟨_, rfl, bind_eq_ok.mpr ⟨_, rfl, bind_eq_ok.mpr
      ⟨_, failIf_of_not (by simp) _, failIf_of_not hne _⟩⟩⟩
  rw [workspaceStateBlockHashI8, hsquare]
  rfl

/-- The leaves of a pair of matrices. -/
def stateLeafHashes (sha256 : Bytes → Digest) (aMatrix bMatrix : List (List Int8))
    (blockSize count : ℕ) : List Digest :=
  (blockCoordinates count).map fun block => stateLeaf sha256
    (blockRows aMatrix blockSize block.1 block.2) (blockRows bMatrix blockSize block.1 block.2)

variable (sha256) in
theorem exists_fromStateI8Matrices {aMatrix bMatrix : List (List Int8)} (hcount : 0 < count)
    (hsize : 0 < blockSize) (ha : HasShape (count * blockSize) (count * blockSize) aMatrix)
    (hb : HasShape (count * blockSize) (count * blockSize) bMatrix) :
    ∃ tree, fromStateI8Matrices sha256 aMatrix bMatrix blockSize = .ok tree ∧
      stateLeaves sha256 aMatrix bMatrix blockSize =
        .ok (stateLeafHashes sha256 aMatrix bMatrix blockSize count) ∧
      TreeOf (workspaceStateMerkleParent sha256)
        (stateLeafHashes sha256 aMatrix bMatrix blockSize count) tree := by
  obtain ⟨hpos, hmod, hdiv, hsquare⟩ := length_of_hasShape hcount hsize ha
  obtain ⟨-, -, -, hsquare'⟩ := length_of_hasShape hcount hsize hb
  have hsame : bMatrix.length = aMatrix.length := hb.1.trans ha.1.symm
  have hleaves : stateLeaves sha256 aMatrix bMatrix blockSize =
      .ok (stateLeafHashes sha256 aMatrix bMatrix blockSize count) := by
    rw [stateLeaves, hdiv]
    refine mapM_eq_ok_map fun block hblock => ?_
    obtain ⟨hbi, hbj⟩ := mem_blockCoordinates hblock
    exact workspaceStateBlockHashI8_eq hsize (RowMajor.hasShape_block ha hbi hbj)
      (RowMajor.hasShape_block hb hbi hbj)
  have hne : stateLeafHashes sha256 aMatrix bMatrix blockSize count ≠ [] := by
    rw [← List.length_pos_iff, stateLeafHashes, List.length_map, length_blockCoordinates]
    exact Nat.mul_pos hcount hcount
  obtain ⟨tree, hnew, htree⟩ := exists_treeOf (workspaceStateMerkleParent sha256) hne
  refine ⟨tree, ?_, hleaves, htree⟩
  rw [fromStateI8Matrices, failIf_of_not (by omega), failIf_of_not (not_or.mpr ⟨hsquare, hsame ▸ hsquare'⟩),
    failIf_of_not hsize.ne', failIf_of_not (not_not_intro hmod)]
  exact bind_eq_ok.mpr ⟨_, rfl, bind_eq_ok.mpr ⟨_, rfl, bind_eq_ok.mpr ⟨_, rfl,
    bind_eq_ok.mpr ⟨_, rfl, bind_eq_ok.mpr ⟨_, hleaves, hnew⟩⟩⟩⟩⟩

/-! ### Blocks of Q -/

/-- A matrix of 32-bit integers. -/
def IsI32 (matrix : List (List ℤ)) : Prop := ∀ row ∈ matrix, ∀ value ∈ row, -2 ^ 31 ≤ value ∧ value < 2 ^ 31

theorem packI32_eq_ok {value : ℤ} {bytes : Bytes} : packI32 value = .ok bytes ↔
    (-2 ^ 31 ≤ value ∧ value < 2 ^ 31) ∧ bytes = LittleEndian.toBytesSigned 4 value := by
  simp only [packI32, bind_eq_ok, failIf_eq_ok, pure_eq_ok, exists_const, not_or, not_lt, not_le,
    ge_iff_le, eq_comm (a := bytes)]

theorem qBlockBytes_eq_ok {blockRows : List (List ℤ)} {bytes : Bytes} :
    qBlockBytes blockRows = .ok bytes ↔ IsI32 blockRows ∧
      bytes = (blockRows.flatten.map (LittleEndian.toBytesSigned 4)).flatten := by
  have hvalues : (∀ value ∈ blockRows.flatten, -2 ^ 31 ≤ value ∧ value < 2 ^ 31) ↔
      IsI32 blockRows := by
    simp only [IsI32, List.mem_flatten]
    exact ⟨fun h row hrow value hvalue => h value ⟨row, hrow, hvalue⟩,
      fun h value ⟨row, hrow, hvalue⟩ => h row hrow value hvalue⟩
  simp only [qBlockBytes, bind_eq_ok, mapM_eq_ok_of_iff fun value bytes => packI32_eq_ok, hvalues,
    pure_eq_ok]
  constructor
  · rintro ⟨_, ⟨hblock, rfl⟩, rfl⟩
    exact ⟨hblock, rfl⟩
  · rintro ⟨hblock, rfl⟩
    exact ⟨_, ⟨hblock, rfl⟩, rfl⟩

/-- The leaf of a block of Q. -/
def qLeaf (sha256 : Bytes → Digest) (blockRows : List (List ℤ)) : Digest :=
  sha256 (leafMessages sha256 workspaceQBlockTag workspaceQLeafTag
    (blockRows.flatten.map (LittleEndian.toBytesSigned 4)).flatten).2

theorem workspaceQBlockHashI32_eq_ok {blockRows : List (List ℤ)} {leaf : Digest} :
    workspaceQBlockHashI32 sha256 blockRows = .ok leaf ↔
      IsI32 blockRows ∧ leaf = qLeaf sha256 blockRows := by
  simp only [workspaceQBlockHashI32, bind_eq_ok, qBlockBytes_eq_ok, pure_eq_ok]
  constructor
  · rintro ⟨_, ⟨hblock, rfl⟩, rfl⟩
    exact ⟨hblock, rfl⟩
  · rintro ⟨hblock, rfl⟩
    exact ⟨_, ⟨hblock, rfl⟩, rfl⟩

/-- The leaves of a matrix. -/
def qLeafHashes (sha256 : Bytes → Digest) (matrix : List (List ℤ)) (blockSize count : ℕ) :
    List Digest :=
  (blockCoordinates count).map fun block =>
    qLeaf sha256 (blockRows matrix blockSize block.1 block.2)

theorem IsI32.block {matrix : List (List ℤ)} (h : IsI32 matrix) (blockSize bi bj : ℕ) :
    IsI32 (blockRows matrix blockSize bi bj) := by
  intro row hrow value hvalue
  obtain ⟨source, hsource, rfl⟩ := List.mem_map.mp hrow
  exact h source (List.mem_of_mem_drop (List.mem_of_mem_take hsource)) value
    (List.mem_of_mem_drop (List.mem_of_mem_take hvalue))

variable (sha256) in
theorem exists_fromMatrixI32 {matrix : List (List ℤ)} (hcount : 0 < count) (hsize : 0 < blockSize)
    (h : HasShape (count * blockSize) (count * blockSize) matrix) (hvalues : IsI32 matrix) :
    ∃ tree, fromMatrixI32 sha256 matrix blockSize = .ok tree ∧
      qLeaves sha256 matrix blockSize = .ok (qLeafHashes sha256 matrix blockSize count) ∧
      TreeOf (workspaceMerkleParent sha256) (qLeafHashes sha256 matrix blockSize count) tree := by
  obtain ⟨hpos, hmod, hdiv, hsquare⟩ := length_of_hasShape hcount hsize h
  have hleaves : qLeaves sha256 matrix blockSize =
      .ok (qLeafHashes sha256 matrix blockSize count) := by
    rw [qLeaves, hdiv]
    exact mapM_eq_ok_map fun block _ => workspaceQBlockHashI32_eq_ok.mpr
      ⟨hvalues.block blockSize block.1 block.2, rfl⟩
  have hne : qLeafHashes sha256 matrix blockSize count ≠ [] := by
    rw [← List.length_pos_iff, qLeafHashes, List.length_map, length_blockCoordinates]
    exact Nat.mul_pos hcount hcount
  obtain ⟨tree, hnew, htree⟩ := exists_treeOf (workspaceMerkleParent sha256) hne
  refine ⟨tree, ?_, hleaves, htree⟩
  rw [fromMatrixI32, failIf_of_not (not_or.mpr ⟨hpos, hsquare⟩), failIf_of_not hsize.ne',
    failIf_of_not (not_not_intro hmod)]
  exact bind_eq_ok.mpr ⟨_, rfl, bind_eq_ok.mpr ⟨_, rfl, bind_eq_ok.mpr ⟨_, rfl,
    bind_eq_ok.mpr ⟨_, hleaves, hnew⟩⟩⟩⟩

end Matrices

/-! ## Openings of the trees -/

section Openings

variable {sha256 : Bytes → Digest} {floatIs : List Char → ℤ → Bool} {count blockSize : ℕ}

/-- The state block with an index. -/
def stateBlockAt (aMatrix bMatrix : List (List Int8)) (blockSize count index : ℕ) : StateBlock :=
  ⟨blockRows aMatrix blockSize (index / count) (index % count),
    blockRows bMatrix blockSize (index / count) (index % count)⟩

/-- The text of a packed state block. -/
def packedText (block : StateBlock) : String :=
  String.ofList (base64Prefix ++ Base64.encode (stateBlockBytes block.aBlock block.bBlock))

/-- The opening of a state block: its index, its text and its serialized path. -/
def stateOpening (aMatrix bMatrix : List (List Int8)) (blockSize : ℕ) (tree : WorkspaceTree)
    (index : ℕ) : Opened Json := do
  let path ← tree.getStatePath index
  return .obj [("block_index", .int index),
    ("state_block_i8",
      .str (packedText (stateBlockAt aMatrix bMatrix blockSize (aMatrix.length / blockSize) index))),
    ("merkle_path", serializeMerklePath path)]

theorem packedStateBlockI8_packedText {block : StateBlock}
    (ha : HasShape blockSize blockSize block.aBlock)
    (hb : HasShape blockSize blockSize block.bBlock) :
    packedStateBlockI8 (some (.str (packedText block))) blockSize = .ok block := by
  have htext : (packedText block).toList =
      base64Prefix ++ Base64.encode (stateBlockBytes block.aBlock block.bBlock) :=
    String.toList_ofList
  have hstarts : ¬ base64Prefix.isPrefixOf (packedText block).toList = false := by
    rw [htext, Bool.not_eq_false, List.isPrefixOf_iff_prefix]
    exact List.prefix_append _ _
  have hlength : ¬ (stateBlockBytes block.aBlock block.bBlock).length ≠ 2 * blockSize * blockSize :=
    not_not_intro (length_stateBlockBytes ha hb)
  rw [packedStateBlockI8, failIf_of_not hstarts, htext, List.drop_left]
  refine bind_eq_ok.mpr ⟨_, rfl, ?_⟩
  dsimp only
  rw [Base64.decode_encode]
  dsimp only
  rw [failIf_of_not (not_not_intro rfl), failIf_of_not hlength,
    unpackStateBlock_stateBlockBytes ha hb]
  rfl

variable {index : ℕ}

theorem pos_of_lt_mul_self (h : index < count * count) : 0 < count :=
  Nat.pos_of_mul_pos_left (Nat.zero_lt_of_lt h)

theorem getElem?_map_blockCoordinates {β : Type} (f : ℕ × ℕ → β) (h : index < count * count) :
    ((blockCoordinates count).map f)[index]? = some (f (index / count, index % count)) := by
  have hbi : index / count < count := Nat.div_lt_of_lt_mul h
  have hbj : index % count < count := Nat.mod_lt _ (pos_of_lt_mul_self h)
  have hcoordinates := getElem?_blockCoordinates hbi hbj
  rw [Nat.div_add_mod'] at hcoordinates
  rw [List.getElem?_map, hcoordinates, Option.map_some]

theorem length_stateLeafHashes (aMatrix bMatrix : List (List Int8)) :
    (stateLeafHashes sha256 aMatrix bMatrix blockSize count).length = count * count := by
  rw [stateLeafHashes, List.length_map, length_blockCoordinates]

theorem length_qLeafHashes (matrix : List (List ℤ)) :
    (qLeafHashes sha256 matrix blockSize count).length = count * count := by
  rw [qLeafHashes, List.length_map, length_blockCoordinates]

theorem lt_of_mem_required {context : CapacityGemmV2Context}
    (h : index ∈ requiredTransitionStateBlocks context) :
    index < context.blocksPerRow * context.blocksPerRow := by
  have hrow : context.rowBlock < context.blocksPerRow := context.rowBlock_lt
  have hcolumn : context.columnBlock < context.blocksPerRow := context.columnBlock_lt
  unfold requiredTransitionStateBlocks at h
  split_ifs at h with hmode
  · exact absurd h List.not_mem_nil
  · simp only [Finset.mem_sort, Finset.mem_union, Finset.mem_image, Finset.mem_range] at h
    rcases h with ⟨column, hlt, rfl⟩ | ⟨row, hlt, rfl⟩
    · nlinarith
    · nlinarith

theorem mem_required {context : CapacityGemmV2Context} (hmode : context.transitionMixRounds ≠ 0)
    {i : ℕ} (hi : i < context.blocksPerRow) :
    context.rowBlock * context.blocksPerRow + i ∈ requiredTransitionStateBlocks context ∧
      i * context.blocksPerRow + context.columnBlock ∈ requiredTransitionStateBlocks context := by
  rw [requiredTransitionStateBlocks, if_neg hmode]
  simp only [Finset.mem_sort, Finset.mem_union, Finset.mem_image, Finset.mem_range]
  exact ⟨.inl ⟨i, hi, rfl⟩, .inr ⟨i, hi, rfl⟩⟩

theorem nodup_required (context : CapacityGemmV2Context) :
    (requiredTransitionStateBlocks context).Nodup := by
  unfold requiredTransitionStateBlocks
  split_ifs
  · exact List.nodup_nil
  · exact Finset.sort_nodup _ _

variable {context : CapacityGemmV2Context} {aMatrix bMatrix : List (List Int8)}
  {tree : WorkspaceTree} {root : Digest}

theorem openStateBlock_stateOpening (hsize : context.blockSize = blockSize)
    (hcount : context.blocksPerRow = count)
    (ha : HasShape (count * blockSize) (count * blockSize) aMatrix)
    (hb : HasShape (count * blockSize) (count * blockSize) bMatrix)
    (htree : TreeOf (workspaceStateMerkleParent sha256)
      (stateLeafHashes sha256 aMatrix bMatrix blockSize count) tree) (hroot : tree.root = .ok root)
    (hstate : context.stateRoot = root.bytes) (hindex : index < count * count) :
    ∃ opening, stateOpening aMatrix bMatrix blockSize tree index = .ok opening ∧
      openStateBlock sha256 floatIs context opening index =
        .ok (index, stateBlockAt aMatrix bMatrix blockSize count index) := by
  have hpos := pos_of_lt_mul_self hindex
  have hbi : index / count < count := Nat.div_lt_of_lt_mul hindex
  have hbj : index % count < count := Nat.mod_lt _ hpos
  have hsize' : 0 < blockSize := hsize ▸ Nat.zero_lt_of_lt context.two_le_blockSize
  set leaves := stateLeafHashes sha256 aMatrix bMatrix blockSize count with hleaves
  have hlength : leaves.length = count * count := length_stateLeafHashes aMatrix bMatrix
  have hdiv : aMatrix.length / blockSize = count := (length_of_hasShape hpos hsize' ha).2.2.1
  set block := stateBlockAt aMatrix bMatrix blockSize count index with hblock
  have hshape : HasShape blockSize blockSize block.aBlock := RowMajor.hasShape_block ha hbi hbj
  have hshape' : HasShape blockSize blockSize block.bBlock := RowMajor.hasShape_block hb hbi hbj
  set path : MerklePath := ⟨index, honestSiblings (workspaceStateMerkleParent sha256) leaves index⟩
    with hpath
  have hgetPath : tree.getStatePath index = .ok path := htree.getStatePath_eq (hlength ▸ hindex)
  set members : List (String × Json) := [("block_index", .int index),
    ("state_block_i8", .str (packedText block)), ("merkle_path", serializeMerklePath path)]
    with hmembers
  refine ⟨.obj members, ?_, ?_⟩
  · rw [stateOpening, hgetPath, hdiv]
    rfl
  have hnodup : (members.map Prod.fst).Nodup :=
    (by decide : ["block_index", "state_block_i8", "merkle_path"].Nodup)
  have hmapping : mappingOf {"block_index", "state_block_i8", "merkle_path"} (.obj members) =
      some (Json.dict members) := mappingOf_obj hnodup rfl
  have hgetIndex : (Json.dict members).get "block_index" = some (.int index) :=
    get_dict hnodup (by simp [hmembers])
  have hgetBlock : (Json.dict members).get "state_block_i8" = some (.str (packedText block)) :=
    get_dict hnodup (by simp [hmembers])
  have hgetMerkle : (Json.dict members).get "merkle_path" = some (serializeMerklePath path) :=
    get_dict hnodup (by simp [hmembers])
  have hread : readStateOpening floatIs context (.obj members) index = .ok (block, path) := by
    rw [readStateOpening, hmapping]
    dsimp only
    rw [hgetIndex]
    dsimp only
    rw [hgetBlock, hgetMerkle, hsize, hcount, ← hlength, failIf_of_not (not_not_intro rfl)]
    exact bind_eq_ok.mpr ⟨_, rfl, bind_eq_ok.mpr ⟨_, packedStateBlockI8_packedText hshape hshape',
      bind_eq_ok.mpr ⟨_, strictMerklePath_serialize (hlength ▸ hindex), rfl⟩⟩⟩
  obtain ⟨root', hroot', -, hleavesRoot⟩ := htree.root_eq ""
  obtain rfl : root' = root := Except.ok.inj (hroot'.symm.trans hroot)
  have hleaf : leaves[index]? = some (stateLeaf sha256 block.aBlock block.bBlock) :=
    getElem?_map_blockCoordinates _ hindex
  have hverify : verifyWorkspaceStateMerklePath sha256 context.stateRoot
      (stateLeaf sha256 block.aBlock block.bBlock) path = true := by
    rw [hstate]
    exact verifyPath_honestPath hleaf hleavesRoot
  rw [openStateBlock, hread]
  refine bind_eq_ok.mpr ⟨_, rfl, bind_eq_ok.mpr
    ⟨_, workspaceStateBlockHashI8_eq hsize' hshape hshape', ?_⟩⟩
  rw [failIf_of_not (by rw [hverify]; decide)]
  rfl

theorem bandsOf_stateBlocks (hsize : context.blockSize = blockSize)
    (hcount : context.blocksPerRow = count)
    (ha : HasShape (count * blockSize) (count * blockSize) aMatrix)
    (hb : HasShape (count * blockSize) (count * blockSize) bMatrix)
    (hmode : context.transitionMixRounds ≠ 0) :
    bandsOf context (.ofList ((requiredTransitionStateBlocks context).map fun index =>
        (index, stateBlockAt aMatrix bMatrix blockSize count index))) =
      .ok (RowMajor.rowBand aMatrix blockSize context.rowBlock,
        RowMajor.columnBand bMatrix blockSize context.columnBlock) := by
  subst hsize hcount
  set opened : List (ℕ × StateBlock) := (requiredTransitionStateBlocks context).map fun index =>
    (index, stateBlockAt aMatrix bMatrix context.blockSize context.blocksPerRow index) with hopened
  have hnodup : (opened.map Prod.fst).Nodup := by
    rw [hopened, List.map_map]
    exact (List.map_id _).symm ▸ nodup_required context
  have hat (index : ℕ) (hindex : index ∈ requiredTransitionStateBlocks context) :
      openedAt (.ofList opened) index =
        .ok (stateBlockAt aMatrix bMatrix context.blockSize context.blocksPerRow index) := by
    have hget : (OrderedDict.ofList opened).get index =
        some (stateBlockAt aMatrix bMatrix context.blockSize context.blocksPerRow index) := by
      rw [OrderedDict.get_eq_some, OrderedDict.entries_ofList hnodup]
      exact List.mem_map_of_mem hindex
    rw [openedAt, hget]
  have hblock (bi bj : ℕ) (hbj : bj < context.blocksPerRow) :
      stateBlockAt aMatrix bMatrix context.blockSize context.blocksPerRow
          (bi * context.blocksPerRow + bj) =
        ⟨blockRows aMatrix context.blockSize bi bj, blockRows bMatrix context.blockSize bi bj⟩ := by
    have hdiv : (bi * context.blocksPerRow + bj) / context.blocksPerRow = bi := by
      rw [Nat.mul_comm, Nat.mul_add_div (by omega), Nat.div_eq_of_lt hbj, Nat.add_zero]
    have hmod : (bi * context.blocksPerRow + bj) % context.blocksPerRow = bj := by
      rw [Nat.mul_comm, Nat.mul_add_mod, Nat.mod_eq_of_lt hbj]
    rw [stateBlockAt, hdiv, hmod]
  have hx : ((List.range context.blocksPerRow).mapM fun blockColumn =>
      openedAt (.ofList opened) (context.rowBlock * context.blocksPerRow + blockColumn)) =
        .ok ((List.range context.blocksPerRow).map fun bj =>
          ⟨blockRows aMatrix context.blockSize context.rowBlock bj,
            blockRows bMatrix context.blockSize context.rowBlock bj⟩) := by
    refine mapM_eq_ok_map fun bj hbj => ?_
    rw [List.mem_range] at hbj
    rw [hat _ (mem_required hmode hbj).1, hblock _ _ hbj]
  have hw : ((List.range context.blocksPerRow).mapM fun blockRow =>
      openedAt (.ofList opened) (blockRow * context.blocksPerRow + context.columnBlock)) =
        .ok ((List.range context.blocksPerRow).map fun bi =>
          ⟨blockRows aMatrix context.blockSize bi context.columnBlock,
            blockRows bMatrix context.blockSize bi context.columnBlock⟩) := by
    refine mapM_eq_ok_map fun bi hbi => ?_
    rw [List.mem_range] at hbi
    rw [hat _ (mem_required hmode hbi).2, hblock _ _ context.columnBlock_lt]
  rw [bandsOf, hx, hw]
  refine bind_eq_ok.mpr ⟨_, rfl, bind_eq_ok.mpr ⟨_, rfl, ?_⟩⟩
  rw [List.map_map, List.map_map]
  refine congrArg Except.ok (Prod.ext ?_ ?_)
  · exact RowMajor.besides_blocks ha context.rowBlock_lt
  · exact RowMajor.flatten_blocks hb

theorem transitionBands_stateOpenings (hsize : context.blockSize = blockSize)
    (hcount : context.blocksPerRow = count)
    (ha : HasShape (count * blockSize) (count * blockSize) aMatrix)
    (hb : HasShape (count * blockSize) (count * blockSize) bMatrix)
    (htree : TreeOf (workspaceStateMerkleParent sha256)
      (stateLeafHashes sha256 aMatrix bMatrix blockSize count) tree)
    (hroot : tree.root = .ok root) (hstate : context.stateRoot = root.bytes)
    (hmode : context.transitionMixRounds ≠ 0) :
    ∃ openings, (requiredTransitionStateBlocks context).mapM
        (stateOpening aMatrix bMatrix blockSize tree) = .ok openings ∧
      transitionBands sha256 floatIs context (.arr openings) =
        .ok (RowMajor.rowBand aMatrix blockSize context.rowBlock,
          RowMajor.columnBand bMatrix blockSize context.columnBlock) := by
  have hopening (index : ℕ) (hindex : index ∈ requiredTransitionStateBlocks context) :
      ∃ opening, stateOpening aMatrix bMatrix blockSize tree index = .ok opening ∧
        openStateBlock sha256 floatIs context opening index =
          .ok (index, stateBlockAt aMatrix bMatrix blockSize count index) :=
    openStateBlock_stateOpening hsize hcount ha hb htree hroot hstate
      (hcount ▸ lt_of_mem_required hindex)
  have : Nonempty Json := ⟨.null⟩
  choose! opening hprove hopen using hopening
  refine ⟨(requiredTransitionStateBlocks context).map opening, mapM_eq_ok_map hprove, ?_⟩
  have hopened : ((((requiredTransitionStateBlocks context).map opening).zip
      (requiredTransitionStateBlocks context)).mapM fun entry =>
        openStateBlock sha256 floatIs context entry.1 entry.2) =
      .ok ((requiredTransitionStateBlocks context).map fun index =>
        (index, stateBlockAt aMatrix bMatrix blockSize count index)) := by
    have hzip : ((requiredTransitionStateBlocks context).map opening).zip
        (requiredTransitionStateBlocks context) =
          (requiredTransitionStateBlocks context).map fun index => (opening index, index) := by
      rw [List.zip, List.zipWith_map_left, List.zipWith_self]
    rw [hzip, List.mapM_map]
    exact mapM_eq_ok_map hopen
  rw [transitionBands]
  refine bind_eq_ok.mpr ⟨_, failIf_of_not (by simp) _, ?_⟩
  refine bind_eq_ok.mpr ⟨_, hopened, ?_⟩
  exact bandsOf_stateBlocks hsize hcount ha hb hmode

/-- The argument `q_block_i32` of a block. -/
def qBlockJson (block : List (List ℤ)) : Json := .arr (block.map fun row => .arr (row.map .int))

theorem integer_eq_ok {value : Json} {fieldName : String} {minimum maximum n : ℤ} :
    integer value fieldName minimum maximum = .ok n ↔
      value = .int n ∧ minimum ≤ n ∧ n ≤ maximum := by
  unfold integer
  split
  · rename_i m
    simp only [bind_eq_ok, failIf_eq_ok, pure_eq_ok, exists_const, Json.int.injEq, not_or, not_lt]
    constructor
    · rintro ⟨hbounds, rfl⟩
      exact ⟨rfl, hbounds⟩
    · rintro ⟨rfl, hbounds⟩
      exact ⟨hbounds, rfl⟩
  · rename_i hvalue
    simp only [reduceCtorEq, false_iff, not_and]
    exact fun h => absurd h (hvalue n)

theorem mapM_tupleOf (rows : List (List Json)) : (rows.map Json.arr).mapM tupleOf = some rows := by
  induction rows with
  | nil => rfl
  | cons row rows ih => simp [tupleOf, ih]

theorem strictI32Block_qBlockJson {block : List (List ℤ)} (h : HasShape blockSize blockSize block)
    (hvalues : IsI32 block) : strictI32Block (qBlockJson block) blockSize = .ok block := by
  set rows := block.map fun row => row.map Json.int with hrows
  have htuple : tupleRows (qBlockJson block) = .ok rows := by
    have hitems : block.map (fun row => Json.arr (row.map .int)) = rows.map .arr := by
      rw [hrows, List.map_map]
      rfl
    rw [tupleRows, qBlockJson, hitems, tupleOf, Option.bind_some, mapM_tupleOf]
  have hshape : ¬ (rows.length ≠ blockSize ∨ ∃ row ∈ rows, row.length ≠ blockSize) := by
    rw [hrows, List.length_map]
    rintro (hne | ⟨row, hrow, hne⟩)
    · exact hne h.1
    · obtain ⟨source, hsource, rfl⟩ := List.mem_map.mp hrow
      exact hne ((List.length_map _).trans (h.2 source hsource))
  have hnormalized : (rows.mapM fun row => row.mapM fun value =>
      integer value "Q block value" (-(1 <<< 31)) ((1 <<< 31) - 1)) = .ok block := by
    rw [hrows, List.mapM_map]
    nth_rewrite 2 [← List.map_id block]
    refine mapM_eq_ok_map fun row hrow => ?_
    rw [Function.comp_apply, List.mapM_map]
    nth_rewrite 2 [← List.map_id row]
    refine mapM_eq_ok_map fun value hvalue => ?_
    have hbounds := hvalues row hrow value hvalue
    refine integer_eq_ok.mpr ⟨rfl, ?_, ?_⟩
    · exact hbounds.1
    · exact Int.le_sub_one_of_lt hbounds.2
  rw [strictI32Block, htuple]
  exact bind_eq_ok.mpr ⟨_, rfl, bind_eq_ok.mpr ⟨_, rfl, bind_eq_ok.mpr
    ⟨_, failIf_of_not hshape _, hnormalized⟩⟩⟩

theorem verifyQOpening_qBlockJson {matrix : List (List ℤ)} (hsize : context.blockSize = blockSize)
    (hcount : context.blocksPerRow = count)
    (h : HasShape (count * blockSize) (count * blockSize) matrix) (hvalues : IsI32 matrix)
    (htree : TreeOf (workspaceMerkleParent sha256) (qLeafHashes sha256 matrix blockSize count) tree)
    (hroot : tree.root = .ok root) (hround : context.roundRoot = root) {given : Option ℕ}
    (hgiven : given = none ∨ given = some count) :
    ∃ path, tree.getPath context.rowBlock context.columnBlock given = .ok path ∧
      verifyQOpening sha256 floatIs context
          (qBlockJson (blockRows matrix blockSize context.rowBlock context.columnBlock))
          (some (serializeMerklePath path)) =
        .ok (blockRows matrix blockSize context.rowBlock context.columnBlock,
          qLeaf sha256 (blockRows matrix blockSize context.rowBlock context.columnBlock)) := by
  have hsize' : 0 < blockSize := hsize ▸ Nat.zero_lt_of_lt context.two_le_blockSize
  have hbi : context.rowBlock < count := hcount ▸ context.rowBlock_lt
  have hbj : context.columnBlock < count := hcount ▸ context.columnBlock_lt
  set leaves := qLeafHashes sha256 matrix blockSize count with hleaves
  have hlength : leaves.length = count * count := length_qLeafHashes matrix
  set block := blockRows matrix blockSize context.rowBlock context.columnBlock with hblock
  have hshape : HasShape blockSize blockSize block := RowMajor.hasShape_block h hbi hbj
  have hindex : context.blockIndex = context.rowBlock * count + context.columnBlock := by
    rw [CapacityGemmV2Context.blockIndex, hcount]
  have hlt : context.blockIndex < leaves.length := by
    rw [hindex, hlength]
    nlinarith
  have hleaf : leaves[context.blockIndex]? = some (qLeaf sha256 block) := by
    rw [hleaves, qLeafHashes, List.getElem?_map, hindex, getElem?_blockCoordinates hbi hbj,
      Option.map_some]
  obtain ⟨root', hroot', -, hleavesRoot⟩ := htree.root_eq ""
  obtain rfl : root' = root := Except.ok.inj (hroot'.symm.trans hroot)
  set path : MerklePath :=
    ⟨context.blockIndex, honestSiblings (workspaceMerkleParent sha256) leaves context.blockIndex⟩
    with hpath
  have hgetPath := htree.getPath_eq hlength hbi hbj hgiven
  rw [← hindex] at hgetPath
  have hstrict : strictMerklePath floatIs (some (serializeMerklePath path)) context.blockIndex
      (context.blocksPerRow * context.blocksPerRow) = .ok path := by
    rw [hcount, ← hlength]
    exact strictMerklePath_serialize hlt
  have hverify : verifyWorkspaceMerklePath sha256 context.roundRoot.bytes (qLeaf sha256 block) path =
      true := by
    rw [hround]
    exact verifyPath_honestPath hleaf hleavesRoot
  have hblockI32 : strictI32Block (qBlockJson block) context.blockSize = .ok block := by
    rw [hsize]
    exact strictI32Block_qBlockJson hshape (hvalues.block _ _ _)
  refine ⟨path, hgetPath, ?_⟩
  rw [verifyQOpening]
  refine bind_eq_ok.mpr ⟨_, hblockI32, bind_eq_ok.mpr ⟨_, hstrict, bind_eq_ok.mpr
    ⟨_, workspaceQBlockHashI32_eq_ok.mpr ⟨hvalues.block _ _ _, rfl⟩, ?_⟩⟩⟩
  rw [failIf_of_not (by rw [hverify]; decide)]
  rfl

end Openings

end Verathos.WorkspaceProof
