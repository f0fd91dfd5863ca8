import Verathos.Anchor.Defs

/-!
# Lane openings

A lane opening climbs twice: from the lane to the hash of its row, and from there to the root of the
commitment.

* `verifyExecutionAnchorLane_eq_ok`: what an accepted opening satisfies.
* `lane_binding_and_completeness`: two accepted openings of one lane return the same bytes unless the
  hashes that the two verifications compute collide, and every built opening is accepted and returns
  the bytes of the row.
-/

namespace Verathos.Anchor

/-! ## The two climbs -/

section Climb

variable (hashNode : Digest → Digest → Digest)

theorem foldl_zipIdx_eq_climbPath (laneIndex level : ℕ) (leaf : Digest) (siblings : List Digest) :
    (siblings.zipIdx level).foldl (fun rowLeaf (sibling, level) =>
      if laneIndex.testBit level then hashNode sibling rowLeaf else hashNode rowLeaf sibling) leaf =
      OddMerkle.climbPath hashNode leaf (laneIndex / 2 ^ level) siblings := by
  induction siblings generalizing level leaf with
  | nil => rfl
  | cons sibling rest ih =>
    have hnext : laneIndex / 2 ^ (level + 1) = laneIndex / 2 ^ level / 2 := by
      rw [pow_succ, Nat.div_div_eq_div_mul]
    rw [List.zipIdx_cons, List.foldl_cons, ih, OddMerkle.climbPath, hnext]
    simp only [Nat.testBit_eq_decide_div_mod_eq, decide_eq_true_eq]

theorem climbLanes_eq_climbPath (laneIndex : ℕ) (leaf : Digest) (siblings : List Digest) :
    climbLanes hashNode laneIndex leaf siblings =
      OddMerkle.climbPath hashNode leaf laneIndex siblings := by
  rw [climbLanes, foldl_zipIdx_eq_climbPath, pow_zero, Nat.div_one]

theorem rowPath_eq_ofSiblings (rowIndex : ℕ) (siblings : List Digest) :
    (⟨rowIndex, siblings.zipIdx.map fun (sibling, level) => (sibling, rowIndex.testBit level)⟩ :
      MerklePath) = .ofSiblings rowIndex siblings := by
  rw [MerklePath.ofSiblings, directions, List.zipIdx_eq_zip_range', ← List.range_eq_range',
    List.zip_map_right]
  rfl

theorem map_fst_ofSiblings (index : ℕ) (siblings : List Digest) :
    (MerklePath.ofSiblings index siblings).siblings.map Prod.fst = siblings := by
  rw [MerklePath.ofSiblings, List.map_fst_zip]
  simp [directions]

/-- The odd-duplicate tree over its list of leaf hashes, with paths that are verified by the side on
which each sibling is. -/
def MerkleLibrary.oddDuplicate (hashLeaf : Bytes → Digest) : MerkleLibrary where
  hashLeaf := hashLeaf
  hashNode := hashNode
  Tree := List Digest
  fromLeafHashes := id
  root leaves := (OddMerkle.root hashNode leaves).getD Digest.zero
  numLeaves := List.length
  getPath leaves index := .ofSiblings index (OddMerkle.path hashNode leaves index)
  verifyMerklePathWithLeafHash root leaf path := path.siblings.foldl
    (fun hash (sibling, isLeft) => if isLeft then hashNode sibling hash else hashNode hash sibling)
    leaf = root

theorem MerkleLibrary.oddDuplicate_lawful (hashLeaf : Bytes → Digest) :
    (MerkleLibrary.oddDuplicate hashNode hashLeaf).OddDuplicate where
  root_fromLeafHashes leaves hne := by
    obtain ⟨leaf, hleaf⟩ := List.exists_mem_of_ne_nil leaves hne
    obtain ⟨index, hindex⟩ := List.mem_iff_getElem?.mp hleaf
    simp only [oddDuplicate, id, OddMerkle.climbPath_path hashNode hindex, Option.getD_some]
  numLeaves_fromLeafHashes _ := rfl
  getPath_fromLeafHashes _ _ _ := rfl
  verify_ofSiblings root leaf index siblings := by
    rw [← rowPath_eq_ofSiblings, oddDuplicate, decide_eq_true_eq, List.foldl_map]
    have hclimb := foldl_zipIdx_eq_climbPath hashNode index 0 leaf siblings
    rw [pow_zero, Nat.div_one] at hclimb
    rw [← hclimb]

end Climb

section Verify

variable {lib : MerkleLibrary} {commitment : ExecutionAnchorCommitment}

/-- The hash of the row that an opening leads to. -/
def ExecutionAnchorLaneOpening.rowLeaf (lib : MerkleLibrary) (opening : ExecutionAnchorLaneOpening) :
    Digest :=
  OddMerkle.climbPath lib.hashNode (lib.hashLeaf opening.lane) opening.laneIndex
    opening.laneSiblingHashes

/-- The number of bytes of a lane that are not padding. -/
def laneDataLength (commitment : ExecutionAnchorCommitment) (laneIndex : ℕ) : ℕ :=
  min (laneBytes commitment.stageId) (commitment.rowWidth - laneIndex * laneBytes commitment.stageId)

/-- The facts that an accepted opening satisfies. -/
structure LaneAccepted (lib : MerkleLibrary) (commitment : ExecutionAnchorCommitment)
    (opening : ExecutionAnchorLaneOpening) : Prop where
  rowIndex_lt : opening.rowIndex < commitment.rowCount
  laneIndex_lt : opening.laneIndex < laneCount commitment
  length_lane : opening.lane.length = laneBytes commitment.stageId
  length_laneSiblings : opening.laneSiblingHashes.length = (laneCount commitment - 1).size
  length_rowSiblings : opening.rowSiblingHashes.length = (commitment.rowCount - 1).size
  padding : opening.lane.drop (laneDataLength commitment opening.laneIndex) =
    List.replicate (laneBytes commitment.stageId - laneDataLength commitment opening.laneIndex) 0
  root : OddMerkle.climbPath lib.hashNode (opening.rowLeaf lib) opening.rowIndex
    opening.rowSiblingHashes = commitment.root

theorem verifyExecutionAnchorLane_eq_ok (hlib : lib.OddDuplicate)
    {opening : ExecutionAnchorLaneOpening} {data : Bytes} :
    verifyExecutionAnchorLane lib commitment opening = .ok data ↔
      LaneAccepted lib commitment opening ∧
        opening.lane.take (laneDataLength commitment opening.laneIndex) = data := by
  simp only [verifyExecutionAnchorLane, bind_eq_ok, raiseIf_eq_ok, pure_eq_ok,
    climbLanes_eq_climbPath, rowPath_eq_ofSiblings, Bool.not_eq_false, hlib.verify_ofSiblings,
    not_or, not_le, ne_eq, not_not, ge_iff_le]
  constructor
  · rintro ⟨-, ⟨hrow, hlane, hlength, hlanes, hrows⟩, -, hpadding, -, hroot, hdata⟩
    exact ⟨⟨hrow, hlane, hlength, hlanes, hrows, hpadding, hroot⟩, hdata⟩
  · rintro ⟨⟨hrow, hlane, hlength, hlanes, hrows, hpadding, hroot⟩, hdata⟩
    exact ⟨(), ⟨hrow, hlane, hlength, hlanes, hrows⟩, (), hpadding, (), hroot, hdata⟩

end Verify

/-! ## Binding -/

section Binding

variable {lib : MerkleLibrary} {commitment : ExecutionAnchorCommitment}
  {opening opening' : ExecutionAnchorLaneOpening}

/-- The pairs that the verification of an opening hashes with `hash_node`. -/
def ExecutionAnchorLaneOpening.hashedPairs (lib : MerkleLibrary)
    (opening : ExecutionAnchorLaneOpening) : List (Digest × Digest) :=
  OddMerkle.climbPairs lib.hashNode (lib.hashLeaf opening.lane) opening.laneIndex
      opening.laneSiblingHashes ++
    OddMerkle.climbPairs lib.hashNode (opening.rowLeaf lib) opening.rowIndex opening.rowSiblingHashes

/-- Two accepted openings of one lane have the same bytes, unless the two verifications hash
different lanes or different pairs to the same digest. -/
theorem LaneAccepted.lane_eq (h : LaneAccepted lib commitment opening)
    (h' : LaneAccepted lib commitment opening') (hrow : opening.rowIndex = opening'.rowIndex)
    (hlane : opening.laneIndex = opening'.laneIndex) :
    opening.lane = opening'.lane ∨
      (opening.lane ≠ opening'.lane ∧ lib.hashLeaf opening.lane = lib.hashLeaf opening'.lane) ∨
      OddMerkle.Collide lib.hashNode (opening.hashedPairs lib) (opening'.hashedPairs lib) := by
  have hroots := h.root.trans h'.root.symm
  rw [hrow] at hroots
  -- first the row hashes agree, then the lane hashes
  rcases OddMerkle.climbPath_injective (h.length_rowSiblings.trans h'.length_rowSiblings.symm) hroots
    with hleaf | hcollide
  · unfold ExecutionAnchorLaneOpening.rowLeaf at hleaf
    rw [hlane] at hleaf
    rcases OddMerkle.climbPath_injective
      (h.length_laneSiblings.trans h'.length_laneSiblings.symm) hleaf with hleaf | hcollide
    · by_cases hbytes : opening.lane = opening'.lane
      · exact .inl hbytes
      · exact .inr (.inl ⟨hbytes, hleaf⟩)
    · rw [← hlane] at hcollide
      refine .inr (.inr (hcollide.mono (List.subset_append_left _ _) ?_))
      rw [hlane]
      exact List.subset_append_left _ _
  · rw [← hrow] at hcollide
    refine .inr (.inr (hcollide.mono (List.subset_append_right _ _) ?_))
    rw [hrow]
    exact List.subset_append_right _ _

end Binding

/-! ## The lanes of a row -/

section Rows

variable {size laneIndex : ℕ} {row : Bytes}

theorem length_padded (hsize : 0 < size) (row : Bytes) :
    (padded size row).length = (row.length + size - 1) / size * size := by
  have hdivmod := Nat.div_add_mod' row.length size
  have hlt := Nat.mod_lt row.length hsize
  rw [padded, List.length_append, List.length_replicate]
  rcases Nat.eq_zero_or_pos (row.length % size) with hzero | hpos
  · have hcount : (row.length + size - 1) / size = row.length / size := by
      rw [Nat.div_eq_iff hsize]
      constructor <;> omega
    rw [hcount, hzero, Nat.sub_zero, Nat.mod_self]
    omega
  · have hcount : (row.length + size - 1) / size = row.length / size + 1 := by
      rw [Nat.div_eq_iff hsize, Nat.succ_mul]
      constructor <;> omega
    rw [hcount, Nat.mod_eq_of_lt (by omega), Nat.succ_mul]
    omega

theorem length_chunks_padded (hsize : 0 < size) (row : Bytes) :
    (chunks size (padded size row)).length = (row.length + size - 1) / size := by
  rw [chunks, List.length_map, List.length_range, length_padded hsize, Nat.div_eq_iff hsize]
  constructor <;> omega

theorem getElem?_chunks_padded (hsize : 0 < size)
    (hlane : laneIndex < (row.length + size - 1) / size) :
    (chunks size (padded size row))[laneIndex]? =
      some ((row.drop (laneIndex * size)).take (min size (row.length - laneIndex * size)) ++
        List.replicate (size - min size (row.length - laneIndex * size)) 0) := by
  have hlength := length_padded hsize row
  rw [padded, List.length_append, List.length_replicate] at hlength
  have hend : (laneIndex + 1) * size ≤ (row.length + size - 1) / size * size :=
    Nat.mul_le_mul_right size hlane
  have hstart : laneIndex * size ≤ row.length := by
    have := Nat.div_mul_le_self (row.length + size - 1) size
    rw [Nat.succ_mul] at hend
    omega
  rw [Nat.succ_mul] at hend
  rw [chunks, List.getElem?_map, List.getElem?_range, Option.map_some]
  · congr 1
    rw [padded, List.drop_append_of_le_length hstart, List.take_append, List.take_replicate,
      List.length_drop]
    congr 1
    · rw [List.take_eq_take_iff, List.length_drop]
      omega
    · congr 1
      omega
  · rw [← length_chunks_padded hsize row, chunks, List.length_map, List.length_range] at hlane
    exact hlane

end Rows

section Build

variable {lib : MerkleLibrary} {commitment : ExecutionAnchorCommitment} {rowIndex laneIndex : ℕ}
  {row : Bytes}

theorem length_lanes (stageId : StageId) (row : Bytes) :
    (lanes stageId row).length = (row.length + laneBytes stageId - 1) / laneBytes stageId :=
  length_chunks_padded (laneBytes_pos stageId) row

theorem getElem?_lanes (hwidth : row.length = commitment.rowWidth)
    (hlane : laneIndex < laneCount commitment) :
    (lanes commitment.stageId row)[laneIndex]? =
      some ((row.drop (laneIndex * laneBytes commitment.stageId)).take
          (laneDataLength commitment laneIndex) ++
        List.replicate (laneBytes commitment.stageId - laneDataLength commitment laneIndex) 0) := by
  rw [laneDataLength, ← hwidth]
  refine getElem?_chunks_padded (laneBytes_pos _) ?_
  rw [hwidth]
  exact hlane

/-- A lane of a row of the commitment has the lane width, starts with its part of the row, and ends
with zeros. -/
theorem exists_lane (hwidth : row.length = commitment.rowWidth)
    (hlane : laneIndex < laneCount commitment) :
    ∃ lane, (lanes commitment.stageId row)[laneIndex]? = some lane ∧
      lane.length = laneBytes commitment.stageId ∧
      lane.take (laneDataLength commitment laneIndex) =
        (row.take (min ((laneIndex + 1) * laneBytes commitment.stageId)
          commitment.rowWidth)).drop (laneIndex * laneBytes commitment.stageId) ∧
      lane.drop (laneDataLength commitment laneIndex) =
        List.replicate (laneBytes commitment.stageId - laneDataLength commitment laneIndex) 0 := by
  have hdata : ((row.drop (laneIndex * laneBytes commitment.stageId)).take
      (laneDataLength commitment laneIndex)).length = laneDataLength commitment laneIndex := by
    rw [List.length_take, List.length_drop, hwidth, laneDataLength]
    omega
  have hle : laneDataLength commitment laneIndex ≤ laneBytes commitment.stageId := min_le_left _ _
  refine ⟨_, getElem?_lanes hwidth hlane, ?_, ?_, ?_⟩
  · rw [List.length_append, hdata, List.length_replicate]
    omega
  · rw [List.take_left' hdata, List.drop_take, Nat.succ_mul, laneDataLength]
    congr 1
    omega
  · exact List.drop_left' hdata

theorem rowLeafFromChunks_eq_ok {hashNode : Digest → Digest → Digest} {hashes : List Digest}
    {digest : Digest} :
    rowLeafFromChunks hashNode hashes = .ok digest ↔ OddMerkle.root hashNode hashes = some digest := by
  simp only [rowLeafFromChunks, bind_eq_ok, raiseIf_eq_ok, getItem_eq_ok, OddMerkle.root,
    List.head?_eq_getElem?]
  constructor
  · rintro ⟨-, -, h⟩
    exact h
  · intro h
    refine ⟨(), ?_, h⟩
    rintro rfl
    rw [← List.head?_eq_getElem?, ← OddMerkle.root, OddMerkle.root_nil] at h
    cases h

variable {tree : lib.Tree}

theorem buildExecutionAnchorTree_eq_ok {stageId : StageId} {rows : List Bytes}
    (h : buildExecutionAnchorTree lib stageId rows = .ok (commitment, tree)) :
    ∃ leaves, tree = lib.fromLeafHashes leaves ∧ commitment.root = lib.root tree ∧
      commitment.stageId = stageId ∧ commitment.rowCount = rows.length ∧
      List.Forall₂ (fun row leaf => row.length = commitment.rowWidth ∧
        OddMerkle.root lib.hashNode ((lanes stageId row).map lib.hashLeaf) = some leaf)
        rows leaves := by
  simp only [buildExecutionAnchorTree, bind_eq_ok, raiseIf_eq_ok, pure_eq_ok, Prod.mk.injEq] at h
  obtain ⟨-, -, leaves, hleaves, commitment', hcommitment, rfl, rfl⟩ := h
  unfold ExecutionAnchorCommitment.new at hcommitment
  split_ifs at hcommitment with hvalid
  obtain rfl := Except.ok.inj hcommitment
  refine ⟨leaves, rfl, rfl, rfl, rfl, ?_⟩
  rw [mapM_eq_ok] at hleaves
  suffices hrows : List.Forall₂ (fun row leaf => row.length = (rows.headD []).length ∧
      OddMerkle.root lib.hashNode ((lanes stageId row).map lib.hashLeaf) = some leaf)
      (rows.zipIdx.map Prod.fst) leaves by
    rwa [List.zipIdx_map_fst] at hrows
  rw [List.forall₂_map_left_iff]
  refine hleaves.imp ?_
  rintro ⟨row, index⟩ leaf hleaf
  simp only [rowLeafHash, bind_eq_ok, raiseIf_eq_ok, rowLeafFromChunks_eq_ok, not_not] at hleaf
  obtain ⟨-, ⟨-, -, -, hlength⟩, hroot⟩ := hleaf
  exact ⟨hlength, hroot⟩

theorem laneCount_lt (commitment : ExecutionAnchorCommitment) : laneCount commitment < 2 ^ 24 := by
  have hpos := commitment.rowWidth_pos
  have hlt := commitment.rowWidth_lt
  unfold laneCount
  rcases laneBytes_cases commitment.stageId with h | h
  · rw [h, compactGdnLaneBytes]
    omega
  · rw [h, defaultLaneBytes]
    omega

theorem laneIndex_lt_of_built {opening : ExecutionAnchorLaneOpening}
    (h : buildExecutionAnchorLaneOpening lib commitment rowIndex row tree laneIndex = .ok opening) :
    laneIndex < laneCount commitment := by
  simp only [buildExecutionAnchorLaneOpening, bind_eq_ok, raiseIf_eq_ok, not_not] at h
  obtain ⟨-, ⟨-, -, -, hwidth⟩, hopening⟩ := h
  split at hopening
  · cases hopening
  · rename_i lane hlane
    have hlt := (List.getElem?_eq_some_iff.mp hlane).1
    rw [length_lanes, hwidth] at hlt
    exact hlt

theorem buildExecutionAnchorLaneOpening_complete (hlib : lib.OddDuplicate) {stageId : StageId}
    {rows : List Bytes} (h : buildExecutionAnchorTree lib stageId rows = .ok (commitment, tree))
    (hrow : rows[rowIndex]? = some row) (hlane : laneIndex < laneCount commitment) :
    ∃ opening, buildExecutionAnchorLaneOpening lib commitment rowIndex row tree laneIndex =
        .ok opening ∧
      opening.rowIndex = rowIndex ∧ opening.laneIndex = laneIndex ∧
      verifyExecutionAnchorLane lib commitment opening =
        .ok ((row.take (min ((laneIndex + 1) * laneBytes commitment.stageId)
          commitment.rowWidth)).drop (laneIndex * laneBytes commitment.stageId)) := by
  obtain ⟨leaves, rfl, hroot, rfl, hcount, hrows⟩ := buildExecutionAnchorTree_eq_ok h
  have hrowIndex : rowIndex < rows.length := (List.getElem?_eq_some_iff.mp hrow).1
  have hleaves : leaves.length = commitment.rowCount := by
    rw [← hrows.length_eq, hcount]
  have hindex : rowIndex < leaves.length := by
    rw [hleaves, hcount]
    exact hrowIndex
  have hne : leaves ≠ [] := List.ne_nil_of_length_pos (by omega)
  -- the row and its hash
  obtain ⟨hwidth, hrowLeaf⟩ := hrows.get hrowIndex hindex
  rw [List.get_eq_getElem, (List.getElem?_eq_some_iff.mp hrow).2] at hwidth hrowLeaf
  have hleaf : leaves[rowIndex]? = some (leaves.get ⟨rowIndex, hindex⟩) :=
    List.getElem?_eq_getElem hindex
  -- the lane and its hash
  obtain ⟨lane, hlaneAt, hlength, htake, hdrop⟩ := exists_lane hwidth hlane
  have hlaneHash : ((lanes commitment.stageId row).map lib.hashLeaf)[laneIndex]? =
      some (lib.hashLeaf lane) := by
    rw [List.getElem?_map, hlaneAt, Option.map_some]
  have hlaneIndex : laneIndex < ((lanes commitment.stageId row).map lib.hashLeaf).length :=
    (List.getElem?_eq_some_iff.mp hlaneHash).1
  have hlaneCount : ((lanes commitment.stageId row).map lib.hashLeaf).length =
      laneCount commitment := by
    rw [List.length_map, length_lanes, hwidth]
    rfl
  have hlanePath := OddMerkle.length_path lib.hashNode hlaneIndex
  have hrowPath := OddMerkle.length_path lib.hashNode hindex
  rw [hlaneCount] at hlanePath
  rw [hleaves] at hrowPath
  -- the builder
  have hsource : ¬ ¬ (lib.root (lib.fromLeafHashes leaves) = commitment.root ∧
      lib.numLeaves (lib.fromLeafHashes leaves) = commitment.rowCount ∧
      rowIndex < commitment.rowCount ∧ row.length = commitment.rowWidth) := by
    rw [not_not, hlib.numLeaves_fromLeafHashes]
    exact ⟨hroot.symm, hleaves, by omega, hwidth⟩
  have hlaneCount_lt := laneCount_lt commitment
  have hrowCount_lt := commitment.rowCount_lt
  have hlaneLe : (laneCount commitment - 1).size ≤ 32 := Nat.size_le.mpr (by omega)
  have hrowLe : (commitment.rowCount - 1).size ≤ 32 := Nat.size_le.mpr (by omega)
  have hshape : lane.length = compactGdnLaneBytes ∨ lane.length = defaultLaneBytes := by
    rw [hlength]
    exact laneBytes_cases commitment.stageId
  refine ⟨⟨rowIndex, laneIndex, lane,
    OddMerkle.path lib.hashNode ((lanes commitment.stageId row).map lib.hashLeaf) laneIndex,
    OddMerkle.path lib.hashNode leaves rowIndex, by omega, by omega, hshape, by omega, by omega⟩,
    ?_, rfl, rfl, ?_⟩
  · refine bind_eq_ok.mpr ⟨(), raiseIf_eq_ok.mpr hsource, ?_⟩
    dsimp only
    rw [hlaneAt]
    dsimp only
    rw [hlib.getPath_fromLeafHashes _ _ hlaneIndex, hlib.getPath_fromLeafHashes _ _ hindex,
      map_fst_ofSiblings, map_fst_ofSiblings, ExecutionAnchorLaneOpening.new,
      dif_pos ⟨by omega, by omega, hshape⟩, dif_pos (by omega), dif_pos (by omega)]
  · rw [verifyExecutionAnchorLane_eq_ok hlib]
    refine ⟨⟨by dsimp only; omega, hlane, hlength, hlanePath, hrowPath, hdrop, ?_⟩, htake⟩
    -- climbing the lane path gives the row hash, and climbing the row path gives the root
    have hfirst := OddMerkle.climbPath_path lib.hashNode hlaneHash
    rw [hrowLeaf] at hfirst
    have hsecond := OddMerkle.climbPath_path lib.hashNode hleaf
    rw [hlib.root_fromLeafHashes leaves hne] at hsecond
    rw [ExecutionAnchorLaneOpening.rowLeaf, ← Option.some.inj hfirst, hroot]
    exact (Option.some.inj hsecond).symm

end Build

/-! ## The result -/

/-- Lane openings bind and are complete. For every commitment, two accepted openings of one lane
return the same bytes, unless the two verifications hash different lanes with `hash_leaf`, or
different pairs with `hash_node`, to the same digest. For every tree of rows, an opening is built for
every lane of every row, and every built opening is accepted and returns the bytes of the row that
the lane covers. -/
theorem lane_binding_and_completeness {lib : MerkleLibrary} (hlib : lib.OddDuplicate) :
    (∀ (commitment : ExecutionAnchorCommitment) (opening opening' : ExecutionAnchorLaneOpening)
        (data data' : Bytes),
      opening.rowIndex = opening'.rowIndex → opening.laneIndex = opening'.laneIndex →
      verifyExecutionAnchorLane lib commitment opening = .ok data →
      verifyExecutionAnchorLane lib commitment opening' = .ok data' →
      data = data' ∨
        (opening.lane ≠ opening'.lane ∧ lib.hashLeaf opening.lane = lib.hashLeaf opening'.lane) ∨
        OddMerkle.Collide lib.hashNode (opening.hashedPairs lib) (opening'.hashedPairs lib)) ∧
    ∀ (stageId : StageId) (rows : List Bytes) (commitment : ExecutionAnchorCommitment)
        (tree : lib.Tree) (rowIndex : ℕ) (row : Bytes) (laneIndex : ℕ),
      buildExecutionAnchorTree lib stageId rows = .ok (commitment, tree) →
      rows[rowIndex]? = some row →
      (laneIndex < laneCount commitment →
        Accepts (buildExecutionAnchorLaneOpening lib commitment rowIndex row tree laneIndex)) ∧
      ∀ opening,
        buildExecutionAnchorLaneOpening lib commitment rowIndex row tree laneIndex = .ok opening →
        verifyExecutionAnchorLane lib commitment opening =
          .ok ((row.take (min ((laneIndex + 1) * laneBytes commitment.stageId)
            commitment.rowWidth)).drop (laneIndex * laneBytes commitment.stageId)) := by
  refine ⟨?_, ?_⟩
  · intro commitment opening opening' data data' hrow hlane h h'
    rw [verifyExecutionAnchorLane_eq_ok hlib] at h h'
    obtain ⟨haccepted, rfl⟩ := h
    obtain ⟨haccepted', rfl⟩ := h'
    rcases haccepted.lane_eq haccepted' hrow hlane with hbytes | hcollide
    · rw [hbytes, hlane]
      exact .inl rfl
    · exact .inr hcollide
  · intro stageId rows commitment tree rowIndex row laneIndex htree hrow
    refine ⟨fun hlane => ?_, fun opening hopening => ?_⟩
    · obtain ⟨opening, hopening, -⟩ := buildExecutionAnchorLaneOpening_complete hlib htree hrow hlane
      exact ⟨opening, hopening⟩
    · have hlane := laneIndex_lt_of_built hopening
      obtain ⟨opening', hopening', -, -, hverify⟩ :=
        buildExecutionAnchorLaneOpening_complete hlib htree hrow hlane
      obtain rfl : opening = opening' := Except.ok.inj (hopening.symm.trans hopening')
      exact hverify

/-- The digest of 32 bytes of value one. -/
def Digest.ones : Digest := Digest.fill 1

theorem buildExecutionAnchorTree_two_rows :
    buildExecutionAnchorTree (MerkleLibrary.oddDuplicate (fun left _ => left) fun _ => Digest.ones)
      ⟨[0x61], rfl⟩ [[7], [8]] =
      .ok (⟨⟨[0x61], rfl⟩, 2, 1, Digest.ones, by decide, by decide, by decide, by decide,
        by decide⟩, [Digest.ones, Digest.ones]) := by
  have hlanes : ∀ row : Bytes, row.length = 1 →
      ((lanes ⟨[0x61], rfl⟩ row).map fun _ => Digest.ones) = [Digest.ones] := by
    intro row hrow
    rw [List.map_const', length_lanes, hrow]
    rfl
  have hleaf : ∀ (row : Bytes) (index : ℕ), row.length = 1 → index < 2 ^ 32 →
      rowLeafHash (MerkleLibrary.oddDuplicate (fun left _ => left) fun _ => Digest.ones)
        ⟨[0x61], rfl⟩ index 1 row = .ok Digest.ones := by
    intro row index hrow hindex
    refine bind_eq_ok.mpr ⟨(), raiseIf_eq_ok.mpr (not_not.mpr ⟨hindex, by decide, by decide, hrow⟩), ?_⟩
    rw [MerkleLibrary.oddDuplicate, hlanes row hrow, rowLeafFromChunks_eq_ok, OddMerkle.root_singleton]
  have hroot : OddMerkle.root (fun left _ => left) [Digest.ones, Digest.ones] =
      some Digest.ones := by
    rw [OddMerkle.root_of_lt _ (by simp)]
    exact OddMerkle.root_singleton _ _
  refine bind_eq_ok.mpr ⟨(), rfl, bind_eq_ok.mpr ⟨[Digest.ones, Digest.ones], ?_, ?_⟩⟩
  · rw [mapM_eq_ok]
    exact .cons (hleaf [7] 0 rfl (by decide)) (.cons (hleaf [8] 1 rfl (by decide)) .nil)
  · simp only [MerkleLibrary.oddDuplicate, id, hroot, Option.getD_some]
    rfl

/-- The second row of the tree is opened. -/
theorem lane_binding_and_completeness_two_rows :
    ∃ (commitment : ExecutionAnchorCommitment) (opening : ExecutionAnchorLaneOpening),
      buildExecutionAnchorLaneOpening
        (MerkleLibrary.oddDuplicate (fun left _ => left) fun _ => Digest.ones) commitment 1 [8]
        [Digest.ones, Digest.ones] 0 = .ok opening ∧
      verifyExecutionAnchorLane
        (MerkleLibrary.oddDuplicate (fun left _ => left) fun _ => Digest.ones) commitment opening =
        .ok [8] := by
  have h := lane_binding_and_completeness
    (MerkleLibrary.oddDuplicate_lawful (fun left _ => left) fun _ => Digest.ones)
  obtain ⟨hbuilt, hverify⟩ := h.2 _ _ _ _ 1 [8] 0 buildExecutionAnchorTree_two_rows rfl
  obtain ⟨opening, hopening⟩ := hbuilt (by decide)
  exact ⟨_, opening, hopening, hverify opening hopening⟩

end Verathos.Anchor
