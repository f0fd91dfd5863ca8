import Verathos.Anchor.Lanes
import Verathos.PrefixCache.Operations

/-!
# Openings of blocks and stages

What `open_prefix_cache_blocks_v3` and `open_prefix_cache_state_v3` return, and that the verifier
accepts it.

* `openPrefixCacheBlocks_spec`: a list of blocks is opened exactly when it is not longer than the
  bound, and then the opened records are those of the blocks.
* `openPrefixCacheState_spec`: a nonempty list of committed stages is opened, and the opened records
  are those of the stages in the order of the inventory.
-/

namespace Verathos.PrefixCache

open Anchor SortedSet

/-! ## Lists of results -/

variable {α : Type}

theorem bind_of_eq_ok {β : Type} {x : Result α} {f : α → Result β} {a : α} (h : x = .ok a) :
    (x >>= f) = f a := by
  rw [h]
  rfl

theorem forM_eq_ok {items : List α} {check : α → Result Unit} {u : Unit} :
    items.forM check = .ok u ↔ ∀ item ∈ items, check item = .ok () := by
  induction items with
  | nil => simp [List.forM]
  | cons item items ih =>
    change (check item >>= fun _ => items.forM check) = .ok u ↔ _
    rw [bind_eq_ok, List.forall_mem_cons]
    simp only [ih, exists_and_right]
    refine and_congr_left fun _ => ?_
    exact ⟨fun ⟨_, h⟩ => h, fun h => ⟨(), h⟩⟩

theorem map_eq_of_forall₂ {β γ : Type} {f : β → γ} {g : α → γ} {items : List α} {results : List β}
    (h : List.Forall₂ (fun a b => f b = g a) items results) : results.map f = items.map g := by
  induction h with
  | nil => rfl
  | cons hab _ ih => rw [List.map_cons, List.map_cons, hab, ih]

theorem exists_mapM_eq_ok {β : Type} {f : α → Result β} {R : α → β → Prop} {items : List α}
    (h : ∀ a ∈ items, ∃ b, f a = .ok b ∧ R a b) :
    ∃ results, items.mapM f = .ok results ∧ List.Forall₂ R items results := by
  induction items with
  | nil => exact ⟨[], rfl, .nil⟩
  | cons a items ih =>
    obtain ⟨b, hb, hR⟩ := h a List.mem_cons_self
    obtain ⟨results, hresults, hRs⟩ := ih fun a' ha' => h a' (List.mem_cons_of_mem a ha')
    refine ⟨b :: results, ?_, .cons hR hRs⟩
    rw [List.mapM_cons]
    exact bind_eq_ok.mpr ⟨b, hb, bind_eq_ok.mpr ⟨results, hresults, rfl⟩⟩

/-! ## Paths -/

theorem hasDirections_ofSiblings (index : ℕ) (siblings : List Digest) :
    MerklePath.HasDirections (.ofSiblings index siblings) := by
  rw [← rowPath_eq_ofSiblings]
  rintro ⟨⟨sibling, isLeft⟩, level⟩ hentry
  rw [List.mem_zipIdx_iff_getElem?, List.getElem?_map, Option.map_eq_some_iff] at hentry
  obtain ⟨⟨sibling', level'⟩, hlevel, heq⟩ := hentry
  rw [List.getElem?_zipIdx, Option.map_eq_some_iff] at hlevel
  obtain ⟨_, -, hpair⟩ := hlevel
  simp only [Prod.mk.injEq, zero_add] at heq hpair
  rw [← heq.2, ← hpair.2]

variable {lib : CacheMerkleLibrary}

variable {leaves : List Bytes}

theorem verifyMerklePath_getPath (hlib : lib.OddDuplicate) {index : ℕ} {leaf : Bytes}
    (h : leaves[index]? = some leaf) :
    lib.verifyMerklePath (lib.root (lib.fromLeaves leaves)) leaf
      (lib.getPath (lib.fromLeaves leaves) index) = true := by
  have hhash : (leaves.map lib.hashLeaf)[index]? = some (lib.hashLeaf leaf) := by
    rw [List.getElem?_map, h, Option.map_some]
  have hlt : index < (leaves.map lib.hashLeaf).length := (List.getElem?_eq_some_iff.mp hhash).1
  have hne : leaves.map lib.hashLeaf ≠ [] := List.ne_nil_of_length_pos (by omega)
  have hclimb := OddMerkle.climbPath_path lib.hashNode hhash
  rw [hlib.root_fromLeafHashes _ hne] at hclimb
  rw [hlib.verifyMerklePath_eq, hlib.fromLeaves_eq, hlib.getPath_fromLeafHashes _ _ hlt,
    hlib.verify_ofSiblings]
  exact (Option.some.inj hclimb).symm

theorem getPath_fromLeaves (hlib : lib.OddDuplicate) {index : ℕ} (h : index < leaves.length) :
    (lib.getPath (lib.fromLeaves leaves) index).leafIndex = index ∧
      MerklePath.HasDirections (lib.getPath (lib.fromLeaves leaves) index) := by
  rw [hlib.fromLeaves_eq, hlib.getPath_fromLeafHashes _ _ (by rwa [List.length_map])]
  exact ⟨rfl, hasDirections_ofSiblings _ _⟩

theorem numLeaves_fromLeaves (hlib : lib.OddDuplicate) (leaves : List Bytes) :
    lib.numLeaves (lib.fromLeaves leaves) = leaves.length := by
  rw [hlib.fromLeaves_eq, hlib.numLeaves_fromLeafHashes, List.length_map]

/-- The odd-duplicate tree with byte strings as leaves. -/
def CacheMerkleLibrary.oddDuplicate (hashNode : Digest → Digest → Digest) (hashLeaf : Bytes → Digest) :
    CacheMerkleLibrary where
  toMerkleLibrary := MerkleLibrary.oddDuplicate hashNode hashLeaf
  fromLeaves leaves := (MerkleLibrary.oddDuplicate hashNode hashLeaf).fromLeafHashes
    (leaves.map hashLeaf)
  verifyMerklePath root leaf := (MerkleLibrary.oddDuplicate hashNode hashLeaf
    ).verifyMerklePathWithLeafHash root (hashLeaf leaf)

theorem CacheMerkleLibrary.oddDuplicate_lawful (hashNode : Digest → Digest → Digest)
    (hashLeaf : Bytes → Digest) :
    (CacheMerkleLibrary.oddDuplicate hashNode hashLeaf).OddDuplicate where
  toOddDuplicate := MerkleLibrary.oddDuplicate_lawful hashNode hashLeaf
  fromLeaves_eq _ := rfl
  verifyMerklePath_eq _ _ _ := rfl

theorem map_leafIndex_getPath (hlib : lib.OddDuplicate) {indices : List ℕ}
    (h : ∀ index ∈ indices, index < leaves.length) :
    (indices.map (lib.getPath (lib.fromLeaves leaves))).map MerklePath.leafIndex = indices := by
  rw [List.map_map]
  refine (List.map_congr_left fun index hindex => ?_).trans indices.map_id
  exact (getPath_fromLeaves hlib (h index hindex)).1

theorem hasDirections_getPath (hlib : lib.OddDuplicate) {indices : List ℕ}
    (h : ∀ index ∈ indices, index < leaves.length) :
    ∀ path ∈ indices.map (lib.getPath (lib.fromLeaves leaves)), MerklePath.HasDirections path := by
  intro path hpath
  obtain ⟨index, hindex, rfl⟩ := List.mem_map.mp hpath
  exact (getPath_fromLeaves hlib (h index hindex)).2

theorem exists_mapM_getItem {items : List α} {indices : List ℕ}
    (hlt : ∀ index ∈ indices, index < items.length) :
    ∃ opened, indices.mapM (getItem items) = .ok opened ∧
      List.Forall₂ (fun index item => items[index]? = some item) indices opened :=
  exists_mapM_eq_ok fun index hindex =>
    have hitem := List.getElem?_eq_getElem (hlt index hindex)
    ⟨_, getItem_eq_ok.mpr hitem, hitem⟩

/-! ## Blocks -/

section Blocks

variable {records : List PrefixCacheBlockRecord} {indices : List ℕ}

/-- The tree of the block records. -/
abbrev blockTreeOf (lib : CacheMerkleLibrary) (records : List PrefixCacheBlockRecord) : lib.Tree :=
  lib.fromLeaves (records.map fun item => item.val.canonicalBytes)

theorem openPrefixCacheBlocks_spec (hlib : lib.OddDuplicate)
    (hrecords : ∀ (index : ℕ) (record : PrefixCacheBlockRecord),
      records[index]? = some record → record.val.blockIndex = index)
    (hsorted : indices.Pairwise (· < ·)) (hne : indices ≠ [])
    (hlt : ∀ index ∈ indices, index < records.length) :
    ∃ opened, List.Forall₂ (fun index record => records[index]? = some record) indices opened ∧
      (opened.map fun record => record.val.blockIndex) = indices ∧
      openPrefixCacheBlocks records (blockTreeOf lib records) indices =
        construct BlockOpeningFields.postInit
          ⟨opened, indices.map (lib.getPath (blockTreeOf lib records))⟩ ∧
      ((BlockOpeningFields.mk opened
          (indices.map (lib.getPath (blockTreeOf lib records)))).postInit = .ok () ↔
        indices.length ≤ maxBlockSamples) := by
  obtain ⟨opened, hopened, hforall⟩ := exists_mapM_getItem hlt
  have hindices : List.Forall₂ (fun index (record : PrefixCacheBlockRecord) =>
      record.val.blockIndex = id index) indices opened :=
    hforall.imp fun index record h => hrecords index record h
  have hblockIndices : (opened.map fun record => record.val.blockIndex) = indices := by
    rw [map_eq_of_forall₂ hindices, List.map_id]
  have hlength : opened.length = indices.length := hforall.length_eq.symm
  have hopened_ne : opened ≠ [] := by
    rw [← List.length_pos_iff, hlength, List.length_pos_iff]
    exact hne
  have hlt' : ∀ index ∈ indices, index < (records.map fun item => item.val.canonicalBytes).length := by
    simpa using hlt
  have hchecks : ¬ (¬ IsCanonical indices ∨ indices = [] ∨
      (∃ index ∈ indices, index ≥ records.length) ∨
      lib.numLeaves (blockTreeOf lib records) ≠ records.length) := by
    rw [numLeaves_fromLeaves hlib, List.length_map, isCanonical_iff]
    simpa [hsorted, hne] using hlt
  have hpairs : ¬ ∃ pair ∈ (indices.map (lib.getPath (blockTreeOf lib records))).zip indices,
      pair.1.leafIndex ≠ pair.2 := by
    rintro ⟨⟨path, index⟩, hpair, hindex⟩
    rw [← List.map_id indices, List.map_map, List.zip_map', List.mem_map] at hpair
    obtain ⟨index', hmem, heq⟩ := hpair
    obtain ⟨rfl, rfl⟩ := Prod.mk.inj heq
    exact hindex (getPath_fromLeaves hlib (hlt' index' hmem)).1
  refine ⟨opened, hforall, hblockIndices, ?_, ?_⟩
  · rw [openPrefixCacheBlocks, raiseIf, if_neg hchecks]
    change (indices.mapM (getItem records) >>= _) = _
    rw [hopened]
    rfl
  · simp only [BlockOpeningFields.postInit, BlockOpeningFields.blockIndices, bind_eq_ok,
      raiseIf_eq_ok, hblockIndices, hlength, List.length_map, not_not, exists_const, isCanonical_iff,
      hopened_ne, hsorted, hpairs, not_false_eq_true, true_and, false_or, ne_eq, not_true_eq_false,
      or_false, not_lt, gt_iff_lt]
    exact ⟨fun h => h.1, fun h => ⟨h, hasDirections_getPath hlib hlt'⟩⟩

end Blocks

/-! ## Stages -/

section Stages

variable {records : List PrefixCacheStateRecord} {tree : lib.Tree} {stageIds : List Bytes}

/-- `tuple(item.stage_id for item in records)`. -/
abbrev inventoryOf (records : List PrefixCacheStateRecord) : List Bytes :=
  records.map fun record => record.val.stageId.text

/-- The records of a list of stages. -/
abbrev recordsOf (records : List PrefixCacheStateRecord) (stageIds : List Bytes) :
    List PrefixCacheStateRecord :=
  records.filter fun record => record.val.stageId.text ∈ stageIds

/-- What `build_prefix_cache_state_tree_v3` accepts. -/
structure StateTree (lib : CacheMerkleLibrary) (records : List PrefixCacheStateRecord)
    (tree : lib.Tree) : Prop where
  ne_nil : records ≠ []
  length_le : records.length ≤ maxStateStages
  one_block : (records.map fun record => record.val.blockIndex).dedup.length = 1
  sorted : (inventoryOf records).Pairwise (· < ·)
  tree_eq : tree = lib.fromLeaves (records.map fun record => record.val.canonicalBytes)

theorem buildPrefixCacheStateTree_eq_ok :
    buildPrefixCacheStateTree lib records = .ok (records, tree) ↔ StateTree lib records tree := by
  simp only [buildPrefixCacheStateTree, bind_eq_ok, raiseIf_eq_ok, pure_eq_ok, Prod.mk.injEq,
    true_and, exists_const, not_or, not_not, isCanonical_iff, ne_eq, not_lt, gt_iff_lt]
  constructor
  · rintro ⟨⟨hne, hle⟩, hblock, hsorted, rfl⟩
    exact ⟨hne, hle, hblock, hsorted, rfl⟩
  · rintro ⟨hne, hle, hblock, hsorted, rfl⟩
    exact ⟨⟨hne, hle⟩, hblock, hsorted, rfl⟩

theorem one_block_of_sublist {part : List PrefixCacheStateRecord}
    (h : (records.map fun record => record.val.blockIndex).dedup.length = 1)
    (hsublist : part.Sublist records) (hne : part ≠ []) :
    (part.map fun record => record.val.blockIndex).dedup.length = 1 := by
  obtain ⟨record, hrecord⟩ := List.exists_mem_of_ne_nil part hne
  have hpos : 0 < (part.map fun record => record.val.blockIndex).dedup.length :=
    List.length_pos_of_mem (List.mem_dedup.mpr (List.mem_map_of_mem hrecord))
  have hle : (part.map fun record => record.val.blockIndex).dedup.length ≤ 1 := by
    rw [← h]
    refine (List.Nodup.subperm (List.nodup_dedup _) ?_).length_le
    intro index hindex
    rw [List.mem_dedup] at hindex ⊢
    exact (hsublist.map _).subset hindex
  omega

theorem inventoryOf_recordsOf (hsorted : (inventoryOf records).Pairwise (· < ·))
    (hstages : stageIds.Pairwise (· < ·)) (hmem : ∀ stageId ∈ stageIds, stageId ∈ inventoryOf records) :
    inventoryOf (recordsOf records stageIds) = stageIds := by
  refine eq_of_mem_iff (hsorted.sublist (List.filter_sublist.map _)) hstages fun stageId => ?_
  simp only [inventoryOf, recordsOf, List.mem_map, List.mem_filter, decide_eq_true_eq]
  constructor
  · rintro ⟨record, ⟨-, hstage⟩, rfl⟩
    exact hstage
  · intro hstage
    obtain ⟨record, hrecord, rfl⟩ := List.mem_map.mp (hmem stageId hstage)
    exact ⟨record, ⟨hrecord, hstage⟩, rfl⟩

theorem exists_recordsOf (hsorted : (inventoryOf records).Pairwise (· < ·))
    (hstages : stageIds.Pairwise (· < ·)) (hmem : ∀ stageId ∈ stageIds, stageId ∈ inventoryOf records) :
    (stageIds.map fun stageId => (inventoryOf records).idxOf stageId).mapM (getItem records) =
        .ok (recordsOf records stageIds) ∧
      List.Forall₂ (fun index record => records[index]? = some record)
        (stageIds.map fun stageId => (inventoryOf records).idxOf stageId)
        (recordsOf records stageIds) := by
  have hlt : ∀ index ∈ stageIds.map fun stageId => (inventoryOf records).idxOf stageId,
      index < records.length := by
    intro index hindex
    obtain ⟨stageId, hstage, rfl⟩ := List.mem_map.mp hindex
    simpa using List.idxOf_lt_length_of_mem (hmem stageId hstage)
  obtain ⟨opened, hopened, hforall⟩ := exists_mapM_getItem hlt
  -- the record at the position of a stage is of this stage
  have hstage : List.Forall₂ (fun stageId (record : PrefixCacheStateRecord) =>
      record.val.stageId.text = id stageId) stageIds opened := by
    rw [List.forall₂_map_left_iff] at hforall
    rw [List.forall₂_iff_zip] at hforall ⊢
    refine ⟨hforall.1, fun {stageId record} hzip => ?_⟩
    have hat : (inventoryOf records)[(inventoryOf records).idxOf stageId]? =
        some record.val.stageId.text := by
      rw [List.getElem?_map, hforall.2 hzip, Option.map_some]
    rw [List.getElem?_idxOf (hmem stageId (List.of_mem_zip hzip).1)] at hat
    exact (Option.some.inj hat).symm
  have hinventory : inventoryOf opened = stageIds := by
    rw [inventoryOf, map_eq_of_forall₂ hstage, List.map_id]
  have hsubset : ∀ record ∈ opened, record ∈ records := by
    intro record hrecord
    obtain ⟨i, hi, rfl⟩ := List.mem_iff_getElem.mp hrecord
    have hat := (List.forall₂_iff_get.mp hforall).2 i (by rwa [hforall.length_eq]) hi
    exact List.mem_of_getElem? hat
  have hrecords : opened = recordsOf records stageIds := by
    refine @eq_of_mem_iff_of_key _ _ _ (fun record => record.val.stageId.text) _ _ ?_
      (hsorted.sublist (List.filter_sublist.map _)) fun record => ?_
    · rw [← inventoryOf, hinventory]
      exact hstages
    · rw [List.mem_filter, decide_eq_true_eq]
      constructor
      · intro hrecord
        refine ⟨hsubset record hrecord, ?_⟩
        rw [← hinventory]
        exact List.mem_map_of_mem hrecord
      · rintro ⟨hrecord, hstageId⟩
        rw [← hinventory] at hstageId
        obtain ⟨record', hrecord', heq⟩ := List.mem_map.mp hstageId
        have hinj := List.inj_on_of_nodup_map (hsorted.imp ne_of_lt)
        rwa [← hinj (hsubset record' hrecord') hrecord heq]
  rw [← hrecords]
  exact ⟨hopened, hforall⟩

theorem openPrefixCacheState_spec (hlib : lib.OddDuplicate) (htree : StateTree lib records tree)
    (hstages : stageIds.Pairwise (· < ·)) (hne : stageIds ≠ [])
    (hmem : ∀ stageId ∈ stageIds, stageId ∈ inventoryOf records) :
    ∃ opening : PrefixCacheStateOpening, openPrefixCacheState records tree stageIds = .ok opening ∧
      opening.val.records = recordsOf records stageIds ∧
      List.Forall₂ (fun record path =>
        lib.verifyMerklePath (lib.root tree) record.val.canonicalBytes path = true)
        opening.val.records opening.val.paths := by
  obtain ⟨hopened, hforall⟩ := exists_recordsOf htree.sorted hstages hmem
  have hinventory := inventoryOf_recordsOf htree.sorted hstages hmem
  set indices := stageIds.map fun stageId => (inventoryOf records).idxOf stageId with hindices
  have hlength : (recordsOf records stageIds).length = indices.length := hforall.length_eq.symm
  have hrecords_ne : recordsOf records stageIds ≠ [] := by
    intro hnil
    rw [hnil] at hinventory
    exact hne hinventory.symm
  have hlt : ∀ index ∈ indices,
      index < (records.map fun record => record.val.canonicalBytes).length := by
    intro index hindex
    obtain ⟨stageId, hstage, rfl⟩ := List.mem_map.mp hindex
    simpa using List.idxOf_lt_length_of_mem (hmem stageId hstage)
  have hsorted : indices.Pairwise (· < ·) := by
    rw [hindices, List.pairwise_map]
    exact hstages.imp_of_mem fun ha hb hlt =>
      idxOf_lt_idxOf htree.sorted (hmem _ ha) (hmem _ hb) hlt
  have htree_eq := htree.tree_eq
  subst htree_eq
  have hpost : (StateOpeningFields.mk (recordsOf records stageIds) (indices.map (lib.getPath
      (lib.fromLeaves (records.map fun record => record.val.canonicalBytes))))).postInit = .ok () := by
    simp only [StateOpeningFields.postInit, bind_eq_ok, raiseIf_eq_ok, not_or, not_not,
      isCanonical_iff, List.length_map, hlength, map_leafIndex_getPath hlib hlt, exists_const, ne_eq,
      not_lt, gt_iff_lt]
    refine ⟨⟨hrecords_ne, hlength ▸ (List.length_filter_le _ _).trans htree.length_le, trivial⟩,
      ⟨?_, ?_⟩, hsorted, hasDirections_getPath hlib hlt⟩
    · rw [← inventoryOf, hinventory]
      exact hstages
    · exact one_block_of_sublist htree.one_block List.filter_sublist hrecords_ne
  refine ⟨⟨_, hpost⟩, ?_, rfl, ?_⟩
  · have hchecks : ¬ (¬ IsCanonical stageIds ∨ stageIds = [] ∨
        lib.numLeaves (lib.fromLeaves (records.map fun record => record.val.canonicalBytes)) ≠
          records.length ∨
        ∃ stageId ∈ stageIds, stageId ∉ inventoryOf records) := by
      rw [numLeaves_fromLeaves hlib, List.length_map, isCanonical_iff]
      simpa [hstages, hne] using hmem
    refine bind_eq_ok.mpr ⟨(), raiseIf_eq_ok.mpr hchecks,
      bind_eq_ok.mpr ⟨_, hopened, construct_eq_ok.mpr rfl⟩⟩
  · rw [List.forall₂_map_right_iff]
    refine (hforall.imp fun index record hrecord => ?_).flip
    refine verifyMerklePath_getPath hlib ?_
    rw [List.getElem?_map, hrecord, Option.map_some]

end Stages

end Verathos.PrefixCache
