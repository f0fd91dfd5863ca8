import Verathos.PrefixCache.Challenge

/-!
# Audits

An audit is retained material with the rows that were captured, and a selection after the nonce. The
miner opens the selected lanes from the unchanged rows, and the verifier checks them against the
request.

* `Audit.Admissible`: the material is built from trees of its records, all blocks commit to the same
  stages, the rows are those that were captured, and the selection is canonical.
* `Audit.Complete`: the miner's proof is built, and the verifier accepts it and returns the selected
  lanes with their bytes.
-/

namespace Verathos.PrefixCache

open Anchor SortedSet

/-- A prefix-cache audit. -/
structure Audit (lib : CacheMerkleLibrary) where
  arguments : RequestMaterial lib
  retained : PrefixCacheRetainedMaterial lib
  selection : Selection
  rows : StageKey → List Bytes

namespace Audit

variable {lib : CacheMerkleLibrary} (sha256 : Bytes → Digest) (audit : Audit lib)

/-- The captured rows have the geometry and the root of the record. -/
def RowsOf (record : PrefixCacheStateRecord) : Prop :=
  ∃ (commitment : ExecutionAnchorCommitment) (tree : lib.Tree),
    buildExecutionAnchorTree lib.toMerkleLibrary record.val.stageId (audit.rows record.val.key) =
      .ok (commitment, tree) ∧
    commitment.rowCount = record.val.rowCount ∧ commitment.rowWidth = record.val.rowWidth ∧
    commitment.root = record.val.valueRoot

/-- The request data that matches the material. -/
def request : RequestData where
  captureChainDigest := sha256 (foldDomain ++ audit.arguments.baseCaptureDigest.bytes ++
    (audit.retained.val.commitment.val.digest sha256).bytes)
  executionProfileDigest := audit.arguments.request.executionProfileDigest
  promptTokenRoot := audit.arguments.request.promptTokenRoot
  promptTokenIds := audit.arguments.tokenIds
  executedSuffixDigest := audit.arguments.request.executedSuffixDigest
  signedBlockTokenCount := audit.arguments.blockTokenCount

/-- The preconditions of an audit. -/
structure Admissible : Prop where
  built : buildPrefixCacheRequestMaterial sha256 audit.arguments = .ok audit.retained
  trees : List.Forall₂
    (fun records tree => buildPrefixCacheStateTree lib records = .ok (records, tree))
    audit.arguments.stateRecords audit.arguments.stateTrees
  /-- All blocks commit to the same stages, with those of every signed attention layer. -/
  inventory : ∃ stageIds,
    (∀ records ∈ audit.arguments.stateRecords, inventoryOf records = stageIds) ∧
    ∀ layer, (layer, CacheKind.attentionKv) ∈ audit.selection.layerCaches →
      ∀ stageId ∈ attentionStageIds layer, stageId ∈ stageIds
  rows_committed : ∀ records ∈ audit.arguments.stateRecords, ∀ record ∈ records, audit.RowsOf record
  sources_built : ∀ source ∈ audit.arguments.provenanceSources,
    buildExecutionAnchorTree lib.toMerkleLibrary source.2.1.stageId (audit.rows source.1) =
      .ok source.2
  capture_ne_zero : (audit.request sha256).captureChainDigest ≠ Digest.zero
  seed_ne_zero : audit.selection.selectionSeed ≠ Digest.zero
  selected_ne_nil : audit.selection.selectedLayerIndices ≠ []
  selected_nodup : audit.selection.selectedLayerIndices.Nodup
  families_nodup : (audit.selection.layerCaches.map Prod.fst).Nodup
  selected_signed : ∀ layer ∈ audit.selection.selectedLayerIndices,
    ∃ kind, (layer, kind) ∈ audit.selection.layerCaches
  required_sorted : audit.selection.requiredLaneKeys = sortedSet audit.selection.requiredLaneKeys
  required_length : audit.selection.requiredLaneKeys.length ≤ maxBlockSamples
  required_lanes : ∀ key ∈ audit.selection.requiredLaneKeys,
    ∃ records ∈ audit.arguments.stateRecords, ∃ record ∈ records, LaneOf record key

/-- The signed stages of the sampled blocks. -/
def nonceRecords (base : List ℕ) (stageIds : List Bytes) : List PrefixCacheStateRecord :=
  base.flatMap fun index => recordsOf (audit.arguments.stateRecords.getD index []) stageIds

/-- The requested and the nonce-derived lanes. -/
def lanes : Result (List LaneKey) := do
  let base ← deriveBlockIndices sha256 audit.selection.selectionSeed audit.retained.val.commitment
    blockSampleCount
  let stageIds ← prefixCacheStageIdsForLayers audit.selection.layerCaches
    audit.selection.selectedLayerIndices
  let keys ← (audit.nonceRecords base stageIds).mapM
    (recordLaneKeys sha256 audit.selection.selectionSeed audit.retained.val.commitment rowsPerStage
      lanesPerRow)
  return sortedSet (keys.flatten ++ audit.selection.requiredLaneKeys)

/-- The keys of the provenance sources. -/
def provenanceKeys : List StageKey := audit.arguments.provenanceSources.map Prod.fst

/-- The unchanged rows of the runtime stages of some lanes. -/
def runtimeRows (lanes : List LaneKey) : List (StageKey × List Bytes) :=
  (sortedSet ((lanes.map LaneKey.stageKey).filter (· ∉ audit.provenanceKeys))).map
    fun key => (key, audit.rows key)

/-- The unchanged provenance rows of some lanes. -/
def provenanceRows (lanes : List LaneKey) : List ((ℕ ×ₗ Bytes ×ₗ ℕ) × Bytes) :=
  (sortedSet ((lanes.filter fun key => key.stageKey ∈ audit.provenanceKeys).map LaneKey.rowKey)).map
    fun key => (key, (audit.rows (toLex ((ofLex key).1, (ofLex (ofLex key).2).1))).getD
      (ofLex (ofLex key).2).2 [])

/-- The lane width of a stage. -/
def laneWidth (stageId : Bytes) : ℕ :=
  if compactGdnSuffixes.any fun suffix => suffix.isSuffixOf stageId then compactGdnLaneBytes
  else defaultLaneBytes

/-- The captured bytes of a lane. -/
def laneData (key : LaneKey) : Bytes :=
  let row := (audit.rows key.stageKey).getD key.rowIndex []
  let width := laneWidth key.stageId
  (row.take (min ((key.laneIndex + 1) * width) row.length)).drop (key.laneIndex * width)

/-- The miner's proof is built from the unchanged rows, and the verifier accepts it and returns the
requested and nonce-derived lanes with their captured bytes. -/
def Complete : Prop :=
  ∃ (lanes : List LaneKey) (proof : PrefixCachePostnonceProof),
    audit.lanes sha256 = .ok lanes ∧
    buildPrefixCachePostnonceProof sha256 audit.retained audit.selection (audit.runtimeRows lanes)
      (audit.provenanceRows lanes) = .ok proof ∧
    verifyPrefixCachePostnonce lib sha256 proof (audit.request sha256) audit.selection =
      .ok (lanes.map fun key => (key, audit.laneData key))

/-- The selection has an attention layer, and what is opened stays within two bounds. -/
structure WithinBounds : Prop where
  attention : attentionLayers audit.selection.layerCaches audit.selection.selectedLayerIndices ≠ []
  /-- The sampled blocks and the blocks of the required lanes are not more than the bound. -/
  blocks : ∀ base, deriveBlockIndices sha256 audit.selection.selectionSeed
      audit.retained.val.commitment blockSampleCount = .ok base →
    (sortedSet (base ++ audit.selection.requiredLaneKeys.map LaneKey.blockIndex)).length ≤
      maxBlockSamples
  /-- The attention stages of the sampled blocks are not more than the bound. -/
  records : min blockSampleCount audit.arguments.stateRecords.length *
      (2 * (attentionLayers audit.selection.layerCaches
        audit.selection.selectedLayerIndices).length) ≤ maxStateStages

/-! ## What an admissible audit selects -/

section Selects

variable {sha256 audit}

theorem Admissible.committed (h : audit.Admissible sha256) :
    Committed sha256 audit.arguments audit.retained :=
  committed_of_built h.built

theorem Admissible.stateTree (h : audit.Admissible sha256) {index : ℕ}
    {records : List PrefixCacheStateRecord} (hrecords : audit.arguments.stateRecords[index]? = some records) :
    ∃ tree, audit.arguments.stateTrees[index]? = some tree ∧ StateTree lib records tree := by
  obtain ⟨hindex, rfl⟩ := List.getElem?_eq_some_iff.mp hrecords
  have hindex' : index < audit.arguments.stateTrees.length := by
    rwa [← h.trees.length_eq]
  refine ⟨_, List.getElem?_eq_getElem hindex', ?_⟩
  exact buildPrefixCacheStateTree_eq_ok.mp (h.trees.get hindex hindex')

theorem Admissible.canonicalRequired (h : audit.Admissible sha256) (verification : Bool) :
    canonicalRequiredLaneKeys verification audit.selection.requiredLaneKeys =
      .ok audit.selection.requiredLaneKeys := by
  simp only [canonicalRequiredLaneKeys, bind_eq_ok, raiseIf_eq_ok, pure_eq_ok, exists_const,
    and_true, not_exists, not_and, not_not]
  refine ⟨not_lt.mpr h.required_length, fun key hkey => ?_, h.required_sorted⟩
  obtain ⟨records, hrecords, record, hrecord, hlane⟩ := h.required_lanes key hkey
  obtain ⟨index, hindex⟩ := List.mem_iff_getElem?.mp hrecords
  have hblock := h.committed.records index records hindex record hrecord
  have hlt := (List.getElem?_eq_some_iff.mp hindex).1
  have hle := h.committed.length_stateRecords_le
  rw [hlane.blockIndex_eq, hlane.stageId_eq]
  exact fun hnot => hnot (by omega) record.val.stageId.valid

/-- The blocks and the signed stages that the nonce selects. -/
structure Session (sha256 : Bytes → Digest) (audit : Audit lib) (base : List ℕ)
    (stageIds : List Bytes) : Prop where
  base_eq : deriveBlockIndices sha256 audit.selection.selectionSeed audit.retained.val.commitment
    blockSampleCount = .ok base
  base_sorted : base.Pairwise (· < ·)
  base_length : base.length = min blockSampleCount audit.arguments.stateRecords.length
  base_lt : ∀ index ∈ base, index < audit.arguments.stateRecords.length
  stageIds_eq : prefixCacheStageIdsForLayers audit.selection.layerCaches
    audit.selection.selectedLayerIndices = .ok stageIds
  stageIds_sorted : stageIds.Pairwise (· < ·)
  stageIds_length : stageIds.length = 2 * (attentionLayers audit.selection.layerCaches
    audit.selection.selectedLayerIndices).length
  stageIds_mem : ∀ records ∈ audit.arguments.stateRecords, ∀ stageId ∈ stageIds,
    stageId ∈ inventoryOf records

theorem Admissible.session (hspread : SpreadHash sha256) (h : audit.Admissible sha256) :
    ∃ base stageIds, Session sha256 audit base stageIds := by
  have hcount : audit.retained.val.commitment.val.blockCount =
      audit.arguments.stateRecords.length := by rw [h.committed.commitment_eq]
  have hpos : 0 < audit.arguments.stateRecords.length :=
    List.length_pos_iff.mpr h.committed.stateRecords_ne_nil
  have hle := h.committed.length_stateRecords_le
  obtain ⟨base, hbase, hsorted, hlength, hlt⟩ := deriveBlockIndices_spec hspread h.seed_ne_zero
    audit.retained.val.commitment (by omega) (by rw [hcount]; exact hle.trans_lt (by decide))
  rw [hcount] at hlength hlt
  obtain ⟨stageIds, hstageIds, hstagesSorted, hstagesLength, hmem⟩ :=
    prefixCacheStageIdsForLayers_spec h.selected_ne_nil h.selected_nodup h.families_nodup
      h.selected_signed
  refine ⟨base, stageIds, hbase, hsorted, hlength, hlt, hstageIds, hstagesSorted, hstagesLength, ?_⟩
  intro records hrecords stageId hstageId
  obtain ⟨inventory, hinventory, hattention⟩ := h.inventory
  obtain ⟨layer, hlayer, hstage⟩ := (hmem stageId).mp hstageId
  rw [hinventory records hrecords]
  exact hattention layer (by simpa [attentionLayers] using (List.mem_filter.mp hlayer).2) stageId hstage

variable (audit) in
/-- The opened blocks. -/
def indices (base : List ℕ) : List ℕ :=
  sortedSet (base ++ audit.selection.requiredLaneKeys.map LaneKey.blockIndex)

variable (audit) in
/-- The opened stages. -/
def openedStageIds (stageIds : List Bytes) : List Bytes :=
  sortedSet (stageIds ++ audit.selection.requiredLaneKeys.map LaneKey.stageId)

variable {base : List ℕ} {stageIds : List Bytes}

theorem Session.indices_lt (hs : Session sha256 audit base stageIds) (h : audit.Admissible sha256) :
    ∀ index ∈ audit.indices base, index < audit.arguments.stateRecords.length := by
  intro index hindex
  rw [indices, mem_sortedSet, List.mem_append, List.mem_map] at hindex
  rcases hindex with hindex | ⟨key, hkey, rfl⟩
  · exact hs.base_lt index hindex
  · obtain ⟨records, hrecords, record, hrecord, hlane⟩ := h.required_lanes key hkey
    obtain ⟨index, hindex⟩ := List.mem_iff_getElem?.mp hrecords
    rw [hlane.blockIndex_eq, h.committed.records index records hindex record hrecord]
    exact (List.getElem?_eq_some_iff.mp hindex).1

theorem Session.indices_ne_nil (hs : Session sha256 audit base stageIds)
    (h : audit.Admissible sha256) : audit.indices base ≠ [] := by
  have hpos : 0 < base.length := by
    rw [hs.base_length]
    exact lt_min (by decide) (List.length_pos_iff.mpr h.committed.stateRecords_ne_nil)
  obtain ⟨index, hindex⟩ := List.exists_mem_of_length_pos hpos
  refine List.ne_nil_of_mem (a := index) ?_
  rw [indices, mem_sortedSet]
  exact List.mem_append_left _ hindex

theorem Session.openedStageIds_mem (hs : Session sha256 audit base stageIds)
    (h : audit.Admissible sha256) : ∀ records ∈ audit.arguments.stateRecords,
    ∀ stageId ∈ audit.openedStageIds stageIds, stageId ∈ inventoryOf records := by
  intro records hrecords stageId hstageId
  rw [openedStageIds, mem_sortedSet, List.mem_append, List.mem_map] at hstageId
  rcases hstageId with hstageId | ⟨key, hkey, rfl⟩
  · exact hs.stageIds_mem records hrecords stageId hstageId
  · obtain ⟨records', hrecords', record, hrecord, hlane⟩ := h.required_lanes key hkey
    obtain ⟨inventory, hinventory, -⟩ := h.inventory
    rw [hlane.stageId_eq, hinventory records hrecords, ← hinventory records' hrecords']
    exact List.mem_map_of_mem hrecord

end Selects

end Audit

end Verathos.PrefixCache
