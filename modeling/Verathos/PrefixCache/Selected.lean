import Verathos.PrefixCache.Audit

/-!
# What an audit opens and challenges

The prover and the verifier derive the opened blocks, the opened stages and the lanes separately. Both
are compared with the same lists.

* `Session.stateOpenings`: the stages `Audit.openedStageIds` of the blocks `Audit.indices` are opened.
* `Session.challengedRecords_eq`: the challenged records are `Audit.nonceRecords`.
* `Session.lanes_spec`: the lanes are `Audit.lanes`, and each is a lane of an opened record.
-/

namespace Verathos.PrefixCache.Audit

open Anchor SortedSet

variable {lib : CacheMerkleLibrary} {sha256 : Bytes → Digest} {audit : Audit lib} {base : List ℕ}
  {stageIds : List Bytes}

/-! ## Opened stages -/

/-- The opening of the stages of one block. -/
structure Opened (audit : Audit lib) (opened : List Bytes) (index : ℕ)
    (opening : PrefixCacheStateOpening) : Prop where
  records_eq : opening.val.records = recordsOf (audit.arguments.stateRecords.getD index []) opened
  inventory_eq : inventoryOf opening.val.records = opened
  blockIndex_eq : ∀ record ∈ opening.val.records, record.val.blockIndex = index
  verified : ∀ tree, audit.arguments.stateTrees[index]? = some tree →
    List.Forall₂ (fun record path =>
      lib.verifyMerklePath (lib.root tree) record.val.canonicalBytes path = true)
      opening.val.records opening.val.paths

theorem Session.stateOpenings (hlib : lib.OddDuplicate) (hs : Session sha256 audit base stageIds)
    (h : audit.Admissible sha256) (hne : audit.openedStageIds stageIds ≠ []) :
    ∃ openings : List PrefixCacheStateOpening,
      ((audit.indices base).mapM fun index => do
        let records ← getItem audit.retained.val.stateRecords index
        let tree ← getItem audit.retained.val.stateTrees index
        openPrefixCacheState records tree (audit.openedStageIds stageIds)) = .ok openings ∧
      List.Forall₂ (audit.Opened (audit.openedStageIds stageIds)) (audit.indices base) openings := by
  refine exists_mapM_eq_ok fun index hindex => ?_
  have hrecords := List.getElem?_eq_getElem (hs.indices_lt h index hindex)
  set records := audit.arguments.stateRecords.get ⟨index, hs.indices_lt h index hindex⟩ with hrecords'
  change audit.arguments.stateRecords[index]? = some records at hrecords
  obtain ⟨tree, htree, hstateTree⟩ := h.stateTree hrecords
  have hmem := hs.openedStageIds_mem h records (List.mem_of_getElem? hrecords)
  obtain ⟨opening, hopening, hopened, hverified⟩ := openPrefixCacheState_spec hlib hstateTree
    (pairwise_sortedSet _) hne hmem
  refine ⟨opening, ?_, ?_⟩
  · refine bind_eq_ok.mpr ⟨records, ?_, bind_eq_ok.mpr ⟨tree, ?_, hopening⟩⟩
    · rw [getItem_eq_ok, h.committed.stateRecords_eq, hrecords]
    · rw [getItem_eq_ok, h.committed.stateTrees_eq, htree]
  · have hgetD : audit.arguments.stateRecords.getD index [] = records := by
      rw [List.getD_eq_getElem?_getD, hrecords, Option.getD_some]
    constructor
    · rw [hgetD]
      exact hopened
    · rw [hopened]
      exact inventoryOf_recordsOf hstateTree.sorted (pairwise_sortedSet _) hmem
    · intro record hrecord
      rw [hopened] at hrecord
      exact h.committed.records index records hrecords record (List.mem_of_mem_filter hrecord)
    · intro tree' htree'
      obtain rfl : tree = tree' := Option.some.inj (htree.symm.trans htree')
      exact hverified

theorem Opened.blockIndex {opened : List Bytes} {index : ℕ} {opening : PrefixCacheStateOpening}
    (ho : audit.Opened opened index opening) (hne : opened ≠ []) :
    opening.val.blockIndex = .ok index := by
  have hinventory := ho.inventory_eq
  have hblock := ho.blockIndex_eq
  match hrecords : opening.val.records with
  | [] =>
    rw [hrecords] at hinventory
    exact absurd hinventory.symm hne
  | record :: rest =>
    rw [hrecords] at hblock
    refine bind_eq_ok.mpr ⟨record, ?_, ?_⟩
    · rw [getItem_eq_ok, hrecords]
      rfl
    · rw [pure_eq_ok]
      exact hblock record List.mem_cons_self

theorem Session.challengedRecords_eq (hs : Session sha256 audit base stageIds)
    (hne : audit.openedStageIds stageIds ≠ []) {openings : List PrefixCacheStateOpening}
    (hopenings : List.Forall₂ (audit.Opened (audit.openedStageIds stageIds)) (audit.indices base)
      openings) :
    challengedRecords openings base stageIds = .ok (audit.nonceRecords base stageIds) := by
  have hfilter : ∀ records : List PrefixCacheStateRecord,
      recordsOf (recordsOf records (audit.openedStageIds stageIds)) stageIds =
        recordsOf records stageIds := by
    intro records
    rw [recordsOf, recordsOf, List.filter_filter]
    refine List.filter_congr fun record _ => ?_
    have himp : record.val.stageId.text ∈ stageIds →
        record.val.stageId.text ∈ audit.openedStageIds stageIds := by
      intro hstage
      rw [openedStageIds, mem_sortedSet]
      exact List.mem_append_left _ hstage
    simpa using himp
  have hbase : ((audit.indices base).filter fun index => index ∈ base) = base := by
    refine eq_of_mem_iff ((pairwise_sortedSet _).filter _) hs.base_sorted fun index => ?_
    rw [List.mem_filter, decide_eq_true_eq, indices, mem_sortedSet, List.mem_append]
    exact ⟨fun hindex => hindex.2, fun hindex => ⟨.inl hindex, hindex⟩⟩
  refine bind_eq_ok.mpr ⟨(audit.indices base).map fun index =>
    if index ∈ base then recordsOf (audit.arguments.stateRecords.getD index []) stageIds else [],
    ?_, ?_⟩
  · rw [mapM_eq_ok, List.forall₂_map_right_iff]
    refine (hopenings.imp fun index opening hopened => ?_).flip
    refine bind_eq_ok.mpr ⟨index, hopened.blockIndex hne, ?_⟩
    rw [pure_eq_ok, hopened.records_eq, ← hfilter]
  · rw [pure_eq_ok, nonceRecords, ← List.flatMap_def, flatMap_ite_nil, hbase]

/-! ## Challenged records -/

theorem mem_nonceRecords {record : PrefixCacheStateRecord}
    (hrecord : record ∈ audit.nonceRecords base stageIds) :
    ∃ index ∈ base, ∃ records, audit.arguments.stateRecords[index]? = some records ∧
      record ∈ records ∧ record.val.stageId.text ∈ stageIds := by
  obtain ⟨index, hindex, hrecord⟩ := List.mem_flatMap.mp hrecord
  rw [List.mem_filter, decide_eq_true_eq, List.getD_eq_getElem?_getD] at hrecord
  cases hrecords : audit.arguments.stateRecords[index]? with
  | none =>
    rw [hrecords] at hrecord
    exact absurd hrecord.1 (by simp)
  | some records =>
    rw [hrecords, Option.getD_some] at hrecord
    exact ⟨index, hindex, records, hrecords, hrecord.1, hrecord.2⟩

theorem Session.records_getD (hs : Session sha256 audit base stageIds) {index : ℕ}
    (hindex : index ∈ base) :
    audit.arguments.stateRecords[index]? = some (audit.arguments.stateRecords.getD index []) := by
  rw [List.getD_eq_getElem?_getD, List.getElem?_eq_getElem (hs.base_lt index hindex),
    Option.getD_some]

theorem Session.nonceRecords_sorted (hs : Session sha256 audit base stageIds)
    (h : audit.Admissible sha256) :
    ((audit.nonceRecords base stageIds).map fun record => record.val.key).Pairwise (· < ·) := by
  rw [List.pairwise_map, nonceRecords, List.pairwise_flatMap]
  refine ⟨fun index hindex => ?_, hs.base_sorted.imp_of_mem fun hindex hindex' hlt => ?_⟩
  · -- within a block the stages increase
    have hrecords := hs.records_getD hindex
    obtain ⟨tree, -, htree⟩ := h.stateTree hrecords
    have hsorted := (List.pairwise_map.mp htree.sorted).filter
      fun record => decide (record.val.stageId.text ∈ stageIds)
    refine hsorted.imp_of_mem fun {record record'} hrecord hrecord' hlt => ?_
    rw [StateRecordFields.key, StateRecordFields.key, Prod.Lex.toLex_lt_toLex]
    refine .inr ⟨?_, hlt⟩
    rw [h.committed.records index _ hrecords record (List.mem_of_mem_filter hrecord),
      h.committed.records index _ hrecords record' (List.mem_of_mem_filter hrecord')]
  · -- the blocks increase
    intro record hrecord record' hrecord'
    rw [StateRecordFields.key, StateRecordFields.key, Prod.Lex.toLex_lt_toLex]
    refine .inl ?_
    rw [h.committed.records _ _ (hs.records_getD hindex) record (List.mem_of_mem_filter hrecord),
      h.committed.records _ _ (hs.records_getD hindex') record' (List.mem_of_mem_filter hrecord')]
    exact hlt

theorem Session.length_nonceRecords (hs : Session sha256 audit base stageIds)
    (h : audit.Admissible sha256) :
    (audit.nonceRecords base stageIds).length =
      min blockSampleCount audit.arguments.stateRecords.length *
        (2 * (attentionLayers audit.selection.layerCaches
          audit.selection.selectedLayerIndices).length) := by
  have hblock : ∀ index ∈ base,
      (recordsOf (audit.arguments.stateRecords.getD index []) stageIds).length =
        stageIds.length := by
    intro index hindex
    have hrecords := hs.records_getD hindex
    obtain ⟨tree, -, htree⟩ := h.stateTree hrecords
    rw [← List.length_map (f := fun record => record.val.stageId.text)]
    exact congrArg List.length (inventoryOf_recordsOf htree.sorted hs.stageIds_sorted
      (hs.stageIds_mem _ (List.mem_of_getElem? hrecords)))
  rw [nonceRecords, List.length_flatMap, List.map_congr_left hblock, List.map_const',
    List.sum_replicate, smul_eq_mul, hs.base_length, hs.stageIds_length]

/-! ## Lanes -/

/-- A lane of a committed record that is opened. -/
structure LaneCommitted (audit : Audit lib) (base : List ℕ) (stageIds : List Bytes) (key : LaneKey)
    (record : PrefixCacheStateRecord) : Prop where
  lane : LaneOf record key
  index_mem : key.blockIndex ∈ audit.indices base
  stage_mem : key.stageId ∈ audit.openedStageIds stageIds
  record_mem : record ∈ audit.arguments.stateRecords.getD key.blockIndex []

theorem Session.lanes_spec (hspread : SpreadHash sha256) (hs : Session sha256 audit base stageIds)
    (h : audit.Admissible sha256) :
    ∃ nonceKeys : List LaneKey,
      audit.lanes sha256 = .ok (sortedSet (nonceKeys ++ audit.selection.requiredLaneKeys)) ∧
      (audit.nonceRecords base stageIds ≠ [] → nonceKeys ≠ []) ∧
      (∀ result, deriveLaneKeys sha256 audit.selection.selectionSeed audit.retained.val.commitment
          (audit.nonceRecords base stageIds) rowsPerStage lanesPerRow = .ok result ↔
        audit.nonceRecords base stageIds ≠ [] ∧
        (audit.nonceRecords base stageIds).length ≤ maxStateStages ∧ sorted nonceKeys = result) ∧
      ∀ key ∈ sortedSet (nonceKeys ++ audit.selection.requiredLaneKeys),
        ∃ record, audit.LaneCommitted base stageIds key record := by
  obtain ⟨keys, hkeys, hforall, hderive⟩ := deriveLaneKeys_eq_ok hspread h.seed_ne_zero
    audit.retained.val.commitment (hs.nonceRecords_sorted h)
  refine ⟨keys.flatten, ?_, ?_, hderive, ?_⟩
  · exact bind_eq_ok.mpr ⟨base, hs.base_eq, bind_eq_ok.mpr ⟨stageIds, hs.stageIds_eq,
      bind_eq_ok.mpr ⟨keys, hkeys, rfl⟩⟩⟩
  · intro hne hnil
    clear hkeys hderive
    generalize audit.nonceRecords base stageIds = records at hforall hne
    cases hforall with
    | nil => exact hne rfl
    | cons hfirst _ =>
      rw [List.flatten_cons, List.append_eq_nil_iff] at hnil
      exact hfirst.1 hnil.1
  · intro key hkey
    rw [mem_sortedSet, List.mem_append] at hkey
    rcases hkey with hkey | hkey
    · -- a nonce-derived lane
      obtain ⟨laneKeys, hlaneKeys, hkey⟩ := List.mem_flatten.mp hkey
      obtain ⟨i, hi, rfl⟩ := List.mem_iff_getElem.mp hlaneKeys
      have hi' : i < (audit.nonceRecords base stageIds).length := by
        rwa [hforall.length_eq]
      have hlane := (hforall.get hi' hi).2 key hkey
      obtain ⟨index, hindex, records, hrecords, hrecord, hstage⟩ :=
        mem_nonceRecords (List.getElem_mem hi')
      have hblock := h.committed.records index records hrecords _ hrecord
      refine ⟨_, hlane, ?_, ?_, ?_⟩
      · rw [hlane.blockIndex_eq, List.get_eq_getElem, hblock, indices, mem_sortedSet]
        exact List.mem_append_left _ hindex
      · rw [hlane.stageId_eq, openedStageIds, mem_sortedSet]
        exact List.mem_append_left _ hstage
      · rw [hlane.blockIndex_eq, List.get_eq_getElem, hblock, List.getD_eq_getElem?_getD, hrecords]
        exact hrecord
    · -- a required lane
      obtain ⟨records, hrecords, record, hrecord, hlane⟩ := h.required_lanes key hkey
      obtain ⟨index, hindex⟩ := List.mem_iff_getElem?.mp hrecords
      have hblock := h.committed.records index records hindex record hrecord
      refine ⟨record, hlane, ?_, ?_, ?_⟩
      · rw [indices, mem_sortedSet]
        exact List.mem_append_right _ (List.mem_map_of_mem hkey)
      · rw [openedStageIds, mem_sortedSet]
        exact List.mem_append_right _ (List.mem_map_of_mem hkey)
      · rw [hlane.blockIndex_eq, hblock, List.getD_eq_getElem?_getD, hindex]
        exact hrecord

end Verathos.PrefixCache.Audit
