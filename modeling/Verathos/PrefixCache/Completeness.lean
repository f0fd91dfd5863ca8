import Verathos.PrefixCache.Reveals

/-!
# Completeness of audits

An admissible audit is complete exactly when it selects an attention layer and stays within two bounds
(`Audit.complete_iff`). A selection of layers without attention cache is not answered: the prover
raises, because it has no stage to open or no record to challenge (`Audit.gdnSelection_not_complete`).
-/

namespace Verathos.PrefixCache.Audit

open Anchor SortedSet

variable {lib : CacheMerkleLibrary} {sha256 : Bytes → Digest} {audit : Audit lib} {base : List ℕ}
  {stageIds : List Bytes}

/-! ## Blocks -/

section Blocks

theorem Session.blockOpening (hlib : lib.OddDuplicate) (hs : Session sha256 audit base stageIds)
    (h : audit.Admissible sha256) :
    ∃ opened, List.Forall₂ (fun index record => audit.retained.val.blockRecords[index]? = some record)
        (audit.indices base) opened ∧
      (opened.map fun record => record.val.blockIndex) = audit.indices base ∧
      openPrefixCacheBlocks audit.retained.val.blockRecords audit.retained.val.blockTree
        (audit.indices base) = construct BlockOpeningFields.postInit
          ⟨opened, (audit.indices base).map (lib.getPath audit.retained.val.blockTree)⟩ ∧
      ((BlockOpeningFields.mk opened ((audit.indices base).map
          (lib.getPath audit.retained.val.blockTree))).postInit = .ok () ↔
        (audit.indices base).length ≤ maxBlockSamples) := by
  obtain ⟨content, -, hblocks⟩ := h.committed.blocks
  rw [h.committed.blockTree_eq]
  refine openPrefixCacheBlocks_spec hlib (fun index record hrecord => ?_) (pairwise_sortedSet _)
    (hs.indices_ne_nil h) fun index hindex => ?_
  · exact (hblocks index record hrecord).blockIndex_eq
  · rw [h.committed.length_blockRecords]
    exact hs.indices_lt h index hindex

theorem verifyBlocks_eq_ok (hlib : lib.OddDuplicate) (h : audit.Admissible sha256)
    {content : List Digest}
    (hblocks : ∀ (index : ℕ) (record : PrefixCacheBlockRecord),
      audit.retained.val.blockRecords[index]? = some record →
        BlockCommitted audit.arguments content index record)
    {indices : List ℕ} {opening : PrefixCacheBlockOpening} {opened : List PrefixCacheBlockRecord}
    (hopened : List.Forall₂ (fun index record => audit.retained.val.blockRecords[index]? = some record)
      indices opened)
    (hindices : (opened.map fun record => record.val.blockIndex) = indices)
    (hopening : opening.val = ⟨opened, indices.map (lib.getPath audit.retained.val.blockTree)⟩)
    {expected : List Digest}
    (hexpected : List.Forall₂ (fun index digest => content[index]? = some digest) indices expected) :
    verifyPrefixCacheBlockOpening lib audit.retained.val.commitment opening indices expected =
      .ok () := by
  have hblockIndices : opening.val.blockIndices = indices := by
    rw [hopening]
    exact hindices
  refine bind_eq_ok.mpr ⟨(), raiseIf_eq_ok.mpr (not_not.mpr hblockIndices.symm),
    bind_eq_ok.mpr ⟨(), raiseIf_eq_ok.mpr (not_not.mpr hexpected.length_eq.symm), ?_⟩⟩
  rw [forM_eq_ok, hopening]
  intro entry hentry
  obtain ⟨i, hi, rfl⟩ := List.mem_iff_getElem.mp hentry
  simp only [List.length_zip, List.length_map, lt_min_iff] at hi
  simp only [List.getElem_zip, List.getElem_map]
  have hrecord := hopened.get hi.1.2 hi.1.1
  have hdigest := hexpected.get hi.1.2 hi.2
  rw [List.get_eq_getElem, List.get_eq_getElem] at hrecord hdigest
  have hblock := hblocks _ _ hrecord
  have hcontent : (opened[i]).val.contentDigest = expected[i] :=
    Option.some.inj (hblock.content_eq.symm.trans hdigest)
  have hpath : lib.verifyMerklePath (lib.root (blockTreeOf lib audit.retained.val.blockRecords))
      (opened[i]).val.canonicalBytes (lib.getPath audit.retained.val.blockTree indices[i]) = true := by
    rw [h.committed.blockTree_eq]
    refine verifyMerklePath_getPath hlib ?_
    rw [List.getElem?_map, hrecord, Option.map_some]
  simp [verifyBlock, hpath, hcontent, hblock.tokenStart_eq, hblock.tokenCount_eq,
    hblock.blockIndex_eq, h.committed.commitment_eq]

end Blocks

/-! ## Stages -/

theorem verifyStates_eq_ok {content : List Digest}
    (hblocks : ∀ (index : ℕ) (record : PrefixCacheBlockRecord),
      audit.retained.val.blockRecords[index]? = some record →
        BlockCommitted audit.arguments content index record)
    {indices : List ℕ} {opened : List PrefixCacheBlockRecord}
    (hopened : List.Forall₂ (fun index record => audit.retained.val.blockRecords[index]? = some record)
      indices opened)
    {stages : List Bytes} {openings : List PrefixCacheStateOpening}
    (hopenings : List.Forall₂ (audit.Opened stages) indices openings) :
    ((opened.zip openings).forM fun entry =>
      verifyPrefixCacheStateOpening lib entry.1 entry.2 stages) = .ok () := by
  rw [forM_eq_ok]
  intro entry hentry
  obtain ⟨i, hi, rfl⟩ := List.mem_iff_getElem.mp hentry
  rw [List.length_zip, lt_min_iff] at hi
  have hindex : i < indices.length := by
    rw [hopened.length_eq]
    exact hi.1
  have hblock := hblocks _ _ (hopened.get hindex hi.1)
  have hstate := hopenings.get hindex hi.2
  rw [List.get_eq_getElem, List.get_eq_getElem] at hblock hstate
  obtain ⟨tree, htree, hroot⟩ := hblock.stateRoot_eq
  rw [List.getElem_zip]
  refine bind_eq_ok.mpr ⟨(), raiseIf_eq_ok.mpr (not_not.mpr hstate.inventory_eq), ?_⟩
  rw [forM_eq_ok]
  rintro ⟨record, path⟩ hpair
  have hverified := (List.forall₂_iff_zip.mp (hstate.verified tree htree)).2 hpair
  have hrecord := hstate.blockIndex_eq record (List.of_mem_zip hpair).1
  simp [verifyState, hrecord, hblock.blockIndex_eq, hroot, hverified]

/-! ## The prover -/

/-- What the prover collects for its proof. -/
structure Collected (audit : Audit lib) (base : List ℕ) (stageIds : List Bytes)
    (lanes : List LaneKey) (proof : PostnonceProofFields) : Prop where
  commitment_eq : proof.commitment = audit.retained.val.commitment
  base_eq : proof.baseCaptureDigest = audit.arguments.baseCaptureDigest
  blockRecords : List.Forall₂ (fun index record =>
    audit.retained.val.blockRecords[index]? = some record) (audit.indices base)
    proof.blockOpening.val.records
  blockIndices : proof.blockOpening.val.blockIndices = audit.indices base
  blockPaths : proof.blockOpening.val.paths =
    (audit.indices base).map (lib.getPath audit.retained.val.blockTree)
  stateOpenings : List.Forall₂ (audit.Opened (audit.openedStageIds stageIds)) (audit.indices base)
    proof.stateOpenings
  laneReveals : List.Forall₂ (fun key (reveal : PrefixCacheLaneReveal) => reveal.val.key = key ∧
    verifyLane lib (openedByKey proof.stateOpenings) reveal = .ok (key, audit.laneData key)) lanes
    proof.laneReveals

variable {proof : PostnonceProofFields}

theorem Collected.map_key {lanes : List LaneKey} (hc : audit.Collected base stageIds lanes proof) :
    (proof.laneReveals.map fun reveal => reveal.val.key) = lanes := by
  rw [map_eq_of_forall₂ (g := id) (hc.laneReveals.imp fun _ _ hreveal => hreveal.1), List.map_id]

/-- The collected proof passes its constructor. -/
theorem Collected.postInit {lanes : List LaneKey} (hc : audit.Collected base stageIds lanes proof)
    (h : audit.Admissible sha256) (hopened : audit.openedStageIds stageIds ≠ []) (hne : lanes ≠ [])
    (hsorted : lanes.Pairwise (· < ·)) : proof.postInit = .ok () := by
  have hblocks : proof.stateOpenings.mapM (fun opening => opening.val.blockIndex) =
      .ok (audit.indices base) := by
    rw [mapM_eq_ok]
    exact (hc.stateOpenings.imp fun _ _ hstate => hstate.blockIndex hopened).flip
  have hlength : proof.stateOpenings.length = proof.blockOpening.val.records.length :=
    hc.stateOpenings.length_eq.symm.trans hc.blockRecords.length_eq
  have hreveals : proof.laneReveals ≠ [] := by
    intro hnil
    have hmap := hc.map_key
    rw [hnil] at hmap
    exact hne hmap.symm
  simp only [PostnonceProofFields.postInit, bind_eq_ok, raiseIf_eq_ok, nonzero32_eq_ok, exists_const,
    hc.base_eq, hc.map_key, isCanonical_iff, not_not]
  refine ⟨h.committed.baseCaptureDigest_ne_zero, ?_, _, hblocks, hc.blockIndices.symm, hsorted⟩
  simp [hlength, hreveals]

theorem sortedSet_sorted_append (keys required : List LaneKey) :
    sortedSet (sorted keys ++ required) = sortedSet (keys ++ required) := by
  refine sortedSet_congr fun key => ?_
  rw [List.mem_append, List.mem_append, mem_sorted]

theorem map_fst_runtimeRows (lanes : List LaneKey) :
    (audit.runtimeRows lanes).map Prod.fst =
      sortedSet ((lanes.map LaneKey.stageKey).filter (· ∉ audit.provenanceKeys)) := by
  rw [runtimeRows, List.map_map]
  exact List.map_id _

theorem map_fst_provenanceRows (lanes : List LaneKey) :
    (audit.provenanceRows lanes).map Prod.fst =
      sortedSet ((lanes.filter fun key => key.stageKey ∈ audit.provenanceKeys).map
        LaneKey.rowKey) := by
  rw [provenanceRows, List.map_map]
  exact List.map_id _

theorem not_inventoryMismatch {κ β : Type} [LinearOrder κ] [DecidableEq κ] {rows : List (κ × β)} {expected : List κ}
    (h : rows.map Prod.fst = sortedSet expected) :
    ¬ (rows.map Prod.fst ≠ sortedSet expected ∨
      rows.length ≠ (rows.map Prod.fst).dedup.length) := by
  have hnodup : (rows.map Prod.fst).Nodup := by
    rw [h]
    exact (pairwise_sortedSet _).imp ne_of_lt
  rw [hnodup.dedup, List.length_map]
  simp [h]

variable {nonceKeys : List LaneKey}

/-- The prover collects its proof from the unchanged rows. -/
theorem Session.build_eq_construct (hlib : lib.OddDuplicate)
    (hs : Session sha256 audit base stageIds) (h : audit.Admissible sha256)
    (hcommitted : ∀ key ∈ sortedSet (nonceKeys ++ audit.selection.requiredLaneKeys),
      ∃ record, audit.LaneCommitted base stageIds key record)
    (hblocks : (audit.indices base).length ≤ maxBlockSamples)
    (hopened : audit.openedStageIds stageIds ≠ [])
    (hderive : deriveLaneKeys sha256 audit.selection.selectionSeed audit.retained.val.commitment
      (audit.nonceRecords base stageIds) rowsPerStage lanesPerRow = .ok (sorted nonceKeys)) :
    ∃ proof, audit.Collected base stageIds
        (sortedSet (nonceKeys ++ audit.selection.requiredLaneKeys)) proof ∧
      buildPrefixCachePostnonceProof sha256 audit.retained audit.selection
        (audit.runtimeRows (sortedSet (nonceKeys ++ audit.selection.requiredLaneKeys)))
        (audit.provenanceRows (sortedSet (nonceKeys ++ audit.selection.requiredLaneKeys))) =
        construct PostnonceProofFields.postInit proof := by
  set lanes := sortedSet (nonceKeys ++ audit.selection.requiredLaneKeys) with hlanes
  obtain ⟨opened, hrecords, hindices, hopenEq, hpostIff⟩ := hs.blockOpening hlib h
  have hpost := hpostIff.mpr hblocks
  obtain ⟨openings, hopenings, hstates⟩ := hs.stateOpenings hlib h hopened
  obtain ⟨sources, hsources, hkeys, hsourceOf⟩ := exists_runtimeSources h hcommitted hstates
  have hstep : ∀ key ∈ lanes, ∃ reveal : PrefixCacheLaneReveal,
      revealLane audit.arguments.provenanceSources (audit.arguments.provenanceSources ++ sources)
        (audit.runtimeRows lanes) (audit.provenanceRows lanes) key = .ok reveal ∧
      reveal.val.key = key ∧
      verifyLane lib (openedByKey openings) reveal = .ok (key, audit.laneData key) := by
    intro key hkey
    obtain ⟨record, hl⟩ := hcommitted key hkey
    have hlt := hs.indices_lt h key.blockIndex hl.index_mem
    have hle := h.committed.length_stateRecords_le
    have hmax : maxBlocks < 2 ^ 32 := by decide
    exact hl.revealLane_spec hlib h (by omega) hkey hkeys hsourceOf hstates
  obtain ⟨reveals, hreveals, hforall⟩ := exists_mapM_eq_ok hstep
  refine ⟨⟨audit.retained.val.commitment, audit.retained.val.baseCaptureDigest, ⟨_, hpost⟩, openings,
    reveals⟩, ⟨rfl, h.committed.baseCaptureDigest_eq, hrecords, hindices, rfl, hstates, hforall⟩, ?_⟩
  -- the required lanes are committed
  have hrequired : ¬ ∃ key ∈ audit.selection.requiredLaneKeys,
      RequiredMalformed key (dictGet audit.retained.val.recordsByKey key.stageKey) := by
    rintro ⟨key, hkey, hmalformed⟩
    obtain ⟨record, hl⟩ := hcommitted key (by
      rw [hlanes, mem_sortedSet]
      exact List.mem_append_right _ hkey)
    rw [hl.committed_record h] at hmalformed
    exact absurd hl.lane.rowIndex_lt (not_lt.mpr hmalformed)
  have hchallenged := hs.challengedRecords_eq hopened hstates
  have hlaneKeys := sortedSet_sorted_append nonceKeys audit.selection.requiredLaneKeys
  rw [← hlanes] at hlaneKeys
  have hblockOpening : openPrefixCacheBlocks audit.retained.val.blockRecords
      audit.retained.val.blockTree (audit.indices base) = .ok ⟨_, hpost⟩ := by
    rw [hopenEq, construct_eq_ok]
  have hruntime := not_inventoryMismatch (@map_fst_runtimeRows lib audit lanes)
  have hprovenance := not_inventoryMismatch (@map_fst_provenanceRows lib audit lanes)
  rw [provenanceKeys] at hruntime hprovenance
  unfold buildPrefixCachePostnonceProof
  rw [h.committed.provenanceSources_eq]
  refine (bind_of_eq_ok hs.base_eq).trans ?_
  refine (bind_of_eq_ok hs.stageIds_eq).trans ?_
  refine (bind_of_eq_ok (h.canonicalRequired false)).trans ?_
  refine (bind_of_eq_ok (a := ()) (raiseIf_eq_ok.mpr hrequired)).trans ?_
  refine (bind_of_eq_ok hblockOpening).trans ?_
  refine (bind_of_eq_ok hopenings).trans ?_
  refine (bind_of_eq_ok hchallenged).trans ?_
  refine (bind_of_eq_ok hderive).trans ?_
  dsimp only
  rw [hlaneKeys]
  refine (bind_of_eq_ok (a := ()) (raiseIf_eq_ok.mpr hruntime)).trans ?_
  refine (bind_of_eq_ok hsources).trans ?_
  refine (bind_of_eq_ok (a := ()) (raiseIf_eq_ok.mpr hprovenance)).trans ?_
  exact bind_of_eq_ok hreveals

/-! ## The verifier -/

theorem Session.required_lt (hs : Session sha256 audit base stageIds) (h : audit.Admissible sha256) :
    ¬ ∃ key ∈ audit.selection.requiredLaneKeys,
      key.blockIndex ≥ audit.retained.val.commitment.val.blockCount := by
  rintro ⟨key, hkey, hge⟩
  rw [h.committed.commitment_eq] at hge
  refine absurd (hs.indices_lt h key.blockIndex ?_) (not_lt.mpr hge)
  rw [indices, mem_sortedSet]
  exact List.mem_append_right _ (List.mem_map_of_mem hkey)

theorem Collected.verifyLaneReveals (hc : audit.Collected base stageIds
      (sortedSet (nonceKeys ++ audit.selection.requiredLaneKeys)) proof)
    (hs : Session sha256 audit base stageIds) (h : audit.Admissible sha256)
    (hopened : audit.openedStageIds stageIds ≠ [])
    (hderive : deriveLaneKeys sha256 audit.selection.selectionSeed audit.retained.val.commitment
      (audit.nonceRecords base stageIds) rowsPerStage lanesPerRow = .ok (sorted nonceKeys)) :
    verifyPrefixCacheLaneReveals lib sha256 audit.retained.val.commitment proof.stateOpenings
        proof.laneReveals audit.selection.selectionSeed stageIds audit.selection.requiredLaneKeys =
      .ok ((sortedSet (nonceKeys ++ audit.selection.requiredLaneKeys)).map
        fun key => (key, audit.laneData key)) := by
  have hkeys : ¬ (proof.laneReveals.map fun reveal => reveal.val.key) ≠
      sortedSet (sorted nonceKeys ++ audit.selection.requiredLaneKeys) := by
    rw [hc.map_key, sortedSet_sorted_append]
    exact not_not.mpr rfl
  refine (bind_of_eq_ok hs.base_eq).trans ?_
  refine (bind_of_eq_ok (hs.challengedRecords_eq hopened hc.stateOpenings)).trans ?_
  refine (bind_of_eq_ok hderive).trans ?_
  refine (bind_of_eq_ok (h.canonicalRequired true)).trans ?_
  refine (bind_of_eq_ok (a := ()) (raiseIf_eq_ok.mpr (hs.required_lt h))).trans ?_
  refine (bind_of_eq_ok (a := ()) (raiseIf_eq_ok.mpr hkeys)).trans ?_
  rw [mapM_eq_ok, List.forall₂_map_right_iff]
  exact (hc.laneReveals.imp fun _ _ hreveal => hreveal.2).flip

/-- The verifier accepts the collected proof and returns the captured bytes. -/
theorem Collected.verify (hlib : lib.OddDuplicate) {proof : PrefixCachePostnonceProof}
    (hc : audit.Collected base stageIds
      (sortedSet (nonceKeys ++ audit.selection.requiredLaneKeys)) proof.val)
    (hs : Session sha256 audit base stageIds) (h : audit.Admissible sha256)
    (hopened : audit.openedStageIds stageIds ≠ [])
    (hderive : deriveLaneKeys sha256 audit.selection.selectionSeed audit.retained.val.commitment
      (audit.nonceRecords base stageIds) rowsPerStage lanesPerRow = .ok (sorted nonceKeys)) :
    verifyPrefixCachePostnonce lib sha256 proof (audit.request sha256) audit.selection =
      .ok ((sortedSet (nonceKeys ++ audit.selection.requiredLaneKeys)).map
        fun key => (key, audit.laneData key)) := by
  obtain ⟨content, hcontent, hblocks⟩ := h.committed.blocks
  have hcommitment := h.committed.commitment_eq
  -- the content digests of the opened blocks
  obtain ⟨expected, hexpected, hexpectedAt⟩ : ∃ expected,
      (audit.indices base).mapM (getItem content) = .ok expected ∧
      List.Forall₂ (fun index digest => content[index]? = some digest) (audit.indices base)
        expected := by
    refine exists_mapM_eq_ok fun index hindex => ?_
    have hlt := hs.indices_lt h index hindex
    rw [← h.committed.length_blockRecords] at hlt
    have hblock := hblocks index _ (List.getElem?_eq_getElem hlt)
    exact ⟨_, getItem_eq_ok.mpr hblock.content_eq, hblock.content_eq⟩
  have hfold : foldPrefixCacheCommitment sha256 proof.val.baseCaptureDigest
      audit.retained.val.commitment = .ok (audit.request sha256).captureChainDigest := by
    rw [hc.base_eq]
    exact bind_eq_ok.mpr
      ⟨(), nonzero32_eq_ok.mpr h.committed.baseCaptureDigest_ne_zero, rfl⟩
  have hmatches : ¬ (audit.retained.val.commitment.val.executionProfileDigest ≠
        (audit.request sha256).executionProfileDigest ∨
      audit.retained.val.commitment.val.promptTokenRoot ≠ (audit.request sha256).promptTokenRoot ∨
      audit.retained.val.commitment.val.contextTokenCount ≠
        (audit.request sha256).promptTokenIds.length ∨
      audit.retained.val.commitment.val.blockTokenCount ≠
        (audit.request sha256).signedBlockTokenCount ∨
      audit.retained.val.commitment.val.executedSuffixDigest ≠
        (audit.request sha256).executedSuffixDigest) := by
    rw [hcommitment]
    simp [request]
  have hderiveContent : deriveContentDigests sha256 (audit.request sha256).executionProfileDigest
      audit.retained.val.commitment.val.cacheSaltDigest
      ((audit.request sha256).promptTokenIds.take
        audit.retained.val.commitment.val.cachedTokenCount)
      audit.retained.val.commitment.val.blockTokenCount = .ok content := by
    rw [hcommitment]
    exact hcontent
  have hblockOpening : verifyPrefixCacheBlockOpening lib audit.retained.val.commitment
      proof.val.blockOpening (audit.indices base) expected = .ok () :=
    verifyBlocks_eq_ok hlib h hblocks hc.blockRecords hc.blockIndices (by rw [← hc.blockPaths])
      hexpectedAt
  unfold verifyPrefixCachePostnonce
  rw [hc.commitment_eq]
  refine (bind_of_eq_ok (a := ()) (nonzero32_eq_ok.mpr h.capture_ne_zero)).trans ?_
  refine (bind_of_eq_ok hfold).trans ?_
  refine (bind_of_eq_ok (a := ()) (raiseIf_eq_ok.mpr (not_not.mpr rfl))).trans ?_
  refine (bind_of_eq_ok (a := ()) (raiseIf_eq_ok.mpr hmatches)).trans ?_
  refine (bind_of_eq_ok (h.canonicalRequired true)).trans ?_
  refine (bind_of_eq_ok (a := ()) (raiseIf_eq_ok.mpr (hs.required_lt h))).trans ?_
  refine (bind_of_eq_ok hs.base_eq).trans ?_
  refine (bind_of_eq_ok hderiveContent).trans ?_
  refine (bind_of_eq_ok hexpected).trans ?_
  refine (bind_of_eq_ok (a := ()) hblockOpening).trans ?_
  refine (bind_of_eq_ok hs.stageIds_eq).trans ?_
  refine (bind_of_eq_ok (a := ())
    (verifyStates_eq_ok hblocks hc.blockRecords hc.stateOpenings)).trans ?_
  exact hc.verifyLaneReveals hs h hopened hderive

/-! ## The result -/

theorem complete_of_withinBounds (hlib : lib.OddDuplicate) (hspread : SpreadHash sha256)
    (h : audit.Admissible sha256) (hbounds : audit.WithinBounds sha256) : audit.Complete sha256 := by
  obtain ⟨base, stageIds, hs⟩ := h.session hspread
  obtain ⟨nonceKeys, hlanes, hnonce, hderive, hcommitted⟩ := hs.lanes_spec hspread h
  have hattention := List.length_pos_iff.mpr hbounds.attention
  have hblockCount := List.length_pos_iff.mpr h.committed.stateRecords_ne_nil
  have hlength := hs.length_nonceRecords h
  have hrecords : audit.nonceRecords base stageIds ≠ [] := by
    rw [← List.length_pos_iff, hlength]
    exact Nat.mul_pos (lt_min (by decide) hblockCount) (by omega)
  have hopened : audit.openedStageIds stageIds ≠ [] := by
    have hpos : 0 < stageIds.length := by
      rw [hs.stageIds_length]
      omega
    obtain ⟨stageId, hstageId⟩ := List.exists_mem_of_length_pos hpos
    refine List.ne_nil_of_mem (a := stageId) ?_
    rw [openedStageIds, mem_sortedSet]
    exact List.mem_append_left _ hstageId
  have hkeys := (hderive _).mpr ⟨hrecords, hlength.le.trans hbounds.records, rfl⟩
  obtain ⟨proof, hc, hbuild⟩ := hs.build_eq_construct hlib h hcommitted
    (hbounds.blocks base hs.base_eq) hopened hkeys
  have hne : sortedSet (nonceKeys ++ audit.selection.requiredLaneKeys) ≠ [] := by
    obtain ⟨key, hkey⟩ := List.exists_mem_of_ne_nil _ (hnonce hrecords)
    refine List.ne_nil_of_mem (a := key) ?_
    rw [mem_sortedSet]
    exact List.mem_append_left _ hkey
  have hpost := hc.postInit h hopened hne (pairwise_sortedSet _)
  refine ⟨_, ⟨proof, hpost⟩, hlanes, ?_, ?_⟩
  · rw [hbuild, construct_eq_ok]
  · exact Collected.verify hlib hc hs h hopened hkeys

theorem withinBounds_of_complete (hlib : lib.OddDuplicate) (hspread : SpreadHash sha256)
    (h : audit.Admissible sha256) (hcomplete : audit.Complete sha256) :
    audit.WithinBounds sha256 := by
  obtain ⟨lanes, proof, -, hbuild, -⟩ := hcomplete
  obtain ⟨base, stageIds, hs⟩ := h.session hspread
  obtain ⟨nonceKeys, -, -, hderive, -⟩ := hs.lanes_spec hspread h
  unfold buildPrefixCachePostnonceProof at hbuild
  rw [bind_of_eq_ok hs.base_eq, bind_of_eq_ok hs.stageIds_eq,
    bind_of_eq_ok (h.canonicalRequired false)] at hbuild
  obtain ⟨_, -, hbuild⟩ := bind_eq_ok.mp hbuild
  obtain ⟨blockOpening, hblockOpening, hbuild⟩ := bind_eq_ok.mp hbuild
  obtain ⟨openings, hopenings, hbuild⟩ := bind_eq_ok.mp hbuild
  obtain ⟨challenged, hchallenged, hbuild⟩ := bind_eq_ok.mp hbuild
  obtain ⟨keys, hkeys, -⟩ := bind_eq_ok.mp hbuild
  -- the block opening passes its constructor
  obtain ⟨opened, -, -, hopenEq, hpostIff⟩ := hs.blockOpening hlib h
  have hblocks : (audit.indices base).length ≤ maxBlockSamples := by
    refine hpostIff.mp ?_
    have hopening := hopenEq.symm.trans hblockOpening
    rw [construct_eq_ok] at hopening
    rw [← hopening]
    exact blockOpening.property
  -- without a stage, nothing is opened
  have hopened : audit.openedStageIds stageIds ≠ [] := by
    intro hnil
    obtain ⟨index, hindex⟩ := List.exists_mem_of_ne_nil _ (hs.indices_ne_nil h)
    rw [mapM_eq_ok] at hopenings
    obtain ⟨i, hi, rfl⟩ := List.mem_iff_getElem.mp hindex
    have hstate := hopenings.get hi (by rwa [← hopenings.length_eq])
    obtain ⟨records, -, hstate⟩ := bind_eq_ok.mp hstate
    obtain ⟨tree, -, hstate⟩ := bind_eq_ok.mp hstate
    obtain ⟨_, hcheck, -⟩ := bind_eq_ok.mp hstate
    rw [raiseIf_eq_ok] at hcheck
    exact hcheck (.inr (.inl hnil))
  -- the challenged records are the signed stages of the sampled blocks
  obtain ⟨openings', hopenings', hstates⟩ := hs.stateOpenings hlib h hopened
  obtain rfl : openings = openings' := Except.ok.inj (hopenings.symm.trans hopenings')
  obtain rfl : challenged = audit.nonceRecords base stageIds :=
    Except.ok.inj (hchallenged.symm.trans (hs.challengedRecords_eq hopened hstates))
  obtain ⟨hne, hle, -⟩ := (hderive keys).mp hkeys
  rw [hs.length_nonceRecords h] at hle
  refine ⟨?_, ?_, hle⟩
  · intro hnil
    refine hne (List.length_eq_zero_iff.mp ?_)
    rw [hs.length_nonceRecords h, hnil]
    rfl
  · intro base' hbase'
    obtain rfl : base = base' := Except.ok.inj (hs.base_eq.symm.trans hbase')
    exact hblocks

/-- An admissible audit is complete exactly when it selects an attention layer and stays within the
two bounds. -/
theorem complete_iff (hlib : lib.OddDuplicate) (hspread : SpreadHash sha256)
    (h : audit.Admissible sha256) : audit.Complete sha256 ↔ audit.WithinBounds sha256 :=
  ⟨withinBounds_of_complete hlib hspread h, complete_of_withinBounds hlib hspread h⟩

/-! ## A hybrid model -/

section Hybrid

/-- A tree library with one digest. -/
def constLibrary : CacheMerkleLibrary :=
  CacheMerkleLibrary.oddDuplicate (fun _ _ => Digest.ones) fun _ => Digest.ones

theorem climbPath_const (index : ℕ) (siblings : List Digest) :
    OddMerkle.climbPath (fun _ _ => Digest.ones) Digest.ones index siblings = Digest.ones := by
  induction siblings generalizing index with
  | nil => rfl
  | cons sibling rest ih =>
    rw [OddMerkle.climbPath, ite_self]
    exact ih _

theorem root_const {leaves : List Digest} (hne : leaves ≠ [])
    (hleaves : ∀ leaf ∈ leaves, leaf = Digest.ones) :
    OddMerkle.root (fun _ _ => Digest.ones) leaves = some Digest.ones := by
  obtain ⟨leaf, hleaf⟩ := List.exists_mem_of_ne_nil leaves hne
  obtain ⟨index, hindex⟩ := List.mem_iff_getElem?.mp hleaf
  rw [OddMerkle.climbPath_path _ hindex, hleaves leaf hleaf, climbPath_const]

theorem root_fromLeaves_const {leaves : List Bytes} (hne : leaves ≠ []) :
    constLibrary.root (constLibrary.fromLeaves leaves) = Digest.ones := by
  have hroot := @root_const (leaves.map fun _ => Digest.ones) (by simpa using hne) (by simp)
  change (OddMerkle.root (fun _ _ => Digest.ones) (leaves.map fun _ => Digest.ones)).getD
    Digest.zero = Digest.ones
  rw [hroot, Option.getD_some]

/-- The commitment to one row of one byte. -/
def oneByteCommitment (stageId : StageId) : ExecutionAnchorCommitment :=
  ⟨stageId, 1, 1, Digest.ones, by decide, by decide, by decide, by decide, by decide⟩

theorem buildExecutionAnchorTree_one_byte (stageId : StageId) :
    buildExecutionAnchorTree constLibrary.toMerkleLibrary stageId [[7]] =
      .ok (oneByteCommitment stageId, [Digest.ones]) := by
  have hleaf : rowLeafHash constLibrary.toMerkleLibrary stageId 0 1 [7] = .ok Digest.ones := by
    refine bind_eq_ok.mpr ⟨(), raiseIf_eq_ok.mpr (by simp), ?_⟩
    rw [rowLeafFromChunks_eq_ok]
    refine root_const ?_ (by simp [constLibrary, CacheMerkleLibrary.oddDuplicate,
      MerkleLibrary.oddDuplicate])
    rw [Ne, List.map_eq_nil_iff, ← List.length_eq_zero_iff, length_lanes]
    have hpos := laneBytes_pos stageId
    rw [List.length_singleton, Nat.add_sub_cancel_left, Nat.div_self hpos]
    decide
  refine bind_eq_ok.mpr ⟨(), rfl, bind_eq_ok.mpr ⟨[Digest.ones], ?_, ?_⟩⟩
  · rw [mapM_eq_ok]
    exact .cons hleaf .nil
  · have hroot : constLibrary.root [Digest.ones] = Digest.ones := by
      change (OddMerkle.root (fun _ _ => Digest.ones) [Digest.ones]).getD Digest.zero = Digest.ones
      rw [root_const (by simp) (by simp), Option.getD_some]
    refine bind_eq_ok.mpr ⟨oneByteCommitment stageId, ?_, rfl⟩
    change ExecutionAnchorCommitment.new stageId 1 1 (constLibrary.root [Digest.ones]) = _
    rw [hroot]
    rfl

/-- `l0.attention_k_cache`. -/
def keyStage : StageId := ⟨asciiBytes "l0.attention_k_cache", by decide⟩

/-- `l0.attention_v_cache`. -/
def valueStage : StageId := ⟨asciiBytes "l0.attention_v_cache", by decide⟩

/-- The record of one row of one byte in the first block. -/
def oneByteRecord (stageId : StageId) : PrefixCacheStateRecord := ⟨⟨0, stageId, 1, 1, Digest.ones⟩, rfl⟩

/-- One cached token, with one row for the keys and one for the values of layer 0. -/
def hybridArguments : RequestMaterial constLibrary where
  request := ⟨Digest.ones, Digest.ones, Digest.ones, Digest.ones⟩
  baseCaptureDigest := Digest.ones
  tokenIds := [5]
  blockTokenCount := 1
  cachedTokenCount := 1
  stateRecords := [[oneByteRecord keyStage, oneByteRecord valueStage]]
  stateTrees := [[Digest.ones, Digest.ones]]
  provenanceSources := []
  runtimeBlockIdsByLayer := []

theorem root_two_leaves : constLibrary.root [Digest.ones, Digest.ones] = Digest.ones :=
  @root_fromLeaves_const [[], []] (by simp)

theorem exists_hybridMaterial :
    ∃ retained, buildPrefixCacheRequestMaterial counterHash hybridArguments = .ok retained := by
  obtain ⟨message, hcontent⟩ : ∃ message, deriveContentDigests counterHash Digest.ones Digest.ones
      ([5].take 1) 1 = .ok [counterHash message] := ⟨_, rfl⟩
  -- the block record
  have hrecord : (BlockRecordFields.mk 0 0 1 (counterHash message) Digest.ones).postInit = .ok () := by
    simp only [BlockRecordFields.postInit, bind_eq_ok, u32_eq_ok, positiveU32_eq_ok, nonzero32_eq_ok,
      raiseIf_eq_ok, exists_const]
    exact ⟨by decide, by decide, by decide, by decide, counterHash_ne_zero message, by decide⟩
  have hblock : @buildBlockRecord constLibrary 1 1 [counterHash message]
      (([oneByteRecord keyStage, oneByteRecord valueStage], [Digest.ones, Digest.ones]), 0) =
      .ok ⟨_, hrecord⟩ := by
    refine bind_eq_ok.mpr ⟨(), raiseIf_eq_ok.mpr ?_, bind_eq_ok.mpr ⟨_, rfl, ?_⟩⟩
    · rw [root_two_leaves]
      simp [oneByteRecord, constLibrary, CacheMerkleLibrary.oddDuplicate,
        MerkleLibrary.oddDuplicate]
      decide
    · rw [construct_eq_ok, root_two_leaves]
      rfl
  -- the commitment
  have hcommitment : (CommitmentFields.mk Digest.ones Digest.ones Digest.ones Digest.ones Digest.ones
      none 1 1 1 1).postInit = .ok () := rfl
  have hbuild : buildPrefixCacheCommitment constLibrary [⟨_, hrecord⟩]
      ⟨Digest.ones, Digest.ones, Digest.ones, Digest.ones⟩ 1 none (some 1) =
      .ok (⟨_, hcommitment⟩, [Digest.ones]) := by
    refine bind_eq_ok.mpr ⟨(), raiseIf_eq_ok.mpr (by simp [maxBlocks]), bind_eq_ok.mpr ⟨(), rfl,
      bind_eq_ok.mpr ⟨(), rfl, bind_eq_ok.mpr ⟨1, rfl, bind_eq_ok.mpr ⟨(), rfl,
        bind_eq_ok.mpr ⟨⟨_, hcommitment⟩, ?_, rfl⟩⟩⟩⟩⟩⟩
    rw [construct_eq_ok, root_fromLeaves_const (by simp)]
    rfl
  have hmaterial : (@RetainedMaterialFields.mk constLibrary ⟨_, hcommitment⟩ [⟨_, hrecord⟩]
      [Digest.ones] [[oneByteRecord keyStage, oneByteRecord valueStage]]
      [[Digest.ones, Digest.ones]] Digest.ones [] []).postInit = .ok () := by
    have hroot : constLibrary.root [Digest.ones] = Digest.ones :=
      @root_fromLeaves_const [[]] (by simp)
    simp only [RetainedMaterialFields.postInit, bind_eq_ok, raiseIf_eq_ok, nonzero32_eq_ok,
      exists_const, hroot]
    refine ⟨by decide, ?_, ?_, by decide, by simp, by decide, by simp⟩
    · rintro (hne | hne | hne | hne | hne) <;> exact hne rfl
    · rintro ⟨entry, hentry, hinconsistent⟩
      obtain rfl := List.mem_singleton.mp hentry
      rcases hinconsistent with hne | hnil | ⟨item, hitem, hne⟩ | hne | hne
      · exact hne rfl
      · cases hnil
      · rcases List.mem_pair.mp hitem with rfl | rfl <;> exact hne rfl
      · exact hne rfl
      · exact hne root_two_leaves
  refine ⟨⟨_, hmaterial⟩, ?_⟩
  refine bind_eq_ok.mpr ⟨(), raiseIf_eq_ok.mpr ?_, bind_eq_ok.mpr ⟨(), rfl, bind_eq_ok.mpr ⟨(), rfl,
    bind_eq_ok.mpr ⟨(), rfl, bind_eq_ok.mpr ⟨_, hcontent, bind_eq_ok.mpr ⟨(), rfl,
      bind_eq_ok.mpr ⟨[⟨_, hrecord⟩], ?_, bind_eq_ok.mpr ⟨_, hbuild, ?_⟩⟩⟩⟩⟩⟩⟩⟩
  · simp [hybridArguments, maxBlocks]
    rfl
  · rw [mapM_eq_ok]
    exact .cons hblock .nil
  · rw [construct_eq_ok]
    rfl

/-- The audit of some layers of a model whose layer 0 has an attention cache and whose layer 1 has a
recurrent state. -/
def hybridAudit (retained : PrefixCacheRetainedMaterial constLibrary) (selected : List ℕ) :
    Audit constLibrary where
  arguments := hybridArguments
  retained := retained
  selection := ⟨Digest.ones, [(0, .attentionKv), (1, .gdnState)], selected, []⟩
  rows := fun _ => [[7]]

theorem admissible_hybridAudit {retained : PrefixCacheRetainedMaterial constLibrary}
    (hbuilt : buildPrefixCacheRequestMaterial counterHash hybridArguments = .ok retained) {layer : ℕ}
    (hlayer : layer < 2) : (hybridAudit retained [layer]).Admissible counterHash where
  built := hbuilt
  trees := by
    refine .cons (buildPrefixCacheStateTree_eq_ok.mpr ⟨by simp, by decide, by decide, by decide, rfl⟩)
      .nil
  inventory := by
    refine ⟨[keyStage.text, valueStage.text], ?_, ?_⟩
    · intro records hrecords
      obtain rfl := List.mem_singleton.mp hrecords
      rfl
    · intro layer hlayer
      obtain rfl : layer = 0 := by simpa [hybridAudit] using hlayer
      decide
  rows_committed := by
    intro records hrecords record hrecord
    obtain rfl := List.mem_singleton.mp hrecords
    rcases List.mem_pair.mp hrecord with rfl | rfl
    · exact ⟨_, _, buildExecutionAnchorTree_one_byte keyStage, rfl, rfl, rfl⟩
    · exact ⟨_, _, buildExecutionAnchorTree_one_byte valueStage, rfl, rfl, rfl⟩
  sources_built := nofun
  capture_ne_zero := counterHash_ne_zero _
  seed_ne_zero := show Digest.ones ≠ Digest.zero by decide
  selected_ne_nil := by simp [hybridAudit]
  selected_nodup := List.nodup_singleton _
  families_nodup := show [0, 1].Nodup by decide
  selected_signed := by
    intro layer' hlayer'
    rw [List.mem_singleton.mp hlayer']
    interval_cases layer
    · exact ⟨.attentionKv, List.mem_cons_self⟩
    · exact ⟨.gdnState, List.mem_cons_of_mem _ List.mem_cons_self⟩
  required_sorted := rfl
  required_length := Nat.zero_le _
  required_lanes := nofun

/-- The selection of the recurrent layer alone is admissible, and its audit is not complete. -/
theorem gdnSelection_not_complete :
    ∃ retained, buildPrefixCacheRequestMaterial counterHash hybridArguments = .ok retained ∧
      (hybridAudit retained [1]).Admissible counterHash ∧
      ¬ (hybridAudit retained [1]).Complete counterHash := by
  obtain ⟨retained, hbuilt⟩ := exists_hybridMaterial
  have h := admissible_hybridAudit hbuilt (show 1 < 2 by decide)
  refine ⟨retained, hbuilt, h, fun hcomplete => ?_⟩
  have hbounds := withinBounds_of_complete (CacheMerkleLibrary.oddDuplicate_lawful _ _)
    spreadHash_counterHash h hcomplete
  exact hbounds.attention rfl

/-- The selection of the attention layer is complete. -/
theorem complete_iff_attentionLayer :
    ∃ retained, buildPrefixCacheRequestMaterial counterHash hybridArguments = .ok retained ∧
      (hybridAudit retained [0]).Admissible counterHash ∧
      (hybridAudit retained [0]).Complete counterHash := by
  obtain ⟨retained, hbuilt⟩ := exists_hybridMaterial
  have h := admissible_hybridAudit hbuilt (show 0 < 2 by decide)
  refine ⟨retained, hbuilt, h, (complete_iff (CacheMerkleLibrary.oddDuplicate_lawful _ _)
    spreadHash_counterHash h).mpr ⟨List.cons_ne_nil _ _, fun base hbase => ?_, ?_⟩⟩
  · obtain ⟨base', stageIds, hs⟩ := h.session spreadHash_counterHash
    obtain rfl : base = base' := Except.ok.inj (hbase.symm.trans hs.base_eq)
    have hone : base.length ≤ 1 := hs.base_length.trans_le (min_le_right _ _)
    calc (sortedSet (base ++ [])).length ≤ base.length := by
          rw [List.append_nil]
          exact length_sortedSet_le base
      _ ≤ maxBlockSamples := hone.trans (by decide)
  · exact show 2 ≤ maxStateStages by decide

end Hybrid

end Verathos.PrefixCache.Audit
