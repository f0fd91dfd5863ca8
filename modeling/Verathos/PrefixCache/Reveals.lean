import Verathos.PrefixCache.Selected

/-!
# Reveals

From the unchanged rows, the tree of every runtime stage is the committed one, every selected lane is
revealed, and the verifier authenticates the reveal and returns the captured bytes (`revealLane_spec`).
-/

namespace Verathos.PrefixCache.Audit

open Anchor SortedSet

variable {lib : CacheMerkleLibrary} {sha256 : Bytes → Digest} {audit : Audit lib} {base : List ℕ}
  {stageIds : List Bytes} {key : LaneKey} {record : PrefixCacheStateRecord}

/-! ## Records -/

theorem Admissible.record_unique (h : audit.Admissible sha256) {index index' : ℕ}
    {record record' : PrefixCacheStateRecord}
    (hrecord : record ∈ audit.arguments.stateRecords.getD index [])
    (hrecord' : record' ∈ audit.arguments.stateRecords.getD index' [])
    (hkey : record.val.key = record'.val.key) : record = record' := by
  have hget : ∀ {index : ℕ} {record : PrefixCacheStateRecord},
      record ∈ audit.arguments.stateRecords.getD index [] →
      audit.arguments.stateRecords[index]? = some (audit.arguments.stateRecords.getD index []) := by
    intro index record hmem
    rw [List.getD_eq_getElem?_getD] at hmem ⊢
    cases hrecords : audit.arguments.stateRecords[index]? with
    | none =>
      rw [hrecords] at hmem
      exact absurd hmem (by simp)
    | some records => rfl
  have hblock := h.committed.records index _ (hget hrecord) record hrecord
  have hblock' := h.committed.records index' _ (hget hrecord') record' hrecord'
  obtain ⟨hindex, hstage⟩ := Prod.mk.inj (toLex.injective hkey)
  rw [hblock, hblock'] at hindex
  subst hindex
  obtain ⟨tree, -, htree⟩ := h.stateTree (hget hrecord)
  exact List.inj_on_of_nodup_map (htree.sorted.imp ne_of_lt) hrecord hrecord' hstage

/-- The opened records by key. -/
abbrev openedByKey (openings : List PrefixCacheStateOpening) :
    List (StageKey × PrefixCacheStateRecord) :=
  (openings.flatMap fun opening => opening.val.records).map fun record => (record.val.key, record)

variable {openings : List PrefixCacheStateOpening}

theorem mem_openings {opened : List Bytes} {indices : List ℕ}
    (hopenings : List.Forall₂ (audit.Opened opened) indices openings) :
    (record ∈ openings.flatMap fun opening => opening.val.records) ↔
      ∃ index ∈ indices, record ∈ recordsOf (audit.arguments.stateRecords.getD index []) opened := by
  induction hopenings with
  | nil => simp
  | cons hopened _ ih =>
    rw [List.flatMap_cons, List.mem_append, ih, hopened.records_eq]
    simp only [List.mem_cons, or_and_right, exists_or, exists_eq_left]

theorem LaneCommitted.opened_record (hl : audit.LaneCommitted base stageIds key record)
    (h : audit.Admissible sha256)
    (hopenings : List.Forall₂ (audit.Opened (audit.openedStageIds stageIds)) (audit.indices base)
      openings) : dictGet (openedByKey openings) key.stageKey = some record := by
  have hrecord : record ∈ openings.flatMap fun opening => opening.val.records := by
    rw [mem_openings hopenings]
    refine ⟨key.blockIndex, hl.index_mem, List.mem_filter.mpr ⟨hl.record_mem, ?_⟩⟩
    rw [decide_eq_true_eq, ← hl.lane.stageId_eq]
    exact hl.stage_mem
  refine dictGet_of_mem (List.mem_map.mpr ⟨record, hrecord, by rw [hl.lane.stageKey_eq]⟩) ?_
  intro record' hmem
  obtain ⟨record'', hrecord'', heq⟩ := List.mem_map.mp hmem
  obtain ⟨hkey, rfl⟩ := Prod.mk.inj heq
  rw [mem_openings hopenings] at hrecord''
  obtain ⟨index, -, hmem'⟩ := hrecord''
  exact h.record_unique (List.mem_of_mem_filter hmem') hl.record_mem
    (hkey.trans hl.lane.stageKey_eq)

theorem LaneCommitted.committed_record (hl : audit.LaneCommitted base stageIds key record)
    (h : audit.Admissible sha256) :
    dictGet audit.retained.val.recordsByKey key.stageKey = some record := by
  rw [RetainedMaterialFields.recordsByKey, h.committed.stateRecords_eq]
  have hmem_iff : ∀ record', record' ∈ audit.arguments.stateRecords.flatten ↔
      ∃ index, record' ∈ audit.arguments.stateRecords.getD index [] := by
    intro record'
    rw [List.mem_flatten]
    constructor
    · rintro ⟨records, hrecords, hrecord'⟩
      obtain ⟨index, hindex⟩ := List.mem_iff_getElem?.mp hrecords
      refine ⟨index, ?_⟩
      rw [List.getD_eq_getElem?_getD, hindex]
      exact hrecord'
    · rintro ⟨index, hrecord'⟩
      rw [List.getD_eq_getElem?_getD] at hrecord'
      cases hrecords : audit.arguments.stateRecords[index]? with
      | none =>
        rw [hrecords] at hrecord'
        exact absurd hrecord' (by simp)
      | some records =>
        rw [hrecords] at hrecord'
        exact ⟨records, List.mem_of_getElem? hrecords, hrecord'⟩
  refine dictGet_of_mem (List.mem_map.mpr ⟨record, (hmem_iff record).mpr ⟨_, hl.record_mem⟩,
    by rw [hl.lane.stageKey_eq]⟩) ?_
  intro record' hmem
  obtain ⟨record'', hrecord'', heq⟩ := List.mem_map.mp hmem
  obtain ⟨hkey, rfl⟩ := Prod.mk.inj heq
  obtain ⟨index, hmem'⟩ := (hmem_iff record'').mp hrecord''
  exact h.record_unique hmem' hl.record_mem (hkey.trans hl.lane.stageKey_eq)

/-! ## Sources -/

theorem stage_text (stageId : StageId) : stage stageId.text = .ok stageId := by
  rw [stage, dif_pos stageId.valid]

theorem stageId_eq_of_text {stageId stageId' : StageId} (h : stageId.text = stageId'.text) :
    stageId = stageId' := by
  cases stageId
  cases stageId'
  exact StageId.mk.injEq _ _ _ _ ▸ h

/-- The tree of the captured rows of a stage. -/
def SourceOf (audit : Audit lib) (key : StageKey)
    (source : ExecutionAnchorCommitment × lib.Tree) : Prop :=
  source.1.stageId.text = (ofLex key).2 ∧
    buildExecutionAnchorTree lib.toMerkleLibrary source.1.stageId (audit.rows key) = .ok source

theorem SourceOf.unique {stageKey : StageKey} {source source' : ExecutionAnchorCommitment × lib.Tree}
    (h : audit.SourceOf stageKey source) (h' : audit.SourceOf stageKey source') : source = source' := by
  have hstage := stageId_eq_of_text (h.1.trans h'.1.symm)
  have hsource := h.2
  rw [hstage, h'.2] at hsource
  exact (Except.ok.inj hsource).symm

theorem LaneCommitted.exists_source (hl : audit.LaneCommitted base stageIds key record)
    (h : audit.Admissible sha256) : ∃ source, audit.SourceOf key.stageKey source ∧
      source.1.stageId = record.val.stageId ∧ source.1.rowCount = record.val.rowCount ∧
      source.1.rowWidth = record.val.rowWidth ∧ source.1.root = record.val.valueRoot := by
  have hrecords : audit.arguments.stateRecords.getD key.blockIndex [] ∈
      audit.arguments.stateRecords := by
    have hmem := hl.record_mem
    rw [List.getD_eq_getElem?_getD] at hmem ⊢
    cases hrecords : audit.arguments.stateRecords[key.blockIndex]? with
    | none =>
      rw [hrecords] at hmem
      exact absurd hmem (by simp)
    | some records => exact List.mem_of_getElem? hrecords
  obtain ⟨commitment, tree, hbuild, hcount, hwidth, hroot⟩ :=
    h.rows_committed _ hrecords record hl.record_mem
  obtain ⟨-, -, -, hstage, -⟩ := buildExecutionAnchorTree_eq_ok hbuild
  refine ⟨(commitment, tree), ⟨?_, ?_⟩, hstage, hcount, hwidth, hroot⟩
  · rw [hstage, ← hl.lane.stageId_eq]
    rfl
  · rw [hstage, hl.lane.stageKey_eq]
    exact hbuild

theorem Admissible.provenance_sourceOf (h : audit.Admissible sha256)
    {source : StageKey × ExecutionAnchorCommitment × lib.Tree}
    (hsource : source ∈ audit.arguments.provenanceSources) : audit.SourceOf source.1 source.2 := by
  refine ⟨?_, h.sources_built source hsource⟩
  have hconsistent := h.committed.sources_consistent source hsource
  cases hget : dictGet audit.retained.val.recordsByKey source.1 with
  | none =>
    rw [hget] at hconsistent
    exact absurd trivial hconsistent
  | some record =>
    rw [hget] at hconsistent
    by_contra hne
    exact hconsistent (.inr (.inl hne))

theorem LaneCommitted.exists_runtimeSource (hl : audit.LaneCommitted base stageIds key record)
    (h : audit.Admissible sha256)
    (hopenings : List.Forall₂ (audit.Opened (audit.openedStageIds stageIds)) (audit.indices base)
      openings) :
    ∃ source, buildRuntimeSource (openedByKey openings)
        (key.stageKey, audit.rows key.stageKey) = .ok (key.stageKey, source) ∧
      audit.SourceOf key.stageKey source := by
  obtain ⟨⟨commitment, tree⟩, hsource, -, hcount, hwidth, hroot⟩ := hl.exists_source h
  dsimp only at hcount hwidth hroot
  obtain ⟨leaves, -, -, -, hrowCount, hrows⟩ := buildExecutionAnchorTree_eq_ok hsource.2
  refine ⟨(commitment, tree), ?_, hsource⟩
  have hstageId : stage (ofLex key.stageKey).2 = .ok commitment.stageId := by
    rw [← hsource.1]
    exact stage_text _
  have hgeometry : ¬ ((audit.rows key.stageKey).length ≠ record.val.rowCount ∨
      ∃ row ∈ audit.rows key.stageKey, row.length ≠ record.val.rowWidth) := by
    rw [not_or, not_not, ← hcount, hrowCount]
    refine ⟨rfl, ?_⟩
    rintro ⟨row, hrow, hne⟩
    obtain ⟨i, hi, rfl⟩ := List.mem_iff_getElem.mp hrow
    have hlength := (hrows.get hi (by rwa [← hrows.length_eq])).1
    rw [hwidth] at hlength
    exact hne hlength
  have hcommitment : ¬ (commitment.rowCount ≠ record.val.rowCount ∨
      commitment.rowWidth ≠ record.val.rowWidth ∨ commitment.root ≠ record.val.valueRoot) := by
    simp [hcount, hwidth, hroot]
  refine bind_eq_ok.mpr ⟨record, ?_, bind_eq_ok.mpr ⟨(), raiseIf_eq_ok.mpr hgeometry,
    bind_eq_ok.mpr ⟨_, hstageId, bind_eq_ok.mpr ⟨_, hsource.2,
      bind_eq_ok.mpr ⟨(), raiseIf_eq_ok.mpr hcommitment, rfl⟩⟩⟩⟩⟩
  rw [dictItem, hl.opened_record h hopenings]

variable {lanes : List LaneKey}

theorem exists_runtimeSources (h : audit.Admissible sha256)
    (hlanes : ∀ key ∈ lanes, ∃ record, audit.LaneCommitted base stageIds key record)
    (hopenings : List.Forall₂ (audit.Opened (audit.openedStageIds stageIds)) (audit.indices base)
      openings) :
    ∃ sources, (audit.runtimeRows lanes).mapM (buildRuntimeSource (openedByKey openings)) =
        .ok sources ∧
      sources.map Prod.fst = (audit.runtimeRows lanes).map Prod.fst ∧
      ∀ source ∈ sources, audit.SourceOf source.1 source.2 := by
  have hstep : ∀ entry ∈ audit.runtimeRows lanes, ∃ source,
      buildRuntimeSource (openedByKey openings) entry = .ok source ∧
        source.1 = entry.1 ∧ audit.SourceOf source.1 source.2 := by
    rintro ⟨stageKey, rows⟩ hentry
    obtain ⟨stageKey', hstageKey, heq⟩ := List.mem_map.mp hentry
    obtain ⟨rfl, rfl⟩ := Prod.mk.inj heq
    rw [mem_sortedSet, List.mem_filter, List.mem_map] at hstageKey
    obtain ⟨⟨key, hkey, rfl⟩, -⟩ := hstageKey
    obtain ⟨record, hl⟩ := hlanes key hkey
    obtain ⟨source, hbuild, hsource⟩ := hl.exists_runtimeSource h hopenings
    exact ⟨_, hbuild, rfl, hsource⟩
  obtain ⟨sources, hsources, hforall⟩ := exists_mapM_eq_ok hstep
  refine ⟨sources, hsources, map_eq_of_forall₂ (hforall.imp fun _ _ hR => hR.1), ?_⟩
  intro source hsource
  obtain ⟨i, hi, rfl⟩ := List.mem_iff_getElem.mp hsource
  exact (hforall.get (by rwa [hforall.length_eq]) hi).2

/-- The tree of the stage of a selected lane is found among the provenance sources and the rebuilt
runtime stages. -/
theorem LaneCommitted.exists_lookup (hl : audit.LaneCommitted base stageIds key record)
    (h : audit.Admissible sha256) (hkey : key ∈ lanes)
    {sources : List (StageKey × ExecutionAnchorCommitment × lib.Tree)}
    (hkeys : sources.map Prod.fst = (audit.runtimeRows lanes).map Prod.fst)
    (hsources : ∀ source ∈ sources, audit.SourceOf source.1 source.2) :
    ∃ source, dictItem (audit.arguments.provenanceSources ++ sources) key.stageKey = .ok source ∧
      audit.SourceOf key.stageKey source ∧ source.1.stageId = record.val.stageId ∧
      source.1.rowCount = record.val.rowCount ∧ source.1.rowWidth = record.val.rowWidth ∧
      source.1.root = record.val.valueRoot := by
  obtain ⟨source, hsource, hfields⟩ := hl.exists_source h
  have hall : ∀ entry ∈ audit.arguments.provenanceSources ++ sources,
      audit.SourceOf entry.1 entry.2 := by
    intro entry hentry
    rcases List.mem_append.mp hentry with hentry | hentry
    · exact h.provenance_sourceOf hentry
    · exact hsources entry hentry
  have hkeyMem : key.stageKey ∈ (audit.arguments.provenanceSources ++ sources).map Prod.fst := by
    rw [List.map_append, List.mem_append, hkeys]
    by_cases hprovenance : key.stageKey ∈ audit.provenanceKeys
    · exact .inl hprovenance
    · refine .inr ?_
      rw [runtimeRows, List.map_map]
      refine List.mem_map.mpr ⟨key.stageKey, ?_, rfl⟩
      rw [mem_sortedSet, List.mem_filter]
      exact ⟨List.mem_map_of_mem hkey, by simpa using hprovenance⟩
  obtain ⟨⟨stageKey, source'⟩, hentry, rfl⟩ := List.mem_map.mp hkeyMem
  have hsource' := hall _ hentry
  obtain rfl := hsource.unique hsource'
  refine ⟨source, dictItem_of_mem hentry fun value hvalue => ?_, hsource, hfields⟩
  exact (hall _ hvalue).unique hsource

/-! ## Lanes -/

theorem new_eq_ok (commitment : ExecutionAnchorCommitment) :
    ExecutionAnchorCommitment.new commitment.stageId commitment.rowCount commitment.rowWidth
      commitment.root = .ok commitment := by
  rw [ExecutionAnchorCommitment.new, dif_pos ⟨commitment.rowCount_pos, commitment.rowCount_lt,
    commitment.rowWidth_pos, commitment.rowWidth_lt, commitment.root_ne_zero⟩]

theorem suppliedRow_eq_ok (hkey : key ∈ lanes) {row : Bytes}
    (hrow : (audit.rows key.stageKey)[key.rowIndex]? = some row) :
    suppliedRow audit.arguments.provenanceSources (audit.runtimeRows lanes)
      (audit.provenanceRows lanes) key = .ok row := by
  rw [suppliedRow]
  by_cases hprovenance : key.stageKey ∈ audit.provenanceKeys
  · have hsome : (dictGet audit.arguments.provenanceSources key.stageKey).isSome := by
      rw [Option.isSome_iff_ne_none]
      exact fun hnone => dictGet_eq_none.mp hnone hprovenance
    rw [if_pos hsome]
    have hmem : key.rowKey ∈ sortedSet ((lanes.filter fun key =>
        key.stageKey ∈ audit.provenanceKeys).map LaneKey.rowKey) := by
      rw [mem_sortedSet]
      exact List.mem_map_of_mem (List.mem_filter.mpr ⟨hkey, by simpa using hprovenance⟩)
    have hvalue : (audit.rows key.stageKey).getD key.rowIndex [] = row := by
      rw [List.getD_eq_getElem?_getD, hrow, Option.getD_some]
    refine dictItem_of_mem (List.mem_map.mpr ⟨key.rowKey, hmem, Prod.ext rfl hvalue⟩) ?_
    intro row' hrow'
    obtain ⟨rowKey, -, heq⟩ := List.mem_map.mp hrow'
    obtain ⟨rfl, rfl⟩ := Prod.mk.inj heq
    exact hvalue
  · have hnone : dictGet audit.arguments.provenanceSources key.stageKey = none :=
      dictGet_eq_none.mpr hprovenance
    rw [hnone, if_neg (by simp)]
    have hmem : key.stageKey ∈ sortedSet ((lanes.map LaneKey.stageKey).filter
        (· ∉ audit.provenanceKeys)) := by
      rw [mem_sortedSet, List.mem_filter]
      exact ⟨List.mem_map_of_mem hkey, by simpa using hprovenance⟩
    refine bind_eq_ok.mpr ⟨audit.rows key.stageKey,
      dictItem_of_mem (List.mem_map_of_mem hmem) fun rows' hrows' => ?_, getItem_eq_ok.mpr hrow⟩
    obtain ⟨stageKey, -, heq⟩ := List.mem_map.mp hrows'
    obtain ⟨rfl, rfl⟩ := Prod.mk.inj heq
    rfl

theorem LaneCommitted.revealLane_spec (hlib : lib.OddDuplicate)
    (hl : audit.LaneCommitted base stageIds key record) (h : audit.Admissible sha256)
    (hindex : key.blockIndex < 2 ^ 32) (hkey : key ∈ lanes)
    {sources : List (StageKey × ExecutionAnchorCommitment × lib.Tree)}
    (hkeys : sources.map Prod.fst = (audit.runtimeRows lanes).map Prod.fst)
    (hsources : ∀ source ∈ sources, audit.SourceOf source.1 source.2)
    (hopenings : List.Forall₂ (audit.Opened (audit.openedStageIds stageIds)) (audit.indices base)
      openings) :
    ∃ reveal : PrefixCacheLaneReveal,
      revealLane audit.arguments.provenanceSources (audit.arguments.provenanceSources ++ sources)
        (audit.runtimeRows lanes) (audit.provenanceRows lanes) key = .ok reveal ∧
      reveal.val.key = key ∧
      verifyLane lib (openedByKey openings) reveal = .ok (key, audit.laneData key) := by
  obtain ⟨⟨commitment, tree⟩, hlookup, hsource, hstage, hcount, hwidth, hroot⟩ :=
    hl.exists_lookup h hkey hkeys hsources
  dsimp only at hstage hcount hwidth hroot
  -- the row
  obtain ⟨leaves, -, -, -, hrowCount, hrows⟩ := buildExecutionAnchorTree_eq_ok hsource.2
  have hrowIndex : key.rowIndex < (audit.rows key.stageKey).length := by
    rw [← hrowCount, hcount]
    exact hl.lane.rowIndex_lt
  have hrow := List.getElem?_eq_getElem hrowIndex
  have hrowLength := (hrows.get hrowIndex (by rwa [← hrows.length_eq])).1
  rw [List.get_eq_getElem] at hrowLength
  -- the lane
  have hlane : key.laneIndex < laneCount commitment := by
    rw [laneCount, hstage, hwidth]
    exact hl.lane.laneIndex_lt
  obtain ⟨opening, hopening, hopeningRow, hopeningLane, hverify⟩ :=
    buildExecutionAnchorLaneOpening_complete hlib.toOddDuplicate hsource.2 hrow hlane
  have hreveal : (LaneRevealFields.mk key.blockIndex record.val.stageId opening).postInit = .ok () :=
    u32_eq_ok.mpr hindex
  have hrevealKey : (LaneRevealFields.mk key.blockIndex record.val.stageId opening).key = key := by
    rw [LaneRevealFields.key, hopeningRow, hopeningLane, ← hl.lane.stageId_eq]
    rfl
  refine ⟨⟨_, hreveal⟩, ?_, hrevealKey, ?_⟩
  · refine bind_eq_ok.mpr ⟨_, hlookup, bind_eq_ok.mpr ⟨_, suppliedRow_eq_ok hkey hrow,
      bind_eq_ok.mpr ⟨opening, hopening, bind_eq_ok.mpr ⟨(), ?_, bind_eq_ok.mpr
        ⟨record.val.stageId, ?_, construct_eq_ok.mpr rfl⟩⟩⟩⟩⟩
    · rw [checkLane, hverify]
    · rw [hl.lane.stageId_eq, stage_text]
  · have hstageKey : (toLex (key.blockIndex, record.val.stageId.text) : StageKey) = key.stageKey := by
      rw [← hl.lane.stageId_eq]
      rfl
    have hdata : ((audit.rows key.stageKey)[key.rowIndex].take (min ((key.laneIndex + 1) *
        laneBytes commitment.stageId) commitment.rowWidth)).drop
          (key.laneIndex * laneBytes commitment.stageId) = audit.laneData key := by
      have hgetD : (audit.rows key.stageKey).getD key.rowIndex [] =
          (audit.rows key.stageKey)[key.rowIndex] := by
        rw [List.getD_eq_getElem?_getD, hrow, Option.getD_some]
      have hlaneWidth : laneWidth key.stageId = laneBytes commitment.stageId := by
        rw [hl.lane.stageId_eq, hstage]
        rfl
      rw [laneData, hgetD, hlaneWidth, hrowLength]
    unfold verifyLane
    dsimp only
    rw [hstageKey, hl.opened_record h hopenings]
    refine bind_eq_ok.mpr ⟨commitment, ?_, bind_eq_ok.mpr ⟨_, hverify, ?_⟩⟩
    · rw [← hstage, ← hcount, ← hwidth, ← hroot]
      exact new_eq_ok commitment
    · rw [pure_eq_ok, hrevealKey, hdata]

end Verathos.PrefixCache.Audit
