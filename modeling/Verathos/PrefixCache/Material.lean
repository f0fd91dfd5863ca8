import Verathos.PrefixCache.Openings

/-!
# Retained material

What `build_prefix_cache_request_material_v3` guarantees: the records, trees and the commitment fit
together (`Committed`, `committed_of_built`).
-/

namespace Verathos.PrefixCache

open Anchor SortedSet

variable {lib : CacheMerkleLibrary} {sha256 : Bytes → Digest}

variable {name : String}

@[simp]
theorem nonzero32_eq_ok {value : Digest} {u : Unit} :
    nonzero32 value name = .ok u ↔ value ≠ Digest.zero := raiseIf_eq_ok

@[simp]
theorem u32_eq_ok {value : ℕ} {u : Unit} : u32 value name = .ok u ↔ value < 2 ^ 32 := by
  rw [u32, raiseIf_eq_ok, not_le]

@[simp]
theorem positiveU32_eq_ok {value : ℕ} {u : Unit} :
    positiveU32 value name = .ok u ↔ 0 < value ∧ value < 2 ^ 32 := by
  rw [positiveU32, raiseIf_eq_ok, not_or, not_lt, not_le, Nat.one_le_iff_ne_zero, Nat.pos_iff_ne_zero]

/-- The facts about one block record of the material. -/
structure BlockCommitted (arguments : RequestMaterial lib) (content : List Digest) (index : ℕ)
    (record : PrefixCacheBlockRecord) : Prop where
  blockIndex_eq : record.val.blockIndex = index
  tokenStart_eq : record.val.tokenStart = index * arguments.blockTokenCount
  tokenCount_eq : record.val.tokenCount =
    min arguments.blockTokenCount (arguments.cachedTokenCount - index * arguments.blockTokenCount)
  content_eq : content[index]? = some record.val.contentDigest
  stateRoot_eq : ∃ tree, arguments.stateTrees[index]? = some tree ∧
    record.val.stateRoot = lib.root tree

/-- The parts of the material fit together. -/
structure Committed (sha256 : Bytes → Digest) (arguments : RequestMaterial lib)
    (retained : PrefixCacheRetainedMaterial lib) : Prop where
  stateRecords_eq : retained.val.stateRecords = arguments.stateRecords
  stateTrees_eq : retained.val.stateTrees = arguments.stateTrees
  provenanceSources_eq : retained.val.provenanceSources = arguments.provenanceSources
  baseCaptureDigest_eq : retained.val.baseCaptureDigest = arguments.baseCaptureDigest
  baseCaptureDigest_ne_zero : arguments.baseCaptureDigest ≠ Digest.zero
  blockTree_eq : retained.val.blockTree = blockTreeOf lib retained.val.blockRecords
  commitment_eq : retained.val.commitment.val =
    { executionProfileDigest := arguments.request.executionProfileDigest
      promptTokenRoot := arguments.request.promptTokenRoot
      cacheSaltDigest := arguments.request.cacheSaltDigest
      executedSuffixDigest := arguments.request.executedSuffixDigest
      blockInventoryRoot := lib.root (blockTreeOf lib retained.val.blockRecords)
      gdnBoundaryRoot := none
      contextTokenCount := arguments.tokenIds.length
      cachedTokenCount := arguments.cachedTokenCount
      blockTokenCount := arguments.blockTokenCount
      blockCount := arguments.stateRecords.length }
  stateRecords_ne_nil : arguments.stateRecords ≠ []
  length_stateRecords_le : arguments.stateRecords.length ≤ maxBlocks
  length_blockRecords : retained.val.blockRecords.length = arguments.stateRecords.length
  length_stateTrees : arguments.stateTrees.length = arguments.stateRecords.length
  blocks : ∃ content, deriveContentDigests sha256 arguments.request.executionProfileDigest
      arguments.request.cacheSaltDigest (arguments.tokenIds.take arguments.cachedTokenCount)
      arguments.blockTokenCount = .ok content ∧
    ∀ (index : ℕ) (record : PrefixCacheBlockRecord),
      retained.val.blockRecords[index]? = some record → BlockCommitted arguments content index record
  records : ∀ (index : ℕ) (records : List PrefixCacheStateRecord),
    arguments.stateRecords[index]? = some records → ∀ record ∈ records, record.val.blockIndex = index
  sources_sorted : (arguments.provenanceSources.map Prod.fst).Pairwise (· < ·)
  sources_consistent : ∀ source ∈ arguments.provenanceSources, ¬
    RetainedMaterialFields.SourceInconsistent arguments.stateRecords.length source.1 source.2.1
      source.2.2 (dictGet retained.val.recordsByKey source.1)

theorem inventoryLoop_eq {width total index cursor result : ℕ}
    {records : List PrefixCacheBlockRecord} {last : PrefixCacheBlockRecord}
    (h : inventoryLoop width total index cursor records = .ok result)
    (hlast : records.getLast? = some last) : result = last.val.tokenStart + last.val.tokenCount := by
  induction records generalizing index cursor with
  | nil => exact nomatch hlast
  | cons item rest ih =>
    obtain ⟨_, hcheck, hrest⟩ := bind_eq_ok.mp h
    rw [raiseIf_eq_ok] at hcheck
    cases rest with
    | nil =>
      obtain rfl : item = last := Option.some.inj hlast
      obtain rfl := Except.ok.inj hrest
      have hstart : item.val.tokenStart = cursor := by
        by_contra hne
        exact hcheck (.inr (.inl hne))
      rw [hstart]
    | cons next rest =>
      rw [List.getLast?_cons_cons] at hlast
      exact ih hrest hlast

theorem buildPrefixCacheCommitment_eq_ok {records : List PrefixCacheBlockRecord}
    {request : RequestDigests} {context width : ℕ} {commitment : PrefixCacheCommitment}
    {tree : lib.Tree} {last : PrefixCacheBlockRecord} (hlast : records.getLast? = some last)
    (h : buildPrefixCacheCommitment lib records request context none (some width) =
      .ok (commitment, tree)) :
    tree = blockTreeOf lib records ∧
      commitment.val =
        { executionProfileDigest := request.executionProfileDigest
          promptTokenRoot := request.promptTokenRoot
          cacheSaltDigest := request.cacheSaltDigest
          executedSuffixDigest := request.executedSuffixDigest
          blockInventoryRoot := lib.root (blockTreeOf lib records)
          gdnBoundaryRoot := none
          contextTokenCount := context
          cachedTokenCount := last.val.tokenStart + last.val.tokenCount
          blockTokenCount := width
          blockCount := records.length } := by
  simp only [buildPrefixCacheCommitment, bind_eq_ok, raiseIf_eq_ok, pure_eq_ok, Prod.mk.injEq,
    construct_eq_ok, Option.getD_some] at h
  obtain ⟨-, -, -, -, -, -, cursor, hcursor, -, -, commitment', hcommitment, rfl, rfl⟩ := h
  refine ⟨rfl, ?_⟩
  rw [hcommitment, inventoryLoop_eq hcursor hlast]

theorem buildBlockRecord_eq_ok {arguments : RequestMaterial lib} {content : List Digest}
    {items : List PrefixCacheStateRecord} {tree : lib.Tree} {index : ℕ}
    {record : PrefixCacheBlockRecord} (htree : arguments.stateTrees[index]? = some tree)
    (h : buildBlockRecord arguments.blockTokenCount arguments.cachedTokenCount content
      ((items, tree), index) = .ok record) :
    BlockCommitted arguments content index record ∧ ∀ item ∈ items, item.val.blockIndex = index := by
  simp only [buildBlockRecord, bind_eq_ok, raiseIf_eq_ok, getItem_eq_ok, construct_eq_ok, not_or,
    not_exists, not_and, not_not] at h
  obtain ⟨-, ⟨-, hitems, -, -⟩, contentDigest, hcontent, hrecord⟩ := h
  refine ⟨?_, hitems⟩
  constructor
  · rw [hrecord]
  · rw [hrecord]
  · rw [hrecord]
  · rw [hrecord]
    exact hcontent
  · rw [hrecord]
    exact ⟨tree, htree, rfl⟩

theorem committed_of_built {arguments : RequestMaterial lib}
    {retained : PrefixCacheRetainedMaterial lib}
    (h : buildPrefixCacheRequestMaterial sha256 arguments = .ok retained) :
    Committed sha256 arguments retained := by
  have hpost := retained.property
  simp only [buildPrefixCacheRequestMaterial, bind_eq_ok, raiseIf_eq_ok, positiveU32_eq_ok,
    construct_eq_ok, not_or] at h
  obtain ⟨-, ⟨hne, htrees, hblocks⟩, -, hcached, -, hwidth, -, ⟨-, hupper, hlower⟩, content, hcontent,
    -, hlength, blockRecords, hrecords, ⟨commitment, blockTree⟩, hcommitment, hretained⟩ := h
  rw [mapM_eq_ok] at hrecords
  have hcount : blockRecords.length = arguments.stateRecords.length := by
    rw [← hrecords.length_eq, List.length_zipIdx, List.length_zip]
    omega
  have hpos : 0 < arguments.stateRecords.length := List.length_pos_iff.mpr hne
  -- the blocks
  have hat : ∀ (index : ℕ) (record : PrefixCacheBlockRecord), blockRecords[index]? = some record →
      ∃ items, arguments.stateRecords[index]? = some items ∧
        BlockCommitted arguments content index record ∧
        ∀ item ∈ items, item.val.blockIndex = index := by
    intro index record hrecord
    obtain ⟨hindex, rfl⟩ := List.getElem?_eq_some_iff.mp hrecord
    have hentry := hrecords.get (by rwa [hrecords.length_eq]) hindex
    simp only [List.get_eq_getElem, List.getElem_zipIdx, List.getElem_zip, zero_add] at hentry
    exact ⟨_, List.getElem?_eq_getElem (by omega),
      buildBlockRecord_eq_ok (List.getElem?_eq_getElem (by omega)) hentry⟩
  -- the last block ends with the cached tokens
  obtain ⟨last, hlast⟩ : ∃ last, blockRecords[arguments.stateRecords.length - 1]? = some last :=
    ⟨_, List.getElem?_eq_getElem (by omega)⟩
  obtain ⟨-, -, hlastBlock, -⟩ := hat _ _ hlast
  rw [← hcount, ← List.getLast?_eq_getElem?] at hlast
  obtain ⟨htree, hcommitment⟩ := buildPrefixCacheCommitment_eq_ok hlast hcommitment
  have hcursor : arguments.cachedTokenCount = (arguments.stateRecords.length - 1) *
      arguments.blockTokenCount + min arguments.blockTokenCount (arguments.cachedTokenCount -
        (arguments.stateRecords.length - 1) * arguments.blockTokenCount) := by
    have hmul : arguments.stateRecords.length * arguments.blockTokenCount =
        (arguments.stateRecords.length - 1) * arguments.blockTokenCount +
          arguments.blockTokenCount := by
      rw [← Nat.succ_mul, Nat.succ_eq_add_one, Nat.sub_add_cancel hpos]
    omega
  rw [hlastBlock.tokenStart_eq, hlastBlock.tokenCount_eq, ← hcursor] at hcommitment
  rw [hretained] at hpost
  simp only [RetainedMaterialFields.postInit, bind_eq_ok, raiseIf_eq_ok, nonzero32_eq_ok, not_or,
    not_not, exists_const, ne_eq] at hpost
  obtain ⟨hbase, -, -, -, -, hsources, hconsistent⟩ := hpost
  constructor
  case commitment_eq =>
    rw [hretained, hcommitment, hcount]
  case blockTree_eq =>
    rw [hretained]
    exact htree
  case blocks =>
    refine ⟨content, hcontent, fun index record hrecord => ?_⟩
    rw [hretained] at hrecord
    obtain ⟨-, -, hblock, -⟩ := hat index record hrecord
    exact hblock
  case records =>
    intro index records hrecords'
    have hindex : index < blockRecords.length := by
      rw [hcount]
      exact (List.getElem?_eq_some_iff.mp hrecords').1
    obtain ⟨items, hitems, -, hblock⟩ := hat index _ (List.getElem?_eq_getElem hindex)
    obtain rfl : items = records := Option.some.inj (hitems.symm.trans hrecords')
    exact hblock
  case sources_sorted => exact eq_sortedSet_iff.mp hsources
  case sources_consistent =>
    intro source hsource hinconsistent
    rw [hretained] at hinconsistent
    rw [hcount] at hconsistent
    exact hconsistent ⟨source, hsource, hinconsistent⟩
  case stateRecords_ne_nil => exact hne
  case length_stateRecords_le => omega
  case baseCaptureDigest_ne_zero => exact hbase
  case length_stateTrees => omega
  all_goals rw [hretained]
  exact hcount

end Verathos.PrefixCache
