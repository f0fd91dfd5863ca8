import Verathos.PrefixCache.Defs

/-!
# Prefix-cache commitments: operations

The functions of `prefix_cache.py` on the path of an audit.

* Before the nonce, `buildPrefixCacheRequestMaterial` commits to the cached blocks.
* After the nonce, `deriveBlockIndices` and `deriveLaneKeys` select what is opened,
  `buildPrefixCachePostnonceProof` opens it, and `verifyPrefixCachePostnonce` checks the openings.

A drawing loop packs its counter into 32 bits, so it raises `struct.error` when it has not found
enough values before the counter overflows.
-/

namespace Verathos.PrefixCache

open Anchor SortedSet

/-! ## Lane plans -/

/-- `_canonical_required_lane_keys_v3`. -/
def canonicalRequiredLaneKeys (verification : Bool) (keys : List LaneKey) : Result (List LaneKey) := do
  let error := if verification then PyError.proofV3VerificationError else PyError.proofV3Error
  raiseIf (keys.length > maxBlockSamples)
    (error "prefix-cache required lane plan exceeds its bound")
  raiseIf (∃ key ∈ keys, ¬ (key.blockIndex < maxBlocks ∧ isIdentifier key.stageId = true))
    (error "prefix-cache required lane plan is malformed")
  raiseIf (keys ≠ sortedSet keys) (error "prefix-cache required lane plan is noncanonical")
  return keys

/-! ## Content digests -/

/-- The loop over the blocks of `derive_prefix_cache_content_digests_v3`. -/
def contentLoop (hash : Digest → ℕ × List ℕ → Digest) :
    Digest → ℕ → List (ℕ × List ℕ) → Result (List Digest)
  | _, _, [] => .ok []
  | parent, done, block :: rest => do
    let parent := hash parent block
    raiseIf (done + 1 > maxBlocks) (.proofV3Error "prefix-cache block inventory is too large")
    let digests ← contentLoop hash parent (done + 1) rest
    return parent :: digests

/-- The starts and the tokens of the blocks. -/
def tokenBlocks (width : ℕ) (tokens : List ℕ) : List (ℕ × List ℕ) :=
  (List.range ((tokens.length + width - 1) / width)).map fun i =>
    (i * width, (tokens.drop (i * width)).take width)

/-- `derive_prefix_cache_content_digests_v3`. -/
def deriveContentDigests (sha256 : Bytes → Digest) (executionProfileDigest cacheSaltDigest : Digest)
    (tokenIds : List ℕ) (blockTokenCount : ℕ) : Result (List Digest) := do
  nonzero32 executionProfileDigest "execution_profile_digest"
  positiveU32 blockTokenCount "block_token_count"
  raiseIf (blockTokenCount > maxBlockTokens)
    (.proofV3Error "prefix-cache block token count exceeds its bound")
  raiseIf (tokenIds.length ≥ 2 ^ 32) (.proofV3Error "prefix-cache token sequence is too large")
  tokenIds.forM fun token => u32 token "prefix-cache token id"
  contentLoop (fun parent block => sha256 (contentDomain ++ executionProfileDigest.bytes ++
      cacheSaltDigest.bytes ++ parent.bytes ++ packI block.1 ++ packI block.2.length ++
      block.2.flatMap packI))
    Digest.zero 0 (tokenBlocks blockTokenCount tokenIds)

/-! ## Trees -/

section Library

variable (lib : CacheMerkleLibrary)

/-- `build_prefix_cache_state_tree_v3`. -/
def buildPrefixCacheStateTree (records : List PrefixCacheStateRecord) :
    Result (List PrefixCacheStateRecord × lib.Tree) := do
  raiseIf (records = [] ∨ records.length > maxStateStages)
    (.proofV3Error "prefix-cache state inventory is empty or too large")
  raiseIf ((records.map fun record => record.val.blockIndex).dedup.length ≠ 1)
    (.proofV3Error "prefix-cache state inventory crosses logical blocks")
  raiseIf (¬ IsCanonical (records.map fun record => record.val.stageId.text))
    (.proofV3Error "prefix-cache state inventory is noncanonical")
  return (records, lib.fromLeaves (records.map fun record => record.val.canonicalBytes))

/-- The loop over the records of `build_prefix_cache_commitment_v3`. -/
def inventoryLoop (width total : ℕ) : ℕ → ℕ → List PrefixCacheBlockRecord → Result ℕ
  | _, cursor, [] => .ok cursor
  | index, cursor, item :: rest => do
    raiseIf (item.val.blockIndex ≠ index ∨ item.val.tokenStart ≠ cursor ∨
        item.val.tokenCount > width ∨ (index + 1 < total ∧ item.val.tokenCount ≠ width))
      (.proofV3Error "prefix-cache block inventory is not contiguous")
    inventoryLoop width total (index + 1) (cursor + item.val.tokenCount) rest

/-- What a request says about its prompt. -/
structure RequestDigests where
  executionProfileDigest : Digest
  promptTokenRoot : Digest
  cacheSaltDigest : Digest
  executedSuffixDigest : Digest

/-- `build_prefix_cache_commitment_v3`. -/
def buildPrefixCacheCommitment (records : List PrefixCacheBlockRecord) (request : RequestDigests)
    (contextTokenCount : ℕ) (gdnBoundaryRoot : Option Digest) (blockTokenCount : Option ℕ) :
    Result (PrefixCacheCommitment × lib.Tree) := do
  raiseIf (records = [] ∨ records.length > maxBlocks)
    (.proofV3Error "prefix-cache block inventory is empty or too large")
  match blockTokenCount with
  | some width => positiveU32 width "block_token_count"
  | none => .ok ()
  let width := blockTokenCount.getD ((records.map fun item => item.val.tokenCount).foldl max 0)
  raiseIf (width > maxBlockTokens)
    (.proofV3Error "prefix-cache block token count exceeds its bound")
  let cursor ← inventoryLoop width records.length 0 0 records
  raiseIf ((records.map fun item => item.val.blockIndex) ≠ List.range records.length)
    (.proofV3Error "prefix-cache block inventory is not contiguous")
  let tree := lib.fromLeaves (records.map fun item => item.val.canonicalBytes)
  let commitment ← construct CommitmentFields.postInit
    { executionProfileDigest := request.executionProfileDigest
      promptTokenRoot := request.promptTokenRoot
      cacheSaltDigest := request.cacheSaltDigest
      executedSuffixDigest := request.executedSuffixDigest
      blockInventoryRoot := lib.root tree
      gdnBoundaryRoot := gdnBoundaryRoot
      contextTokenCount := contextTokenCount
      cachedTokenCount := cursor
      blockTokenCount := width
      blockCount := records.length }
  return (commitment, tree)

/-- The arguments of `build_prefix_cache_request_material_v3`. -/
structure RequestMaterial where
  request : RequestDigests
  baseCaptureDigest : Digest
  tokenIds : List ℕ
  blockTokenCount : ℕ
  cachedTokenCount : ℕ
  stateRecords : List (List PrefixCacheStateRecord)
  stateTrees : List lib.Tree
  provenanceSources : List (StageKey × ExecutionAnchorCommitment × lib.Tree)
  runtimeBlockIdsByLayer : List (ℕ × List (List ℕ))

variable {lib} (sha256 : Bytes → Digest)

/-- One step of the loop over the blocks of `build_prefix_cache_request_material_v3`. -/
def buildBlockRecord (width cached : ℕ) (content : List Digest)
    (entry : (List PrefixCacheStateRecord × lib.Tree) × ℕ) : Result PrefixCacheBlockRecord := do
  let ((items, tree), blockIndex) := entry
  raiseIf (items = [] ∨ (∃ item ∈ items, item.val.blockIndex ≠ blockIndex) ∨
      lib.numLeaves tree ≠ items.length ∨ lib.root tree = Digest.zero)
    (.proofV3Error "prefix-cache captured state block is inconsistent")
  let contentDigest ← getItem content blockIndex
  construct BlockRecordFields.postInit
    { blockIndex := blockIndex
      tokenStart := blockIndex * width
      tokenCount := min width (cached - blockIndex * width)
      contentDigest := contentDigest
      stateRoot := lib.root tree }

/-- `build_prefix_cache_request_material_v3`. -/
def buildPrefixCacheRequestMaterial (arguments : RequestMaterial lib) :
    Result (PrefixCacheRetainedMaterial lib) := do
  let recordsByBlock := arguments.stateRecords
  let cached := arguments.cachedTokenCount
  let width := arguments.blockTokenCount
  raiseIf (recordsByBlock = [] ∨ recordsByBlock.length ≠ arguments.stateTrees.length ∨
      recordsByBlock.length > maxBlocks)
    (.proofV3Error "prefix-cache captured state inventory is malformed")
  positiveU32 cached "cached_token_count"
  positiveU32 width "block_token_count"
  raiseIf (cached > arguments.tokenIds.length ∨ cached > recordsByBlock.length * width ∨
      cached ≤ (recordsByBlock.length - 1) * width)
    (.proofV3Error "prefix-cache captured token range is inconsistent")
  let content ← deriveContentDigests sha256 arguments.request.executionProfileDigest
    arguments.request.cacheSaltDigest (arguments.tokenIds.take cached) width
  raiseIf (content.length < recordsByBlock.length)
    (.proofV3Error "prefix-cache prompt does not cover captured blocks")
  let blockRecords ← (recordsByBlock.zip arguments.stateTrees).zipIdx.mapM
    (buildBlockRecord width cached content)
  let (commitment, blockTree) ← buildPrefixCacheCommitment lib blockRecords arguments.request
    arguments.tokenIds.length none (some width)
  construct RetainedMaterialFields.postInit
    { commitment := commitment
      blockRecords := blockRecords
      blockTree := blockTree
      stateRecords := recordsByBlock
      stateTrees := arguments.stateTrees
      baseCaptureDigest := arguments.baseCaptureDigest
      runtimeBlockIdsByLayer := arguments.runtimeBlockIdsByLayer
      provenanceSources := arguments.provenanceSources }

end Library

/-! ## The nonce -/

section Nonce

variable (sha256 : Bytes → Digest)

/-- The four little-endian words of a digest. -/
def digestWords (digest : Digest) : List ℕ :=
  [0, 8, 16, 24].map fun offset => LittleEndian.toNat ((digest.bytes.drop offset).take 8)

/-- The words that a drawing loop reads from a seed. -/
def wordStream (seed : Bytes) (counter : ℕ) : List ℕ := digestWords (sha256 (seed ++ packI counter))

/-- The drawing loop of `derive_prefix_cache_block_indices_v3` and `_draw_distinct`. -/
def drawDistinct (seed : Bytes) (count modulus : ℕ) : Result (List ℕ) :=
  match DistinctDraw.draw (wordStream sha256 seed) modulus (min count modulus) (2 ^ 32) 0 ∅ with
  | some chosen => .ok (chosen.sort (· ≤ ·))
  | none => .error (.builtin "struct.error")

/-- `derive_prefix_cache_block_indices_v3`. -/
def deriveBlockIndices (validatorNonce : Digest) (commitment : PrefixCacheCommitment) (count : ℕ) :
    Result (List ℕ) := do
  nonzero32 validatorNonce "validator_nonce"
  positiveU32 count "prefix-cache sample count"
  raiseIf (count > maxBlockSamples) (.proofV3Error "prefix-cache sample count exceeds its bound")
  drawDistinct sha256 (sha256 (challengeDomain ++ validatorNonce.bytes ++
    (commitment.val.digest sha256).bytes)).bytes count commitment.val.blockCount

/-- The number of lanes of a row of a stage. -/
def StateRecordFields.laneCount (record : StateRecordFields) : ℕ :=
  (record.rowWidth + laneBytes record.stageId - 1) / laneBytes record.stageId

/-- The lanes that are drawn for one record. -/
def recordLaneKeys (validatorNonce : Digest) (commitment : PrefixCacheCommitment)
    (rowSamples laneSamples : ℕ) (record : PrefixCacheStateRecord) : Result (List LaneKey) := do
  let seed := (sha256 (laneChallengeDomain ++ validatorNonce.bytes ++
    (commitment.val.digest sha256).bytes ++ record.val.canonicalBytes)).bytes
  let rows ← drawDistinct sha256 (seed ++ asciiBytes "/ROW") rowSamples record.val.rowCount
  let keys ← rows.mapM fun rowIndex => do
    let lanes ← drawDistinct sha256 (seed ++ asciiBytes "/LANE" ++ packI rowIndex) laneSamples
      record.val.laneCount
    return lanes.map fun laneIndex =>
      LaneKey.of record.val.blockIndex record.val.stageId.text rowIndex laneIndex
  return keys.flatten

/-- `derive_prefix_cache_lane_keys_v3`. -/
def deriveLaneKeys (validatorNonce : Digest) (commitment : PrefixCacheCommitment)
    (records : List PrefixCacheStateRecord) (rowSamples laneSamples : ℕ) :
    Result (List LaneKey) := do
  nonzero32 validatorNonce "validator_nonce"
  positiveU32 rowSamples "prefix-cache rows per stage"
  positiveU32 laneSamples "prefix-cache lanes per row"
  raiseIf (rowSamples > 16 ∨ laneSamples > 16)
    (.proofV3Error "prefix-cache lane sample count exceeds its bound")
  raiseIf (records = [] ∨ records.length > maxStateStages ∨
      ¬ IsCanonical (records.map fun record => record.val.key))
    (.proofV3Error "prefix-cache challenged state inventory is noncanonical")
  let keys ← records.mapM (recordLaneKeys sha256 validatorNonce commitment rowSamples laneSamples)
  return sorted keys.flatten

end Nonce

/-! ## Signed cache families -/

/-- `cache_kind` of a signed cache family. -/
inductive CacheKind where
  | attentionKv
  | gdnState
deriving DecidableEq

/-- The key and the value stage of an attention layer. -/
def attentionStageIds (layer : ℕ) : List Bytes :=
  [asciiBytes "l" ++ decimal layer ++ asciiBytes ".attention_k_cache",
    asciiBytes "l" ++ decimal layer ++ asciiBytes ".attention_v_cache"]

/-- `prefix_cache_stage_ids_for_layers_v3`. -/
def prefixCacheStageIdsForLayers (layerCaches : List (ℕ × CacheKind))
    (selectedLayerIndices : List ℕ) : Result (List Bytes) := do
  let selected := sorted selectedLayerIndices
  raiseIf (selected = [] ∨ selected.length ≠ selected.dedup.length)
    (.proofV3Error "prefix-cache selected layer inventory is malformed")
  raiseIf (¬ (layerCaches.map Prod.fst).Nodup)
    (.proofV3Error "prefix-cache signed family inventory contains duplicates")
  let stages ← selected.mapM fun layer =>
    match dictGet layerCaches layer with
    | some .attentionKv => .ok (attentionStageIds layer)
    | some .gdnState => .ok []
    | none => .error (.proofV3Error "prefix-cache selected layer lacks a signed cache family")
  return sorted stages.flatten

/-! ## Opening -/

section Open

variable {lib : CacheMerkleLibrary}

/-- `open_prefix_cache_blocks_v3`. -/
def openPrefixCacheBlocks (records : List PrefixCacheBlockRecord) (tree : lib.Tree)
    (indices : List ℕ) : Result PrefixCacheBlockOpening := do
  raiseIf (¬ IsCanonical indices ∨ indices = [] ∨ (∃ index ∈ indices, index ≥ records.length) ∨
      lib.numLeaves tree ≠ records.length)
    (.proofV3Error "prefix-cache opening indices are invalid")
  let opened ← indices.mapM (getItem records)
  construct BlockOpeningFields.postInit ⟨opened, indices.map (lib.getPath tree)⟩

/-- `open_prefix_cache_state_v3`. -/
def openPrefixCacheState (records : List PrefixCacheStateRecord) (tree : lib.Tree)
    (stageIds : List Bytes) : Result PrefixCacheStateOpening := do
  let inventory := records.map fun record => record.val.stageId.text
  raiseIf (¬ IsCanonical stageIds ∨ stageIds = [] ∨ lib.numLeaves tree ≠ records.length ∨
      ∃ stageId ∈ stageIds, stageId ∉ inventory)
    (.proofV3Error "prefix-cache state opening stages are invalid")
  let indices := stageIds.map fun stageId => inventory.idxOf stageId
  let opened ← indices.mapM (getItem records)
  construct StateOpeningFields.postInit ⟨opened, indices.map (lib.getPath tree)⟩

variable (sha256 : Bytes → Digest)

/-- The records that the nonce challenges: those of signed stages in sampled blocks. -/
def challengedRecords (openings : List PrefixCacheStateOpening) (baseIndices : List ℕ)
    (stageIds : List Bytes) : Result (List PrefixCacheStateRecord) := do
  let records ← openings.mapM fun opening => do
    let blockIndex ← opening.val.blockIndex
    return if blockIndex ∈ baseIndices then
      opening.val.records.filter fun record => record.val.stageId.text ∈ stageIds else []
  return records.flatten

/-- One runtime stage: the rows are those of the record, and their tree has its root. -/
def buildRuntimeSource (recordsByKey : List (StageKey × PrefixCacheStateRecord))
    (entry : StageKey × List Bytes) :
    Result (StageKey × ExecutionAnchorCommitment × lib.Tree) := do
  let (key, rows) := entry
  let record ← dictItem recordsByKey key
  raiseIf (rows.length ≠ record.val.rowCount ∨ ∃ row ∈ rows, row.length ≠ record.val.rowWidth)
    (.proofV3Error "prefix-cache runtime row geometry changed after capture")
  let stageId ← stage (ofLex key).2
  let (commitment, tree) ← buildExecutionAnchorTree lib.toMerkleLibrary stageId rows
  raiseIf (commitment.rowCount ≠ record.val.rowCount ∨ commitment.rowWidth ≠ record.val.rowWidth ∨
      commitment.root ≠ record.val.valueRoot)
    (.proofV3Error "prefix-cache leased page changed after pre-nonce capture")
  return (key, commitment, tree)

/-- `try: verify_execution_anchor_lane_v3(…) except ProofV3VerificationError`. -/
def checkLane (lib : CacheMerkleLibrary) (commitment : ExecutionAnchorCommitment)
    (opening : ExecutionAnchorLaneOpening) : Result Unit :=
  match verifyExecutionAnchorLane lib.toMerkleLibrary commitment opening with
  | .ok _ => .ok ()
  | .error (.proofV3VerificationError _) =>
    .error (.proofV3Error "prefix-cache provenance row disagrees with its pre-nonce root")
  | .error error => .error error

/-- The row of a lane: a provenance row, or a row of its runtime stage. -/
def suppliedRow (provenanceSources : List (StageKey × ExecutionAnchorCommitment × lib.Tree))
    (rowsByKey : List (StageKey × List Bytes))
    (provenanceByKey : List ((ℕ ×ₗ Bytes ×ₗ ℕ) × Bytes)) (key : LaneKey) : Result Bytes :=
  if (dictGet provenanceSources key.stageKey).isSome then dictItem provenanceByKey key.rowKey
  else do
    let rows ← dictItem rowsByKey key.stageKey
    getItem rows key.rowIndex

/-- One lane of the proof. -/
def revealLane (provenanceSources sources : List (StageKey × ExecutionAnchorCommitment × lib.Tree))
    (rowsByKey : List (StageKey × List Bytes))
    (provenanceByKey : List ((ℕ ×ₗ Bytes ×ₗ ℕ) × Bytes)) (key : LaneKey) :
    Result PrefixCacheLaneReveal := do
  let (commitment, tree) ← dictItem sources key.stageKey
  let row ← suppliedRow provenanceSources rowsByKey provenanceByKey key
  let opening ← buildExecutionAnchorLaneOpening lib.toMerkleLibrary commitment key.rowIndex row tree
    key.laneIndex
  checkLane lib commitment opening
  let stageId ← stage key.stageId
  construct LaneRevealFields.postInit ⟨key.blockIndex, stageId, opening⟩

/-- The arguments of `build_prefix_cache_postnonce_proof_v3` and `verify_prefix_cache_postnonce_v3`
that select what is opened. -/
structure Selection where
  selectionSeed : Digest
  layerCaches : List (ℕ × CacheKind)
  selectedLayerIndices : List ℕ
  requiredLaneKeys : List LaneKey

/-- The test of one required lane against the committed records. -/
def RequiredMalformed (key : LaneKey) : Option PrefixCacheStateRecord → Prop
  | none => True
  | some record => key.rowIndex ≥ record.val.rowCount

instance (key : LaneKey) (record : Option PrefixCacheStateRecord) :
    Decidable (RequiredMalformed key record) :=
  match record with
  | none => .isTrue trivial
  | some _ => inferInstanceAs (Decidable (_ ≥ _))

/-- `build_prefix_cache_postnonce_proof_v3`. -/
def buildPrefixCachePostnonceProof (retained : PrefixCacheRetainedMaterial lib)
    (selection : Selection) (runtimeRows : List (StageKey × List Bytes))
    (provenanceRows : List ((ℕ ×ₗ Bytes ×ₗ ℕ) × Bytes)) : Result PrefixCachePostnonceProof := do
  let baseIndices ← deriveBlockIndices sha256 selection.selectionSeed retained.val.commitment
    blockSampleCount
  let stageIds ← prefixCacheStageIdsForLayers selection.layerCaches selection.selectedLayerIndices
  let requested ← canonicalRequiredLaneKeys false selection.requiredLaneKeys
  raiseIf (∃ key ∈ requested, RequiredMalformed key (dictGet retained.val.recordsByKey key.stageKey))
    (.proofV3Error "prefix-cache required lane plan is malformed")
  let indices := sortedSet (baseIndices ++ requested.map LaneKey.blockIndex)
  let blockOpening ← openPrefixCacheBlocks retained.val.blockRecords retained.val.blockTree indices
  let openedStageIds := sortedSet (stageIds ++ requested.map LaneKey.stageId)
  let stateOpenings ← indices.mapM fun index => do
    let records ← getItem retained.val.stateRecords index
    let tree ← getItem retained.val.stateTrees index
    openPrefixCacheState records tree openedStageIds
  let recordsByKey := (stateOpenings.flatMap fun opening => opening.val.records).map
    fun record => (record.val.key, record)
  let challenged ← challengedRecords stateOpenings baseIndices stageIds
  let baseLaneKeys ← deriveLaneKeys sha256 selection.selectionSeed retained.val.commitment challenged
    rowsPerStage lanesPerRow
  let laneKeys := sortedSet (baseLaneKeys ++ requested)
  let provenanceKeys := retained.val.provenanceSources.map Prod.fst
  let expectedKeys := sortedSet ((laneKeys.map LaneKey.stageKey).filter (· ∉ provenanceKeys))
  raiseIf (runtimeRows.map Prod.fst ≠ expectedKeys ∨
      runtimeRows.length ≠ (runtimeRows.map Prod.fst).dedup.length)
    (.proofV3Error "prefix-cache runtime row inventory does not match the challenge")
  let runtimeSources ← runtimeRows.mapM (buildRuntimeSource recordsByKey)
  let expectedProvenanceKeys := sortedSet
    ((laneKeys.filter fun key => key.stageKey ∈ provenanceKeys).map LaneKey.rowKey)
  raiseIf (provenanceRows.map Prod.fst ≠ expectedProvenanceKeys ∨
      provenanceRows.length ≠ (provenanceRows.map Prod.fst).dedup.length)
    (.proofV3Error "prefix-cache provenance row inventory does not match the challenge")
  let reveals ← laneKeys.mapM (revealLane retained.val.provenanceSources
    (retained.val.provenanceSources ++ runtimeSources) runtimeRows provenanceRows)
  construct PostnonceProofFields.postInit
    { commitment := retained.val.commitment
      baseCaptureDigest := retained.val.baseCaptureDigest
      blockOpening := blockOpening
      stateOpenings := stateOpenings
      laneReveals := reveals }

end Open

/-! ## Verification -/

section Verify

variable (lib : CacheMerkleLibrary) (sha256 : Bytes → Digest)

/-- The checks of one opened block. -/
def verifyBlock (commitment : PrefixCacheCommitment)
    (entry : (PrefixCacheBlockRecord × MerklePath) × Digest) : Result Unit := do
  let ((record, path), expectedDigest) := entry
  raiseIf (record.val.tokenStart ≠ record.val.blockIndex * commitment.val.blockTokenCount ∨
      record.val.tokenCount ≠ min commitment.val.blockTokenCount
        (commitment.val.cachedTokenCount - record.val.blockIndex * commitment.val.blockTokenCount))
    (.proofV3VerificationError "prefix-cache block width is inconsistent")
  raiseIf (record.val.contentDigest ≠ expectedDigest)
    (.proofV3VerificationError "prefix-cache block does not match the prompt prefix")
  raiseIf (lib.verifyMerklePath commitment.val.blockInventoryRoot record.val.canonicalBytes path =
      false)
    (.proofV3VerificationError "prefix-cache block opening does not match the commitment")

/-- `verify_prefix_cache_block_opening_v3`. -/
def verifyPrefixCacheBlockOpening (commitment : PrefixCacheCommitment)
    (opening : PrefixCacheBlockOpening) (expectedIndices : List ℕ)
    (expectedContentDigests : List Digest) : Result Unit := do
  raiseIf (expectedIndices ≠ opening.val.blockIndices)
    (.proofV3VerificationError "prefix-cache opening does not match the nonce-derived blocks")
  raiseIf (expectedContentDigests.length ≠ expectedIndices.length)
    (.proofV3VerificationError "prefix-cache expected content inventory is malformed")
  ((opening.val.records.zip opening.val.paths).zip expectedContentDigests).forM
    (verifyBlock lib commitment)

/-- The checks of one opened stage. -/
def verifyState (blockRecord : PrefixCacheBlockRecord)
    (entry : PrefixCacheStateRecord × MerklePath) : Result Unit := do
  let (record, path) := entry
  raiseIf (record.val.blockIndex ≠ blockRecord.val.blockIndex)
    (.proofV3VerificationError "prefix-cache state opening crosses logical blocks")
  raiseIf (lib.verifyMerklePath blockRecord.val.stateRoot record.val.canonicalBytes path = false)
    (.proofV3VerificationError "prefix-cache state opening does not match the block root")

/-- `verify_prefix_cache_state_opening_v3`. -/
def verifyPrefixCacheStateOpening (blockRecord : PrefixCacheBlockRecord)
    (opening : PrefixCacheStateOpening) (expectedStageIds : List Bytes) : Result Unit := do
  raiseIf ((opening.val.records.map fun record => record.val.stageId.text) ≠ expectedStageIds)
    (.proofV3VerificationError "prefix-cache state opening does not match the signed challenge")
  (opening.val.records.zip opening.val.paths).forM (verifyState lib blockRecord)

/-- The checks of one lane. -/
def verifyLane (byStage : List (StageKey × PrefixCacheStateRecord)) (reveal : PrefixCacheLaneReveal) :
    Result (LaneKey × Bytes) := do
  match dictGet byStage (toLex (reveal.val.blockIndex, reveal.val.stageId.text)) with
  | none =>
    .error (.proofV3VerificationError "prefix-cache lane reveal references an unopened stage")
  | some record =>
    let commitment ← ExecutionAnchorCommitment.new record.val.stageId record.val.rowCount
      record.val.rowWidth record.val.valueRoot
    let value ← verifyExecutionAnchorLane lib.toMerkleLibrary commitment reveal.val.opening
    return (reveal.val.key, value)

/-- `verify_prefix_cache_lane_reveals_v3`, with `base_stage_ids` given. -/
def verifyPrefixCacheLaneReveals (commitment : PrefixCacheCommitment)
    (stateOpenings : List PrefixCacheStateOpening) (laneReveals : List PrefixCacheLaneReveal)
    (validatorNonce : Digest) (baseStageIds : List Bytes) (requiredLaneKeys : List LaneKey) :
    Result (List (LaneKey × Bytes)) := do
  let records := stateOpenings.flatMap fun opening => opening.val.records
  let baseIndices ← deriveBlockIndices sha256 validatorNonce commitment blockSampleCount
  let challenged ← challengedRecords stateOpenings baseIndices baseStageIds
  let baseExpected ← deriveLaneKeys sha256 validatorNonce commitment challenged rowsPerStage
    lanesPerRow
  let required ← canonicalRequiredLaneKeys true requiredLaneKeys
  raiseIf (∃ key ∈ required, key.blockIndex ≥ commitment.val.blockCount)
    (.proofV3VerificationError "prefix-cache required lane plan is malformed")
  let expected := sortedSet (baseExpected ++ required)
  raiseIf ((laneReveals.map fun reveal => reveal.val.key) ≠ expected)
    (.proofV3VerificationError "prefix-cache lane reveals do not match the nonce challenge")
  laneReveals.mapM (verifyLane lib (records.map fun record => (record.val.key, record)))

/-- The request data that `verify_prefix_cache_postnonce_v3` is given. -/
structure RequestData where
  captureChainDigest : Digest
  executionProfileDigest : Digest
  promptTokenRoot : Digest
  promptTokenIds : List ℕ
  executedSuffixDigest : Digest
  signedBlockTokenCount : ℕ

/-- `verify_prefix_cache_postnonce_v3`. -/
def verifyPrefixCachePostnonce (proof : PrefixCachePostnonceProof) (request : RequestData)
    (selection : Selection) : Result (List (LaneKey × Bytes)) := do
  let commitment := proof.val.commitment
  nonzero32 request.captureChainDigest "capture_chain_digest"
  let folded ← foldPrefixCacheCommitment sha256 proof.val.baseCaptureDigest commitment
  raiseIf (folded ≠ request.captureChainDigest)
    (.proofV3VerificationError "prefix-cache section is detached from the pre-nonce capture")
  raiseIf (commitment.val.executionProfileDigest ≠ request.executionProfileDigest ∨
      commitment.val.promptTokenRoot ≠ request.promptTokenRoot ∨
      commitment.val.contextTokenCount ≠ request.promptTokenIds.length ∨
      commitment.val.blockTokenCount ≠ request.signedBlockTokenCount ∨
      commitment.val.executedSuffixDigest ≠ request.executedSuffixDigest)
    (.proofV3VerificationError "prefix-cache commitment disagrees with the authenticated request")
  let required ← canonicalRequiredLaneKeys true selection.requiredLaneKeys
  raiseIf (∃ key ∈ required, key.blockIndex ≥ commitment.val.blockCount)
    (.proofV3VerificationError "prefix-cache required lane plan is malformed")
  let baseIndices ← deriveBlockIndices sha256 selection.selectionSeed commitment blockSampleCount
  let indices := sortedSet (baseIndices ++ required.map LaneKey.blockIndex)
  let content ← deriveContentDigests sha256 request.executionProfileDigest
    commitment.val.cacheSaltDigest (request.promptTokenIds.take commitment.val.cachedTokenCount)
    commitment.val.blockTokenCount
  let expectedContent ← indices.mapM (getItem content)
  verifyPrefixCacheBlockOpening lib commitment proof.val.blockOpening indices expectedContent
  let stageIds ← prefixCacheStageIdsForLayers selection.layerCaches selection.selectedLayerIndices
  let openedStageIds := sortedSet (stageIds ++ required.map LaneKey.stageId)
  (proof.val.blockOpening.val.records.zip proof.val.stateOpenings).forM fun entry =>
    verifyPrefixCacheStateOpening lib entry.1 entry.2 openedStageIds
  verifyPrefixCacheLaneReveals lib sha256 commitment proof.val.stateOpenings proof.val.laneReveals
    selection.selectionSeed stageIds required

end Verify

end Verathos.PrefixCache
