import Mathlib.Data.Prod.Lex
import Mathlib.Data.List.Lex
import Mathlib.Data.Finset.Sort
import Verathos.Anchor.Defs
import Verathos.Lib.RejectionDraw

/-!
# Prefix-cache commitments: data

A translation of the classes of `prefix_cache.py`: the records of cache blocks and of the runtime
stages beneath them, the request commitment, the material that the miner retains, and the openings of
a post-nonce proof.

* A class with a `__post_init__` is a structure of its fields with a function `postInit` that raises
  as the source does. An object is a `Constructed postInit`: fields that the constructor accepts.
* `str` identifiers are the byte strings of their ASCII text, so that they are ordered as Python
  orders them. A dictionary is the list of its entries, and `dictGet` is its lookup.
* SHA-256 and the Merkle library are parameters.
-/

namespace Verathos.PrefixCache

open Anchor SortedSet

/-! ## Python values -/

/-- The fields of an object whose constructor accepts them. -/
abbrev Constructed {α : Type} (postInit : α → Result Unit) : Type :=
  { fields : α // postInit fields = .ok () }

/-- Call a constructor. -/
def construct {α : Type} (postInit : α → Result Unit) (fields : α) : Result (Constructed postInit) :=
  match h : postInit fields with
  | .ok () => .ok ⟨fields, h⟩
  | .error error => .error error

@[simp]
theorem construct_eq_ok {α : Type} {postInit : α → Result Unit} {fields : α}
    {object : Constructed postInit} :
    construct postInit fields = .ok object ↔ object.val = fields := by
  unfold construct
  split
  · rw [Except.ok.injEq, Subtype.ext_iff, eq_comm]
  · rename_i error herror
    refine ⟨nofun, ?_⟩
    rintro rfl
    exact nomatch herror.symm.trans object.property

/-- `dictionary.get(key)`, where the dictionary was filled with these entries in order. -/
def dictGet {κ β : Type} [DecidableEq κ] (entries : List (κ × β)) (key : κ) : Option β :=
  (entries.reverse.find? fun entry => entry.1 = key).map Prod.snd

/-- `dictionary[key]`. -/
def dictItem {κ β : Type} [DecidableEq κ] (entries : List (κ × β)) (key : κ) : Result β :=
  match dictGet entries key with
  | some value => .ok value
  | none => .error (.builtin "KeyError")

/-- The decimal digits of a number, as `str` writes them. -/
def decimal (n : ℕ) : Bytes :=
  if n = 0 then [0x30] else ((Nat.digits 10 n).map fun digit => UInt8.ofNat (0x30 + digit)).reverse

/-! ## Keys -/

/-- A committed stage of a block, `(block_index, stage_id)`. -/
abbrev StageKey : Type := ℕ ×ₗ Bytes

instance stageKeyLawfulBEq : LawfulBEq StageKey := inferInstance

/-- A lane, `(block_index, stage_id, row_index, lane_index)`. -/
abbrev LaneKey : Type := ℕ ×ₗ Bytes ×ₗ ℕ ×ₗ ℕ

namespace LaneKey

/-- The key of a lane. -/
def of (blockIndex : ℕ) (stageId : Bytes) (rowIndex laneIndex : ℕ) : LaneKey :=
  toLex (blockIndex, toLex (stageId, toLex (rowIndex, laneIndex)))

/-- `key[0]`. -/
def blockIndex (key : LaneKey) : ℕ := (ofLex key).1

/-- `key[1]`. -/
def stageId (key : LaneKey) : Bytes := (ofLex (ofLex key).2).1

/-- `key[2]`. -/
def rowIndex (key : LaneKey) : ℕ := (ofLex (ofLex (ofLex key).2).2).1

/-- `key[3]`. -/
def laneIndex (key : LaneKey) : ℕ := (ofLex (ofLex (ofLex key).2).2).2

/-- `key[:2]`. -/
def stageKey (key : LaneKey) : StageKey := toLex (key.blockIndex, key.stageId)

/-- `key[:3]`. -/
def rowKey (key : LaneKey) : ℕ ×ₗ Bytes ×ₗ ℕ :=
  toLex (key.blockIndex, toLex (key.stageId, key.rowIndex))

end LaneKey

/-! ## Bounds and domains -/

/-- `MAX_PREFIX_CACHE_BLOCKS_V3`. -/
def maxBlocks : ℕ := 2 ^ 16

/-- `MAX_PREFIX_CACHE_BLOCK_SAMPLES_V3`. -/
def maxBlockSamples : ℕ := 1024

/-- `MAX_PREFIX_CACHE_BLOCK_TOKENS_V3`. -/
def maxBlockTokens : ℕ := 2 ^ 16

/-- `MAX_PREFIX_CACHE_STATE_STAGES_V3`. -/
def maxStateStages : ℕ := 2 ^ 12

/-- `PREFIX_CACHE_BLOCK_SAMPLE_COUNT_V3`. -/
def blockSampleCount : ℕ := 4

/-- `PREFIX_CACHE_ROWS_PER_STAGE_V3`. -/
def rowsPerStage : ℕ := 2

/-- `PREFIX_CACHE_LANES_PER_ROW_V3`. -/
def lanesPerRow : ℕ := 1

/-- `PREFIX_CACHE_BLOCK_COMMITMENT_ABI_V3`. -/
def blockCommitmentAbi : Bytes := asciiBytes "prefix_cache.logical_blocks.v1"

def contentDomain : Bytes := asciiBytes "VERATHOS/PROOF_V3/PREFIX_CACHE/BLOCK_CONTENT/V1"

def commitmentDomain : Bytes := asciiBytes "VERATHOS/PROOF_V3/PREFIX_CACHE/COMMITMENT/V1"

def challengeDomain : Bytes := asciiBytes "VERATHOS/PROOF_V3/PREFIX_CACHE/CHALLENGE/V1"

def foldDomain : Bytes := asciiBytes "VERATHOS/PROOF_V3/PREFIX_CACHE/CAPTURE_FOLD/V1"

def laneChallengeDomain : Bytes := asciiBytes "VERATHOS/PROOF_V3/PREFIX_CACHE/LANE_CHALLENGE/V1"

/-- `struct.pack("<I", value)`. -/
def packI (value : ℕ) : Bytes := LittleEndian.toBytes 4 value

/-- `_fixed32(value, name, nonzero=True)`. -/
def nonzero32 (value : Digest) (name : String) : Result Unit :=
  raiseIf (value = Digest.zero) (.proofV3Error (name ++ " must not be the zero digest"))

def u32 (value : ℕ) (name : String) : Result Unit :=
  raiseIf (value ≥ 2 ^ 32) (.proofV3Error (name ++ " must be a unsigned 32-bit integer"))

/-- `_u32(value, name, positive=True)`. -/
def positiveU32 (value : ℕ) (name : String) : Result Unit :=
  raiseIf (value < 1 ∨ value ≥ 2 ^ 32)
    (.proofV3Error (name ++ " must be a positive unsigned 32-bit integer"))

/-! ## Records -/

/-- The fields of `PrefixCacheBlockRecordV3`. -/
structure BlockRecordFields where
  blockIndex : ℕ
  tokenStart : ℕ
  tokenCount : ℕ
  contentDigest : Digest
  stateRoot : Digest
deriving DecidableEq

def BlockRecordFields.postInit (record : BlockRecordFields) : Result Unit := do
  u32 record.blockIndex "prefix-cache block index"
  u32 record.tokenStart "prefix-cache token start"
  positiveU32 record.tokenCount "prefix-cache token count"
  raiseIf (record.tokenCount > maxBlockTokens)
    (.proofV3Error "prefix-cache block token count exceeds its bound")
  nonzero32 record.contentDigest "prefix-cache content digest"
  nonzero32 record.stateRoot "prefix-cache state root"

/-- `PrefixCacheBlockRecordV3`. -/
abbrev PrefixCacheBlockRecord := Constructed BlockRecordFields.postInit

def BlockRecordFields.canonicalBytes (record : BlockRecordFields) : Bytes :=
  packI record.blockIndex ++ packI record.tokenStart ++ packI record.tokenCount ++
    record.contentDigest.bytes ++ record.stateRoot.bytes

/-- The fields of `PrefixCacheStateRecordV3`. -/
structure StateRecordFields where
  blockIndex : ℕ
  stageId : StageId
  rowCount : ℕ
  rowWidth : ℕ
  valueRoot : Digest
deriving DecidableEq

def StateRecordFields.postInit (record : StateRecordFields) : Result Unit := do
  u32 record.blockIndex "prefix-cache state block index"
  positiveU32 record.rowCount "prefix-cache state row count"
  positiveU32 record.rowWidth "prefix-cache state row width"
  nonzero32 record.valueRoot "prefix-cache state value root"

/-- `PrefixCacheStateRecordV3`. -/
abbrev PrefixCacheStateRecord := Constructed StateRecordFields.postInit

def StateRecordFields.canonicalBytes (record : StateRecordFields) : Bytes :=
  packI record.blockIndex ++ LittleEndian.toBytes 2 record.stageId.text.length ++
    record.stageId.text ++ packI record.rowCount ++ packI record.rowWidth ++ record.valueRoot.bytes

/-- `(record.block_index, record.stage_id)`. -/
def StateRecordFields.key (record : StateRecordFields) : StageKey :=
  toLex (record.blockIndex, record.stageId.text)

/-! ## Openings -/

/-- Every direction of the path is the bit of its index. -/
def MerklePath.HasDirections (path : MerklePath) : Prop :=
  ∀ entry ∈ path.siblings.zipIdx, entry.1.2 = path.leafIndex.testBit entry.2

instance (path : MerklePath) : Decidable (MerklePath.HasDirections path) :=
  inferInstanceAs (Decidable (∀ entry ∈ path.siblings.zipIdx, _))

/-- The fields of `PrefixCacheStateOpeningV3`. -/
structure StateOpeningFields where
  records : List PrefixCacheStateRecord
  paths : List MerklePath

def StateOpeningFields.postInit (opening : StateOpeningFields) : Result Unit := do
  raiseIf (opening.records = [] ∨ opening.records.length > maxStateStages ∨
      opening.paths.length ≠ opening.records.length)
    (.proofV3Error "prefix-cache state opening is malformed")
  raiseIf (¬ IsCanonical (opening.records.map fun record => record.val.stageId.text) ∨
      (opening.records.map fun record => record.val.blockIndex).dedup.length ≠ 1)
    (.proofV3Error "prefix-cache state opening is noncanonical")
  raiseIf (¬ IsCanonical (opening.paths.map MerklePath.leafIndex))
    (.proofV3Error "prefix-cache state paths are noncanonical")
  raiseIf (¬ ∀ path ∈ opening.paths, MerklePath.HasDirections path)
    (.proofV3Error "prefix-cache state path directions are noncanonical")

/-- `PrefixCacheStateOpeningV3`. -/
abbrev PrefixCacheStateOpening := Constructed StateOpeningFields.postInit

/-- `opening.records[0].block_index`. -/
def StateOpeningFields.blockIndex (opening : StateOpeningFields) : Result ℕ := do
  let record ← getItem opening.records 0
  return record.val.blockIndex

/-- The fields of `PrefixCacheBlockOpeningV3`. -/
structure BlockOpeningFields where
  records : List PrefixCacheBlockRecord
  paths : List MerklePath

/-- `tuple(record.block_index for record in opening.records)`. -/
def BlockOpeningFields.blockIndices (opening : BlockOpeningFields) : List ℕ :=
  opening.records.map fun record => record.val.blockIndex

def BlockOpeningFields.postInit (opening : BlockOpeningFields) : Result Unit := do
  raiseIf (opening.records = [] ∨ opening.records.length > maxBlockSamples ∨
      opening.paths.length ≠ opening.records.length)
    (.proofV3Error "prefix-cache block opening is malformed")
  raiseIf (¬ IsCanonical opening.blockIndices)
    (.proofV3Error "prefix-cache block opening is noncanonical")
  raiseIf (∃ pair ∈ opening.paths.zip opening.blockIndices, pair.1.leafIndex ≠ pair.2)
    (.proofV3Error "prefix-cache block path index is inconsistent")
  raiseIf (¬ ∀ path ∈ opening.paths, MerklePath.HasDirections path)
    (.proofV3Error "prefix-cache block path directions are noncanonical")

/-- `PrefixCacheBlockOpeningV3`. -/
abbrev PrefixCacheBlockOpening := Constructed BlockOpeningFields.postInit

/-- The fields of `PrefixCacheLaneRevealV3`. -/
structure LaneRevealFields where
  blockIndex : ℕ
  stageId : StageId
  opening : ExecutionAnchorLaneOpening

def LaneRevealFields.postInit (reveal : LaneRevealFields) : Result Unit :=
  u32 reveal.blockIndex "prefix-cache lane block index"

/-- `PrefixCacheLaneRevealV3`. -/
abbrev PrefixCacheLaneReveal := Constructed LaneRevealFields.postInit

/-- `(item.block_index, item.stage_id, item.opening.row_index, item.opening.lane_index)`. -/
def LaneRevealFields.key (reveal : LaneRevealFields) : LaneKey :=
  LaneKey.of reveal.blockIndex reveal.stageId.text reveal.opening.rowIndex reveal.opening.laneIndex

/-! ## Commitments -/

/-- The fields of `PrefixCacheCommitmentV3`. -/
structure CommitmentFields where
  executionProfileDigest : Digest
  promptTokenRoot : Digest
  cacheSaltDigest : Digest
  executedSuffixDigest : Digest
  blockInventoryRoot : Digest
  gdnBoundaryRoot : Option Digest
  contextTokenCount : ℕ
  cachedTokenCount : ℕ
  blockTokenCount : ℕ
  blockCount : ℕ

def CommitmentFields.postInit (commitment : CommitmentFields) : Result Unit := do
  nonzero32 commitment.executionProfileDigest "execution_profile_digest"
  nonzero32 commitment.promptTokenRoot "prompt_token_root"
  nonzero32 commitment.executedSuffixDigest "executed_suffix_digest"
  nonzero32 commitment.blockInventoryRoot "block_inventory_root"
  match commitment.gdnBoundaryRoot with
  | some root => nonzero32 root "gdn_boundary_root"
  | none => .ok ()
  positiveU32 commitment.contextTokenCount "context_token_count"
  positiveU32 commitment.cachedTokenCount "cached_token_count"
  positiveU32 commitment.blockTokenCount "block_token_count"
  positiveU32 commitment.blockCount "block_count"
  raiseIf (commitment.blockCount > maxBlocks)
    (.proofV3Error "prefix-cache block inventory is too large")
  raiseIf (commitment.cachedTokenCount > commitment.contextTokenCount ∨
      commitment.cachedTokenCount > commitment.blockCount * commitment.blockTokenCount ∨
      commitment.cachedTokenCount ≤ (commitment.blockCount - 1) * commitment.blockTokenCount)
    (.proofV3Error "prefix-cache cached range is inconsistent")

/-- `PrefixCacheCommitmentV3`. -/
abbrev PrefixCacheCommitment := Constructed CommitmentFields.postInit

def CommitmentFields.canonicalBytes (commitment : CommitmentFields) : Bytes :=
  blockCommitmentAbi ++ commitment.executionProfileDigest.bytes ++
    commitment.promptTokenRoot.bytes ++ commitment.cacheSaltDigest.bytes ++
    commitment.executedSuffixDigest.bytes ++ commitment.blockInventoryRoot.bytes ++
    (commitment.gdnBoundaryRoot.getD Digest.zero).bytes ++ packI commitment.contextTokenCount ++
    packI commitment.cachedTokenCount ++ packI commitment.blockTokenCount ++
    packI commitment.blockCount

def CommitmentFields.digest (sha256 : Bytes → Digest) (commitment : CommitmentFields) : Digest :=
  sha256 (commitmentDomain ++ commitment.canonicalBytes)

/-- `fold_prefix_cache_commitment_v3`. -/
def foldPrefixCacheCommitment (sha256 : Bytes → Digest) (baseCaptureDigest : Digest)
    (commitment : PrefixCacheCommitment) : Result Digest := do
  nonzero32 baseCaptureDigest "base_capture_digest"
  return sha256 (foldDomain ++ baseCaptureDigest.bytes ++ (commitment.val.digest sha256).bytes)

/-! ## The post-nonce proof -/

/-- The fields of `PrefixCachePostnonceProofV3`. -/
structure PostnonceProofFields where
  commitment : PrefixCacheCommitment
  baseCaptureDigest : Digest
  blockOpening : PrefixCacheBlockOpening
  stateOpenings : List PrefixCacheStateOpening
  laneReveals : List PrefixCacheLaneReveal

def PostnonceProofFields.postInit (proof : PostnonceProofFields) : Result Unit := do
  nonzero32 proof.baseCaptureDigest "prefix-cache base capture digest"
  raiseIf (proof.stateOpenings.length ≠ proof.blockOpening.val.records.length ∨
      proof.laneReveals = [])
    (.proofV3Error "prefix-cache post-nonce proof is malformed")
  let blockIndices ← proof.stateOpenings.mapM fun opening => opening.val.blockIndex
  raiseIf (blockIndices ≠ proof.blockOpening.val.blockIndices)
    (.proofV3Error "prefix-cache state openings do not match the opened blocks")
  raiseIf (¬ IsCanonical (proof.laneReveals.map fun reveal => reveal.val.key))
    (.proofV3Error "prefix-cache lane reveals are noncanonical")

/-- `PrefixCachePostnonceProofV3`. -/
abbrev PrefixCachePostnonceProof := Constructed PostnonceProofFields.postInit

/-! ## The Merkle library -/

/-- What the code uses of `zkllm.crypto.merkle` for trees of byte strings. -/
structure CacheMerkleLibrary extends MerkleLibrary where
  fromLeaves : List Bytes → Tree
  verifyMerklePath : Digest → Bytes → MerklePath → Bool

/-- The library is the odd-duplicate tree, and the leaves are hashed with `hash_leaf`. -/
structure CacheMerkleLibrary.OddDuplicate (lib : CacheMerkleLibrary) : Prop
    extends lib.toMerkleLibrary.OddDuplicate where
  fromLeaves_eq : ∀ leaves, lib.fromLeaves leaves = lib.fromLeafHashes (leaves.map lib.hashLeaf)
  verifyMerklePath_eq : ∀ root leaf path,
    lib.verifyMerklePath root leaf path =
      lib.verifyMerklePathWithLeafHash root (lib.hashLeaf leaf) path

/-! ## Retained material -/

/-- The fields of `PrefixCacheRetainedMaterialV3`. -/
structure RetainedMaterialFields (lib : CacheMerkleLibrary) where
  commitment : PrefixCacheCommitment
  blockRecords : List PrefixCacheBlockRecord
  blockTree : lib.Tree
  stateRecords : List (List PrefixCacheStateRecord)
  stateTrees : List lib.Tree
  baseCaptureDigest : Digest
  runtimeBlockIdsByLayer : List (ℕ × List (List ℕ))
  provenanceSources : List (StageKey × ExecutionAnchorCommitment × lib.Tree)

namespace RetainedMaterialFields

variable {lib : CacheMerkleLibrary} (material : RetainedMaterialFields lib)

/-- `{(record.block_index, record.stage_id): record …}` over all blocks. -/
def recordsByKey : List (StageKey × PrefixCacheStateRecord) :=
  material.stateRecords.flatten.map fun record => (record.val.key, record)

/-- The test of one block. -/
def BlockInconsistent (blockIndex : ℕ) (block : PrefixCacheBlockRecord)
    (records : List PrefixCacheStateRecord) (tree : lib.Tree) : Prop :=
  block.val.blockIndex ≠ blockIndex ∨ records = [] ∨
    (∃ item ∈ records, item.val.blockIndex ≠ blockIndex) ∨ lib.numLeaves tree ≠ records.length ∨
    lib.root tree ≠ block.val.stateRoot

instance (blockIndex : ℕ) (block : PrefixCacheBlockRecord) (records : List PrefixCacheStateRecord)
    (tree : lib.Tree) : Decidable (BlockInconsistent blockIndex block records tree) :=
  inferInstanceAs (Decidable (_ ∨ _ ∨ _ ∨ _ ∨ _))

/-- The test of the pages of one layer. -/
def PagesMalformed (blockCount : ℕ) (pages : List (List ℕ)) : Prop :=
  pages.length ≠ blockCount ∨ [] ∈ pages ∨ pages.flatten.dedup.length ≠ pages.flatten.length

instance (blockCount : ℕ) (pages : List (List ℕ)) : Decidable (PagesMalformed blockCount pages) :=
  inferInstanceAs (Decidable (_ ∨ _ ∨ _))

/-- The test of one provenance source against the record of its key. -/
def SourceInconsistent (blockCount : ℕ) (key : StageKey) (commitment : ExecutionAnchorCommitment)
    (tree : lib.Tree) : Option PrefixCacheStateRecord → Prop
  | none => True
  | some record =>
    ¬ (ofLex key).1 < blockCount ∨ commitment.stageId.text ≠ (ofLex key).2 ∨
      commitment.rowCount ≠ record.val.rowCount ∨ commitment.rowWidth ≠ record.val.rowWidth ∨
      commitment.root ≠ record.val.valueRoot ∨ lib.numLeaves tree ≠ record.val.rowCount ∨
      lib.root tree ≠ record.val.valueRoot

instance (blockCount : ℕ) (key : StageKey) (commitment : ExecutionAnchorCommitment) (tree : lib.Tree)
    (record : Option PrefixCacheStateRecord) :
    Decidable (SourceInconsistent blockCount key commitment tree record) :=
  match record with
  | none => .isTrue trivial
  | some _ => inferInstanceAs (Decidable (_ ∨ _ ∨ _ ∨ _ ∨ _ ∨ _ ∨ _))

def postInit : Result Unit := do
  nonzero32 material.baseCaptureDigest "prefix-cache base capture digest"
  raiseIf (material.blockRecords.length ≠ material.commitment.val.blockCount ∨
      lib.numLeaves material.blockTree ≠ material.blockRecords.length ∨
      lib.root material.blockTree ≠ material.commitment.val.blockInventoryRoot ∨
      material.stateRecords.length ≠ material.blockRecords.length ∨
      material.stateTrees.length ≠ material.blockRecords.length)
    (.proofV3Error "prefix-cache retained material is malformed")
  raiseIf (∃ entry ∈ (material.blockRecords.zip
        (material.stateRecords.zip material.stateTrees)).zipIdx,
      BlockInconsistent entry.2 entry.1.1 entry.1.2.1 entry.1.2.2)
    (.proofV3Error "prefix-cache retained block material is inconsistent")
  raiseIf (material.runtimeBlockIdsByLayer.map Prod.fst ≠
      sortedSet (material.runtimeBlockIdsByLayer.map Prod.fst))
    (.proofV3Error "prefix-cache runtime block inventory is noncanonical")
  raiseIf (∃ entry ∈ material.runtimeBlockIdsByLayer,
      PagesMalformed material.blockRecords.length entry.2)
    (.proofV3Error "prefix-cache runtime block mapping is malformed")
  raiseIf (material.provenanceSources.map Prod.fst ≠
      sortedSet (material.provenanceSources.map Prod.fst))
    (.proofV3Error "prefix-cache provenance inventory is noncanonical")
  raiseIf (∃ source ∈ material.provenanceSources,
      SourceInconsistent material.blockRecords.length source.1 source.2.1 source.2.2
        (dictGet material.recordsByKey source.1))
    (.proofV3Error "prefix-cache provenance material is inconsistent")

end RetainedMaterialFields

/-- `PrefixCacheRetainedMaterialV3`. -/
abbrev PrefixCacheRetainedMaterial (lib : CacheMerkleLibrary) :=
  Constructed (@RetainedMaterialFields.postInit lib)

end Verathos.PrefixCache
