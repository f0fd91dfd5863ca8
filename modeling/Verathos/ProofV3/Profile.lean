import Verathos.ProofV3.Policy

/-!
# Execution profiles

A translation of the parts of `relation.py` and `profile.py` that the challenge session, the
economic challenge and the trace accumulator read: the signed sequence domain, the cache families,
the layer plans, and the profile with its digest.

The relation graph and its tensors are left out. The canonical JSON of the relation is a byte
string, which only the digest of the profile reads.
-/

namespace Verathos.ProofV3

open PrefixCache (Constructed construct packI nonzero32 u32 positiveU32)

/-! ## The sequence domain -/

/-- `DeclaredDimensionV3`. -/
structure DeclaredDimension where
  dimensionId : Identifier
  minimum : ℕ
  maximum : ℕ

/-- `SequenceDomainV3`. -/
structure SequenceDomain where
  contextDimensionId : Identifier
  decodeDimensionId : Identifier
  sequenceDimensionId : Identifier

/-- `{item.dimension_id: item for item in dimensions}[key]`. -/
def dimension (dimensions : List DeclaredDimension) (key : Identifier) :
    Option DeclaredDimension :=
  dimensions.reverse.find? fun item => item.dimensionId = key

/-- `SequenceDomainV3.validate_dimensions`, which gives the three dimensions. -/
def SequenceDomain.validateDimensions (domain : SequenceDomain)
    (dimensions : List DeclaredDimension) :
    Result (DeclaredDimension × DeclaredDimension × DeclaredDimension) :=
  match dimension dimensions domain.contextDimensionId,
      dimension dimensions domain.decodeDimensionId,
      dimension dimensions domain.sequenceDimensionId with
  | some context, some decode, some sequence => do
    raiseIf (context.minimum < 1)
      (.proofV3Error "context token domain must exclude an empty prompt")
    raiseIf (sequence.minimum ≠ context.minimum + decode.minimum)
      (.proofV3Error "sequence token minimum does not match context plus decode")
    raiseIf (sequence.maximum ≠ context.maximum + decode.maximum)
      (.proofV3Error "sequence token maximum does not match context plus decode")
    return (context, decode, sequence)
  | _, _, _ => .error (.proofV3Error "sequence-domain dimensions are not declared")

def SequenceDomain.bindCounts (domain : SequenceDomain) (dimensions : List DeclaredDimension)
    (contextTokenCount decodeTokenCount : ℕ) : Result ℕ := do
  let (context, decode, sequence) ← domain.validateDimensions dimensions
  positiveU32 contextTokenCount "context_token_count"
  u32 decodeTokenCount "decode_token_count"
  raiseIf (¬ (context.minimum ≤ contextTokenCount ∧ contextTokenCount ≤ context.maximum))
    (.proofV3Error "context token count is outside the signed domain")
  raiseIf (¬ (decode.minimum ≤ decodeTokenCount ∧ decodeTokenCount ≤ decode.maximum))
    (.proofV3Error "decode token count is outside the signed domain")
  let sequenceCount := contextTokenCount + decodeTokenCount
  raiseIf (sequenceCount ≥ 2 ^ 32) (.proofV3Error "combined token coordinate space overflows")
  raiseIf (¬ (sequence.minimum ≤ sequenceCount ∧ sequenceCount ≤ sequence.maximum))
    (.proofV3Error "sequence token count is outside the signed domain")
  return sequenceCount

/-! ## Caches and layers -/

/-- The logical tables of a cache family. -/
inductive CacheTables where
  | attentionKv (keyTensorId valueTensorId : Identifier)
  | gdnState (first : Identifier) (rest : List Identifier)

/-- `LayerCacheRelationV3`. -/
structure LayerCacheRelation where
  layerIndex : ℕ
  tables : CacheTables

/-- The fields of `CacheRelationSpecV3`. -/
structure CacheRelationFields where
  pageTokenCount : ℕ
  maxCacheTokens : ℕ
  layerCaches : List LayerCacheRelation

/-- The checks of `CacheRelationSpecV3.__post_init__` on these fields. -/
def CacheRelationFields.postInit (cache : CacheRelationFields) : Result Unit := do
  positiveU32 cache.pageTokenCount "page_token_count"
  positiveU32 cache.maxCacheTokens "max_cache_tokens"
  raiseIf (cache.layerCaches = [])
    (.proofV3Error "cache relation requires layer-local cache families")
  raiseIf (¬ (cache.layerCaches.map LayerCacheRelation.layerIndex).Pairwise (· < ·))
    (.proofV3Error "layer-local cache families must be sorted canonically")
  raiseIf (cache.pageTokenCount > cache.maxCacheTokens)
    (.proofV3Error "cache page size exceeds the declared cache capacity")

/-- `CacheRelationSpecV3`. -/
abbrev CacheRelationSpec := Constructed CacheRelationFields.postInit

/-- `LayerAuditPlanV3`. -/
structure LayerAuditPlan where
  layerIndex : ℕ
  attentionQueryHeadCount : ℕ

def LayerAuditPlan.IsFullAttention (plan : LayerAuditPlan) : Prop :=
  plan.attentionQueryHeadCount > 0

instance (plan : LayerAuditPlan) : Decidable plan.IsFullAttention :=
  inferInstanceAs (Decidable (_ > _))

/-! ## The relation -/

/-- The fields of `ExecutionRelationSpecV3`. -/
structure RelationFields where
  relationAbiId : Identifier
  recursiveAccumulatorAbiId : Identifier
  prefillChunkTokens : ℕ
  decodeChunkTokens : ℕ
  sequenceDomain : SequenceDomain
  dimensions : List DeclaredDimension
  toleranceComparators : List Identifier
  layerAudits : List LayerAuditPlan
  cache : CacheRelationSpec
  auditPolicy : HardAuditPolicy
  canonicalJson : Bytes

/-- The plans of the full-attention layers. -/
def RelationFields.fullAttentionAudits (relation : RelationFields) : List LayerAuditPlan :=
  relation.layerAudits.filter fun plan => plan.IsFullAttention

/-- The plans of the other layers. -/
def RelationFields.gdnAudits (relation : RelationFields) : List LayerAuditPlan :=
  relation.layerAudits.filter fun plan => ¬ plan.IsFullAttention

/-- The checks of `ExecutionRelationSpecV3.__post_init__` and `_validate_graph` on these fields. -/
def RelationFields.postInit (relation : RelationFields) : Result Unit := do
  positiveU32 relation.prefillChunkTokens "prefill_chunk_tokens"
  positiveU32 relation.decodeChunkTokens "decode_chunk_tokens"
  raiseIf (relation.layerAudits = [])
    (.proofV3Error "relation spec requires per-layer audit plans")
  -- `MAX_RELATION_NODES`
  raiseIf (relation.layerAudits.length > 65535)
    (.proofV3Error "layer_audits must be a bounded tuple")
  raiseIf (¬ (relation.layerAudits.map LayerAuditPlan.layerIndex).Pairwise (· < ·))
    (.proofV3Error "layer audit plans must be sorted canonically")
  let policy := relation.auditPolicy.val
  raiseIf (policy.selectedLayerCount > relation.layerAudits.length)
    (.proofV3Error "hard-audit layer count exceeds the signed execution graph")
  raiseIf (policy.minimumFullAttentionLayers < min 2 relation.fullAttentionAudits.length)
    (.proofV3Error "hard-audit policy weakens signed full-attention coverage")
  raiseIf (policy.minimumGdnLayers < min 1 relation.gdnAudits.length)
    (.proofV3Error "hard-audit policy weakens signed GDN coverage")
  raiseIf (policy.minimumFullAttentionLayers > relation.fullAttentionAudits.length)
    (.proofV3Error "hard-audit policy requires unavailable full-attention layers")
  raiseIf (policy.minimumGdnLayers > relation.gdnAudits.length)
    (.proofV3Error "hard-audit policy requires unavailable GDN layers")

/-- `ExecutionRelationSpecV3`. -/
abbrev ExecutionRelationSpec := Constructed RelationFields.postInit

def RelationFields.validateForLimits (relation : RelationFields)
    (maxContextTokens maxDecodeTokens : ℕ) : Result Unit := do
  positiveU32 maxContextTokens "max_context_tokens"
  positiveU32 maxDecodeTokens "max_decode_tokens"
  raiseIf (relation.prefillChunkTokens > maxContextTokens)
    (.proofV3Error "prefill chunk exceeds the signed context limit")
  raiseIf (relation.decodeChunkTokens > maxDecodeTokens)
    (.proofV3Error "decode chunk exceeds the signed decode limit")
  raiseIf (maxContextTokens + maxDecodeTokens ≥ 2 ^ 32)
    (.proofV3Error "logical token coordinate space overflows")
  raiseIf (relation.cache.val.maxCacheTokens < maxContextTokens + maxDecodeTokens)
    (.proofV3Error "cache capacity does not cover signed token limits")
  let (context, decode, sequence) ← relation.sequenceDomain.validateDimensions relation.dimensions
  raiseIf (context.maximum ≠ maxContextTokens)
    (.proofV3Error "context token domain must exactly match the profile limit")
  raiseIf (decode.maximum ≠ maxDecodeTokens)
    (.proofV3Error "decode token domain must exactly match the profile limit")
  raiseIf (sequence.maximum ≠ maxContextTokens + maxDecodeTokens)
    (.proofV3Error "sequence token domain must exactly match profile limits")

def RelationFields.validateExecutionCounts (relation : RelationFields)
    (contextTokenCount decodeTokenCount : ℕ) : Result ℕ :=
  relation.sequenceDomain.bindCounts relation.dimensions contextTokenCount decodeTokenCount

def RelationFields.GlobalExecutionQualified (relation : RelationFields) : Prop :=
  relation.relationAbiId = globalExecutionRelationAbi ∧
    relation.auditPolicy.val.coverageMode = .allGraphNodes ∧
    relation.recursiveAccumulatorAbiId = recursiveChunkAccumulatorAbi ∧
    ∀ comparator ∈ relation.toleranceComparators, comparator ∈ exactComparators

instance (relation : RelationFields) : Decidable relation.GlobalExecutionQualified :=
  inferInstanceAs (Decidable (_ ∧ _ ∧ _ ∧ _))

def RelationFields.canonicalJsonBytes (relation : RelationFields) : Result Bytes := do
  -- `MAX_RELATION_SPEC_BYTES`
  raiseIf (relation.canonicalJson.length > 960 * 2 ^ 10)
    (.proofV3Error "relation spec exceeds the protocol size limit")
  return relation.canonicalJson

/-! ## The profile -/

/-- The fields of `ExecutionSecurityProfileV3`. -/
structure ProfileFields where
  staticManifestDigest : Digest
  staticArtifactDigest : Digest
  adapterId : Identifier
  adapterVersion : Identifier
  proofSystemId : Identifier
  verifierKeyDigest : Digest
  quantizationSemanticsId : Identifier
  maxVerifiedContextTokens : ℕ
  maxVerifiedDecodeTokens : ℕ
  relationSpec : ExecutionRelationSpec

def ProfileFields.postInit (profile : ProfileFields) : Result Unit := do
  nonzero32 profile.staticManifestDigest "static_manifest_digest"
  nonzero32 profile.staticArtifactDigest "static_artifact_digest"
  positiveU32 profile.maxVerifiedContextTokens "max_verified_context_tokens"
  positiveU32 profile.maxVerifiedDecodeTokens "max_verified_decode_tokens"
  raiseIf (profile.maxVerifiedContextTokens + profile.maxVerifiedDecodeTokens ≥ 2 ^ 32)
    (.proofV3Error "combined context and decode limits exceed the logical coordinate space")
  profile.relationSpec.val.validateForLimits profile.maxVerifiedContextTokens
    profile.maxVerifiedDecodeTokens

/-- `ExecutionSecurityProfileV3`. -/
abbrev ExecutionSecurityProfile := Constructed ProfileFields.postInit

def profileFormatVersion : ℕ := 8

def ProfileFields.HardExecutionCapable (profile : ProfileFields) : Prop :=
  profile.proofSystemId = globalFoldedExecutionProofSystem ∧
    profile.relationSpec.val.GlobalExecutionQualified

instance (profile : ProfileFields) : Decidable profile.HardExecutionCapable :=
  inferInstanceAs (Decidable (_ ∧ _))

def ProfileFields.requireHardExecutionCapability (profile : ProfileFields) : Result Unit :=
  raiseIf (¬ profile.HardExecutionCapable)
    (.proofV3VerificationError "execution profile is not qualified for proof-v3 hard auditing")

/-- `require_economic_recompute_capability_v3`. -/
def ProfileFields.requireEconomicRecomputeCapability (profile : ProfileFields) : Result Unit := do
  raiseIf (profile.proofSystemId ≠ economicRecomputeProofSystem)
    (.proofV3VerificationError "execution profile is not an economic recompute profile")
  let policy := profile.relationSpec.val.auditPolicy.val
  raiseIf (policy.coverageMode ≠ .economicShellOnly)
    (.proofV3VerificationError "economic profile has an unexpected coverage mode")
  raiseIf (policy.selectionAbiId ∉ economicSelectionAbis)
    (.proofV3VerificationError "economic profile is not signed for the economic selection ABI")

def ProfileFields.canonicalBytes (profile : ProfileFields) : Result Bytes := do
  let relationBytes ← profile.relationSpec.val.canonicalJsonBytes
  return asciiBytes "V3PR" ++ LittleEndian.toBytes 2 3 ++
    LittleEndian.toBytes 2 profileFormatVersion ++ packI profile.maxVerifiedContextTokens ++
    packI profile.maxVerifiedDecodeTokens ++ profile.staticManifestDigest.bytes ++
    profile.staticArtifactDigest.bytes ++ profile.verifierKeyDigest.bytes ++
    profile.adapterId.encode ++ profile.adapterVersion.encode ++ profile.proofSystemId.encode ++
    profile.quantizationSemanticsId.encode ++ packI relationBytes.length ++ relationBytes

def ProfileFields.digest (sha256 : Bytes → Digest) (profile : ProfileFields) : Result Digest := do
  let encoded ← profile.canonicalBytes
  return sha256 (asciiBytes "VERATHOS/PROOF_V3/EXECUTION_PROFILE/SHA256" ++ encoded)

/-! ## A small profile -/

/-- A digest of equal bytes. -/
def constantDigest (byte : UInt8) : Digest := Digest.fill byte

/-- A signed policy with four layers per audit. -/
def smallPolicyFields (coverageMode : CoverageMode) (selectionAbiId : Identifier) :
    HardAuditPolicyFields where
  coverageMode := coverageMode
  nonceSelectionAbiId := postcommitGlobalNonceAbi
  tierSelectionAbiId := postcommitAuditTierAbi
  selectionAbiId := selectionAbiId
  minimumOrganicHardBps := 1000
  minimumCanaryHardBps := 10000
  probationFailures := 1
  selectedLayerCount := 4
  minimumFullAttentionLayers := 2
  minimumGdnLayers := 1
  fullAttentionHeadsPerLayer := 2
  transitionQueryRows := 8

/-- A relation with three full-attention layers and one GDN layer, for contexts of 1 to 16 tokens in
chunks of 4 and decodes of up to 8 tokens in chunks of 2. -/
def smallRelationFields (auditPolicy : HardAuditPolicy) (cache : CacheRelationSpec) :
    RelationFields where
  relationAbiId := globalExecutionRelationAbi
  recursiveAccumulatorAbiId := recursiveChunkAccumulatorAbi
  prefillChunkTokens := 4
  decodeChunkTokens := 2
  sequenceDomain := ⟨⟨[0x63], by decide⟩, ⟨[0x64], by decide⟩, ⟨[0x73], by decide⟩⟩
  dimensions := [⟨⟨[0x63], by decide⟩, 1, 16⟩, ⟨⟨[0x64], by decide⟩, 0, 8⟩,
    ⟨⟨[0x73], by decide⟩, 1, 24⟩]
  toleranceComparators := []
  layerAudits := [⟨0, 2⟩, ⟨1, 2⟩, ⟨2, 2⟩, ⟨3, 0⟩]
  cache := cache
  auditPolicy := auditPolicy
  canonicalJson := []

/-- A cache with one family and pages of 4 tokens. -/
def smallCache : CacheRelationSpec :=
  ⟨{ pageTokenCount := 4
     maxCacheTokens := 24
     layerCaches := [⟨0, .attentionKv ⟨[0x6b], by decide⟩ ⟨[0x76], by decide⟩⟩] }, by decide⟩

/-- A profile with the small relation. -/
def smallProfileFields (proofSystemId : Identifier) (relationSpec : ExecutionRelationSpec) :
    ProfileFields where
  staticManifestDigest := constantDigest 1
  staticArtifactDigest := constantDigest 2
  adapterId := ⟨[0x61], by decide⟩
  adapterVersion := ⟨[0x31], by decide⟩
  proofSystemId := proofSystemId
  verifierKeyDigest := constantDigest 3
  quantizationSemanticsId := ⟨[0x71], by decide⟩
  maxVerifiedContextTokens := 16
  maxVerifiedDecodeTokens := 8
  relationSpec := relationSpec

/-- A small profile of the folded proof system. -/
def smallFoldedProfile : ExecutionSecurityProfile :=
  ⟨smallProfileFields globalFoldedExecutionProofSystem
    ⟨smallRelationFields
      ⟨smallPolicyFields .allGraphNodes stratifiedLayerHeadSelectionAbi, by decide⟩ smallCache,
      by decide⟩, by decide⟩

/-- A small profile of the economic proof system. -/
def smallEconomicProfile (selectionAbiId : Identifier) : ExecutionSecurityProfile :=
  ⟨smallProfileFields economicRecomputeProofSystem
    ⟨smallRelationFields ⟨smallPolicyFields .economicShellOnly selectionAbiId, rfl⟩ smallCache,
      rfl⟩, rfl⟩

end Verathos.ProofV3
