import Verathos.PrefixCache.Defs

/-!
# Identifiers and audit policies

A translation of the identifiers of proof-v3, and of the signed and the runtime audit policy of
`relation.py`.

Identifiers are structures that carry their validity; the enumerations of names are inductive types.
An object with a checking constructor is a `Constructed` value of its fields.
-/

namespace Verathos.ProofV3

open Anchor (isAlphanumeric isIdentifierCharacter)
open PrefixCache (Constructed construct packI nonzero32 u32 positiveU32)

/-! ## Identifiers -/

/-- `_IDENTIFIER_RE.fullmatch(value) is not None`. -/
def isIdentifier : Bytes → Bool
  | [] => false
  | first :: rest => isAlphanumeric first && rest.all isIdentifierCharacter && rest.length ≤ 127

/-- A text that `_identifier` accepts. -/
structure Identifier where
  text : Bytes
  valid : isIdentifier text = true
deriving DecidableEq

/-- An identifier with its length byte. -/
def Identifier.encode (identifier : Identifier) : Bytes :=
  UInt8.ofNat identifier.text.length :: identifier.text

def identifier (text : Bytes) (name : String) : Result Identifier :=
  if h : isIdentifier text = true then .ok ⟨text, h⟩
  else .error (.proofV3Error (name ++ " is not a canonical identifier"))

def u64 (value : ℕ) (name : String) : Result Unit :=
  raiseIf (value ≥ 2 ^ 64) (.proofV3Error (name ++ " must be an unsigned 64-bit integer"))

/-- `POSTCOMMIT_GLOBAL_NONCE_ABI_V3`. -/
def postcommitGlobalNonceAbi : Identifier :=
  ⟨asciiBytes "postcommit.global_fold.v1", by decide⟩

/-- `POSTCOMMIT_AUDIT_TIER_ABI_V3`. -/
def postcommitAuditTierAbi : Identifier :=
  ⟨asciiBytes "postcommit.audit_tier.v1", by decide⟩

/-- `STRATIFIED_LAYER_HEAD_SELECTION_ABI_V3`. -/
def stratifiedLayerHeadSelectionAbi : Identifier :=
  ⟨asciiBytes "stratified.layer_head.v1", by decide⟩

/-- `GLOBAL_EXECUTION_RELATION_ABI_V3`. -/
def globalExecutionRelationAbi : Identifier :=
  ⟨asciiBytes "global_execution.air.v2", by decide⟩

/-- `RECURSIVE_CHUNK_ACCUMULATOR_ABI_V3`. -/
def recursiveChunkAccumulatorAbi : Identifier :=
  ⟨asciiBytes "recursive.chunk.v2", by decide⟩

/-- `GLOBAL_FOLDED_EXECUTION_PROOF_SYSTEM_V3`. -/
def globalFoldedExecutionProofSystem : Identifier :=
  ⟨asciiBytes "global_folded_execution_v3", by decide⟩

/-- `ECONOMIC_RECOMPUTE_PROOF_SYSTEM_V3`. -/
def economicRecomputeProofSystem : Identifier :=
  ⟨asciiBytes "economic_recompute_v3", by decide⟩

def exactComparators : List Identifier :=
  [⟨asciiBytes "exact.field.v1", by decide⟩, ⟨asciiBytes "exact.integer.v1", by decide⟩]

/-- `ECONOMIC_SELECTION_ABI_V3`. -/
def economicSelectionAbi : Identifier :=
  ⟨asciiBytes "economic.recompute.selection.v2.bounded_pool", by decide⟩

/-- `ECONOMIC_STREAMING_SELECTION_ABI_V3`. -/
def economicStreamingSelectionAbi : Identifier :=
  ⟨asciiBytes "economic.recompute.selection.v7.streaming_stratified_transition_lanes", by decide⟩

/-- `ECONOMIC_COMPACT_SELECTION_ABI_V3`. -/
def economicCompactSelectionAbi : Identifier :=
  ⟨asciiBytes "economic.recompute.selection.v9.compact_projection_terminal_escalation", by decide⟩

/-- `ECONOMIC_COMPACT_ONLY_SELECTION_ABI_V3`. -/
def economicCompactOnlySelectionAbi : Identifier :=
  ⟨asciiBytes "economic.recompute.selection.v10.compact_projection_terminal", by decide⟩

/-- The selection ABIs of the economic challenge. -/
def economicSelectionAbis : List Identifier :=
  [economicSelectionAbi, economicStreamingSelectionAbi, economicCompactSelectionAbi,
    economicCompactOnlySelectionAbi]

/-! ## Audit policies -/

/-- The kind of a request, with its code `_REQUEST_KIND_CODES`. -/
inductive RequestKind where
  | organic
  | canary
deriving DecidableEq

/-- `_REQUEST_KIND_CODES[request_kind]`. -/
def RequestKind.code : RequestKind → UInt8
  | .organic => 1
  | .canary => 2

inductive CoverageMode where
  | allGraphNodes
  | economicShellOnly
deriving DecidableEq

/-- The fields of `RuntimeHardAuditPolicyV3`. -/
structure RuntimePolicyFields where
  requestKind : RequestKind
  effectiveOrganicHardBps : ℕ
  effectiveCanaryHardBps : ℕ
  effectiveProbationFailures : ℕ
  nonceSelectionAbiId : Identifier
  tierSelectionAbiId : Identifier
  selectionAbiId : Identifier

def RuntimePolicyFields.postInit (policy : RuntimePolicyFields) : Result Unit := do
  u32 policy.effectiveOrganicHardBps "effective_organic_hard_bps"
  u32 policy.effectiveCanaryHardBps "effective_canary_hard_bps"
  positiveU32 policy.effectiveProbationFailures "effective_probation_failures"
  raiseIf (policy.effectiveOrganicHardBps > 10000)
    (.proofV3Error "effective_organic_hard_bps must not exceed 10000")
  raiseIf (policy.effectiveCanaryHardBps > 10000)
    (.proofV3Error "effective_canary_hard_bps must not exceed 10000")

/-- `RuntimeHardAuditPolicyV3`. -/
abbrev RuntimeHardAuditPolicy := Constructed RuntimePolicyFields.postInit

/-- The rate of the request: `effective_canary_hard_bps if request_kind == "canary" else
effective_organic_hard_bps`. -/
def RuntimePolicyFields.effectiveHardBps (policy : RuntimePolicyFields) : ℕ :=
  if policy.requestKind = .canary then policy.effectiveCanaryHardBps
  else policy.effectiveOrganicHardBps

theorem effectiveHardBps_le (policy : RuntimeHardAuditPolicy) :
    policy.val.effectiveHardBps ≤ 10000 := by
  have h := policy.property
  simp only [RuntimePolicyFields.postInit, bind_eq_ok, raiseIf_eq_ok, exists_const] at h
  obtain ⟨-, -, -, horganic, hcanary⟩ := h
  unfold RuntimePolicyFields.effectiveHardBps
  split_ifs <;> omega

/-- The fields of `HardAuditPolicyV3`. -/
structure HardAuditPolicyFields where
  coverageMode : CoverageMode
  nonceSelectionAbiId : Identifier
  tierSelectionAbiId : Identifier
  selectionAbiId : Identifier
  minimumOrganicHardBps : ℕ
  minimumCanaryHardBps : ℕ
  probationFailures : ℕ
  selectedLayerCount : ℕ
  minimumFullAttentionLayers : ℕ
  minimumGdnLayers : ℕ
  fullAttentionHeadsPerLayer : ℕ
  transitionQueryRows : ℕ

/-- `MAX_HARD_AUDIT_QUERY_ROWS_V3`. -/
def maxHardAuditQueryRows : ℕ := 256

def HardAuditPolicyFields.postInit (policy : HardAuditPolicyFields) : Result Unit := do
  raiseIf (policy.tierSelectionAbiId ≠ postcommitAuditTierAbi)
    (.proofV3Error "postcommit audit-tier selection ABI is not supported")
  u32 policy.minimumOrganicHardBps "minimum_organic_hard_bps"
  u32 policy.minimumCanaryHardBps "minimum_canary_hard_bps"
  positiveU32 policy.probationFailures "probation_failures"
  positiveU32 policy.selectedLayerCount "selected_layer_count"
  u32 policy.minimumFullAttentionLayers "minimum_full_attention_layers"
  u32 policy.minimumGdnLayers "minimum_gdn_layers"
  positiveU32 policy.fullAttentionHeadsPerLayer "full_attention_heads_per_layer"
  positiveU32 policy.transitionQueryRows "transition_query_rows"
  raiseIf (policy.minimumOrganicHardBps > 10000)
    (.proofV3Error "minimum_organic_hard_bps must not exceed 10000")
  raiseIf (policy.minimumCanaryHardBps > 10000)
    (.proofV3Error "minimum_canary_hard_bps must not exceed 10000")
  raiseIf (policy.transitionQueryRows > maxHardAuditQueryRows)
    (.proofV3Error "transition_query_rows exceeds the protocol maximum")
  raiseIf (policy.minimumFullAttentionLayers + policy.minimumGdnLayers > policy.selectedLayerCount)
    (.proofV3Error "required transition coverage exceeds selected layer count")
  raiseIf (policy.coverageMode = .allGraphNodes ∧
      (policy.nonceSelectionAbiId ≠ postcommitGlobalNonceAbi ∨
        policy.tierSelectionAbiId ≠ postcommitAuditTierAbi ∨
        policy.selectionAbiId ≠ stratifiedLayerHeadSelectionAbi ∨
        policy.minimumOrganicHardBps < 1000 ∨ policy.minimumCanaryHardBps ≠ 10000 ∨
        policy.probationFailures ≠ 1 ∨ policy.selectedLayerCount < 4 ∨
        policy.fullAttentionHeadsPerLayer < 2))
    (.proofV3Error ("global execution profiles require postcommit tier selection and " ++
      "stratified folding, at least 1000 organic bps, 10000 canary bps, one-failure probation, " ++
      "four selected layers, and two selected heads"))

/-- `HardAuditPolicyV3`. -/
abbrev HardAuditPolicy := Constructed HardAuditPolicyFields.postInit

def HardAuditPolicyFields.validateRuntime (policy : HardAuditPolicyFields)
    (runtimePolicy : RuntimePolicyFields) : Result Unit := do
  raiseIf (runtimePolicy.nonceSelectionAbiId ≠ policy.nonceSelectionAbiId)
    (.proofV3VerificationError "runtime nonce-selection ABI does not match the signed profile")
  raiseIf (runtimePolicy.tierSelectionAbiId ≠ policy.tierSelectionAbiId)
    (.proofV3VerificationError "runtime tier-selection ABI does not match the signed profile")
  raiseIf (runtimePolicy.selectionAbiId ≠ policy.selectionAbiId)
    (.proofV3VerificationError "runtime selection ABI does not match the signed profile")
  raiseIf (runtimePolicy.effectiveOrganicHardBps < policy.minimumOrganicHardBps)
    (.proofV3VerificationError "runtime organic hard-audit rate is weaker than the signed profile")
  raiseIf (runtimePolicy.effectiveCanaryHardBps < policy.minimumCanaryHardBps)
    (.proofV3VerificationError "runtime canary hard-audit rate is weaker than the signed profile")
  raiseIf (runtimePolicy.effectiveProbationFailures > policy.probationFailures)
    (.proofV3VerificationError "runtime probation policy is weaker than the signed profile")
  raiseIf (runtimePolicy.requestKind = .canary ∧ runtimePolicy.effectiveCanaryHardBps ≠ 10000)
    (.proofV3VerificationError "canary hard-audit requests must run at 10000 basis points")

/-- What an accepted runtime policy satisfies: the tier ABI of the protocol, and canary requests at
the full rate. -/
theorem validateRuntime_spec {policy : HardAuditPolicy} {runtimePolicy : RuntimePolicyFields}
    (h : policy.val.validateRuntime runtimePolicy = .ok ()) :
    runtimePolicy.tierSelectionAbiId = postcommitAuditTierAbi ∧
      (runtimePolicy.requestKind = .canary → runtimePolicy.effectiveHardBps = 10000) := by
  have hpolicy := policy.property
  simp only [HardAuditPolicyFields.postInit, bind_eq_ok, raiseIf_eq_ok, exists_const] at hpolicy
  simp only [HardAuditPolicyFields.validateRuntime, bind_eq_ok, raiseIf_eq_ok, exists_const] at h
  obtain ⟨-, htier, -, -, -, -, hcanary⟩ := h
  refine ⟨(not_not.mp htier).trans (not_not.mp hpolicy.1), fun hkind => ?_⟩
  rw [RuntimePolicyFields.effectiveHardBps, if_pos hkind]
  exact by_contra fun hne => hcanary ⟨hkind, hne⟩

end Verathos.ProofV3
