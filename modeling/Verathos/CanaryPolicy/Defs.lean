import Mathlib.Data.List.Lex
import Verathos.CanaryPolicy.Fields
import Verathos.Lib.SortedSet
import Verathos.Lib.StableSort

/-!
# Signed canary policies

A translation of the records, the document and the signature check of `canary_policy.py`. The
`__post_init__` of a record is the function `new` or `postInit` that gives the stored record.

SHA-256 and the recovery of a signer are parameters.
-/

namespace Verathos.CanaryPolicy

open StableSort (sortBy)
open SortedSet (sorted)

/-- `value[key]`. -/
def item (members : List (String × Json)) (key : String) : PolicyResult Json :=
  match members.lookup key with
  | some value => .ok value
  | none => .error (.builtin "KeyError")

/-- The members of a dictionary whose keys are exactly the given ones. -/
def dictOf (value : Json) (keys : List String) (message : String) :
    PolicyResult (List (String × Json)) :=
  match value with
  | .obj members =>
    if (members.map Prod.fst).toFinset ≠ keys.toFinset then .error (.document message)
    else .ok members
  | _ => .error (.document message)

/-- The items of a list. -/
def listOf (value : Json) (message : String) : PolicyResult (List Json) :=
  match value with
  | .arr items => .ok items
  | _ => .error (.document message)

/-! ## Model policies -/

structure CanaryModelPolicyV3 where
  modelId : String
  executionProfileDigest : Bytes
  allowedQuantizations : List String
  maxHardAuditDecodeTokens : ℤ
deriving DecidableEq

namespace CanaryModelPolicyV3

variable (u : Unicode)

/-- The construction of a `CanaryModelPolicyV3`, whose quantizations may be objects of any type. -/
def new (modelId : String) (executionProfileDigest : Bytes) (allowedQuantizations : List Json)
    (maxHardAuditDecodeTokens : ℤ) : PolicyResult CanaryModelPolicyV3 := do
  let modelId ← identifier u (.str modelId) "model_id"
  refuseIf (executionProfileDigest.length ≠ 32 ∨ executionProfileDigest = List.replicate 32 0)
    (.document "execution_profile_digest must be a nonzero 32-byte digest")
  let quants ← allowedQuantizations.mapM (canonicalQuant u)
  let quants := sorted quants
  refuseIf (quants = [] ∨ quants.length > 32 ∨ ¬ quants.Nodup)
    (.document "allowed_quantizations must be a nonempty unique inventory")
  let maxHardDecode ← u32 (.int maxHardAuditDecodeTokens) "max_hard_audit_decode_tokens" 1
  return ⟨modelId, executionProfileDigest, quants, maxHardDecode⟩

def toDict (policy : CanaryModelPolicyV3) : Json :=
  .obj [("allowed_quantizations", .arr (policy.allowedQuantizations.map .str)),
    ("execution_profile_digest", .str (Hex.toText policy.executionProfileDigest)),
    ("max_hard_audit_decode_tokens", .int policy.maxHardAuditDecodeTokens),
    ("model_id", .str policy.modelId)]

def fromDict (value : Json) : PolicyResult CanaryModelPolicyV3 := do
  let members ← dictOf value
    ["allowed_quantizations", "execution_profile_digest", "max_hard_audit_decode_tokens",
      "model_id"]
    "canary model policy fields do not match the canonical schema"
  let quants ← listOf (← item members "allowed_quantizations")
    "allowed_quantizations must be a list"
  let modelId ← identifier u (← item members "model_id") "model_id"
  let digest ← hex32 u (← item members "execution_profile_digest") "execution_profile_digest"
  let maxHardDecode ← u32 (← item members "max_hard_audit_decode_tokens")
    "max_hard_audit_decode_tokens" 1
  new u modelId digest quants maxHardDecode

end CanaryModelPolicyV3

/-! ## Policies -/

/-- An `int`, of which `bool` is a subclass. -/
inductive PyInt where
  | int (n : ℤ)
  | bool (b : Bool)
deriving DecidableEq

namespace PyInt

/-- The number that comparisons see. -/
def value : PyInt → ℤ
  | int n => n
  | bool b => if b then 1 else 0

/-- What `json.dumps` writes. -/
def toJson : PyInt → Json
  | int n => .int n
  | bool b => .bool b

end PyInt

def canaryPolicyAbiV3 : String := "proof_v3.canary_policy.v5"

def canaryPromptRecipeAbiV3 : String := "natural_composite.secret_seeded.long_form.v3"

def canaryContextConstructionAbiV3 : String := "validator_tokenizer.near_advertised.v2"

def canaryBusyPolicyAbiV3 : String := "validator_receipt_interval.one_epoch_debt.v1"

def canaryScheduleSelectionAbiV3 : String := "validator_secret.marked_bernoulli_per_block.v1"

def canaryHardDecodeSelectionAbiV3 : String :=
  "secret_seeded.independent_common_anchors_log_uniform_tail.v2"

def canaryRepeatPrefixAbiV3 : String := "validator_secret.shared_prefix_groups.v1"

def maxCanaryPolicyModels : ℕ := 2 ^ 14

def defaultCanaryMaxHardDroughtEpochsV3 : ℤ := 2

structure CanaryPolicyV3 where
  modelPolicies : List CanaryModelPolicyV3
  minimumLowContextCanaries : ℤ := 2
  minimumAdvertisedContextLightCanaries : ℤ := 1
  hardAuditorCandidateTargetPerEpoch : ℤ := 2
  hardAuditorCandidateHardBps : ℤ := 5000
  lowContextMinTokens : ℤ := 512
  lowContextMaxTokens : ℤ := 2048
  lowContextMaxDecodeTokens : ℤ := 192
  fullContextDecodeReserveTokens : ℤ := 256
  fullContextMaxDecodeTokens : ℤ := 96
  fullContextMaxAttempts : ℤ := 4
  advertisedContextTargetBps : ℤ := 9000
  hardDecodeAnchorBps : ℤ := 2500
  hardDecodeTailBps : ℤ := 1000
  lateDecodeMinOutputBps : ℤ := 9000
  repeatPrefixTargetBps : ℤ := 5000
  repeatPrefixMinTokens : ℤ := 256
  maxFullContextDeferralEpochs : PyInt := .int 1
  maxHardAuditDroughtEpochs : ℤ := defaultCanaryMaxHardDroughtEpochsV3
  policyVersion : PyInt := .int 3
  protocolVersion : PyInt := .int 3
  policyAbiId : String := canaryPolicyAbiV3
  promptRecipeAbiId : String := canaryPromptRecipeAbiV3
  contextConstructionAbiId : String := canaryContextConstructionAbiV3
  busyPolicyAbiId : String := canaryBusyPolicyAbiV3
  scheduleSelectionAbiId : String := canaryScheduleSelectionAbiV3
  hardDecodeSelectionAbiId : String := canaryHardDecodeSelectionAbiV3
  repeatPrefixAbiId : String := canaryRepeatPrefixAbiV3
deriving DecidableEq

namespace CanaryPolicyV3

variable (u : Unicode) (policy : CanaryPolicyV3)

/-- The checks of `__post_init__` on the numbers. -/
def checkNumbers : PolicyResult Unit := do
  let lowCanaries ← u32 (.int policy.minimumLowContextCanaries) "minimum_low_context_canaries" 0
  refuseIf (lowCanaries < 2)
    (.document "canary policy must require at least two external low-context canaries")
  let lightCanaries ← u32 (.int policy.minimumAdvertisedContextLightCanaries)
    "minimum_advertised_context_light_canaries" 0
  refuseIf (lightCanaries ≠ 1)
    (.document "canary policy must require exactly one advertised-context light canary")
  let candidateTarget ← u32 (.int policy.hardAuditorCandidateTargetPerEpoch)
    "hard_auditor_candidate_target_per_epoch" 1
  refuseIf (candidateTarget > 32)
    (.document "hard-auditor candidate target exceeds its protocol bound")
  let candidateHardBps ← u32 (.int policy.hardAuditorCandidateHardBps)
    "hard_auditor_candidate_hard_bps" 1
  refuseIf (candidateHardBps ≥ 10000)
    (.document "hard-auditor candidate hard rate must leave light decoys")
  let lowMin ← u32 (.int policy.lowContextMinTokens) "low_context_min_tokens" 1
  let lowMax ← u32 (.int policy.lowContextMaxTokens) "low_context_max_tokens" lowMin
  refuseIf (lowMax < lowMin) (.document "low-context token range is inverted")
  let _ ← u32 (.int policy.lowContextMaxDecodeTokens) "low_context_max_decode_tokens" 1
  let fullReserve ← u32 (.int policy.fullContextDecodeReserveTokens)
    "full_context_decode_reserve_tokens" 1
  let fullDecode ← u32 (.int policy.fullContextMaxDecodeTokens)
    "full_context_max_decode_tokens" 1
  refuseIf (fullDecode > fullReserve)
    (.document "full-context decode length exceeds its reserved context")
  let attempts ← u32 (.int policy.fullContextMaxAttempts) "full_context_max_attempts" 2
  refuseIf (attempts > 32) (.document "full_context_max_attempts exceeds its protocol bound")
  let targetBps ← u32 (.int policy.advertisedContextTargetBps) "advertised_context_target_bps" 1
  refuseIf (targetBps > 10000) (.document "advertised_context_target_bps exceeds 10000")
  let tailBps ← u32 (.int policy.hardDecodeTailBps) "hard_decode_tail_bps" 1000
  let anchorBps ← u32 (.int policy.hardDecodeAnchorBps) "hard_decode_anchor_bps" 2500
  refuseIf (anchorBps > 10000 ∨ tailBps > 10000)
    (.document "hard-decode selection rate exceeds 10000")
  refuseIf (anchorBps + tailBps ≥ 10000)
    (.document "hard-decode distribution must retain its common range")
  let lateOutputBps ← u32 (.int policy.lateDecodeMinOutputBps) "late_decode_min_output_bps" 8000
  refuseIf (lateOutputBps > 10000) (.document "late_decode_min_output_bps exceeds 10000")
  let repeatPrefixBps ← u32 (.int policy.repeatPrefixTargetBps) "repeat_prefix_target_bps" 1
  refuseIf (repeatPrefixBps ≥ 10000)
    (.document "repeat_prefix_target_bps must leave a request-specific tail")
  let repeatPrefixMin ← u32 (.int policy.repeatPrefixMinTokens) "repeat_prefix_min_tokens" 64
  refuseIf (repeatPrefixMin > lowMin / 2)
    (.document "repeat_prefix_min_tokens exceeds half the minimum low context")
  refuseIf (policy.maxFullContextDeferralEpochs.value ≠ 1)
    (.document "proof-v3 permits exactly one epoch of full-context deferral")
  let droughtEpochs ← u32 (.int policy.maxHardAuditDroughtEpochs)
    "max_hard_audit_drought_epochs" 1
  refuseIf (droughtEpochs ≠ defaultCanaryMaxHardDroughtEpochsV3)
    (.document "proof-v3 hard-audit drought window is unsupported")
  refuseIf (policy.policyVersion.value ≠ 3 ∨ policy.protocolVersion.value ≠ 3)
    (.document "canary policy version is unsupported")

/-- The checks of `__post_init__` on the identifiers. -/
def checkAbiIds : PolicyResult Unit := do
  refuseIf (policy.policyAbiId ≠ canaryPolicyAbiV3)
    (.document "canary policy ABI is unsupported")
  refuseIf (policy.promptRecipeAbiId ≠ canaryPromptRecipeAbiV3)
    (.document "canary prompt recipe ABI is unsupported")
  refuseIf (policy.contextConstructionAbiId ≠ canaryContextConstructionAbiV3)
    (.document "canary context construction ABI is unsupported")
  refuseIf (policy.busyPolicyAbiId ≠ canaryBusyPolicyAbiV3)
    (.document "canary busy policy ABI is unsupported")
  refuseIf (policy.scheduleSelectionAbiId ≠ canaryScheduleSelectionAbiV3)
    (.document "canary schedule-selection ABI is unsupported")
  refuseIf (policy.hardDecodeSelectionAbiId ≠ canaryHardDecodeSelectionAbiV3)
    (.document "canary hard-decode selection ABI is unsupported")
  refuseIf (policy.repeatPrefixAbiId ≠ canaryRepeatPrefixAbiV3)
    (.document "canary repeat-prefix ABI is unsupported")
  let _ ← identifier u (.str policy.policyAbiId) "policy_abi_id"
  let _ ← identifier u (.str policy.promptRecipeAbiId) "prompt_recipe_abi_id"
  let _ ← identifier u (.str policy.contextConstructionAbiId) "context_construction_abi_id"
  let _ ← identifier u (.str policy.busyPolicyAbiId) "busy_policy_abi_id"
  let _ ← identifier u (.str policy.scheduleSelectionAbiId) "schedule_selection_abi_id"
  let _ ← identifier u (.str policy.hardDecodeSelectionAbiId) "hard_decode_selection_abi_id"
  let _ ← identifier u (.str policy.repeatPrefixAbiId) "repeat_prefix_abi_id"

/-- `__post_init__`, which gives the stored policy. -/
def postInit : PolicyResult CanaryPolicyV3 := do
  let models := sortBy CanaryModelPolicyV3.modelId policy.modelPolicies
  refuseIf (models = [] ∨ models.length > maxCanaryPolicyModels ∨
      ¬ (models.map CanaryModelPolicyV3.modelId).Nodup)
    (.document "canary policy model inventory is empty, duplicated, or oversized")
  policy.checkNumbers
  policy.checkAbiIds u
  return { policy with modelPolicies := models }

/-- The members of `to_dict`. -/
def members : List (String × Json) :=
  [("advertised_context_target_bps", .int policy.advertisedContextTargetBps),
    ("busy_policy_abi_id", .str policy.busyPolicyAbiId),
    ("context_construction_abi_id", .str policy.contextConstructionAbiId),
    ("full_context_decode_reserve_tokens", .int policy.fullContextDecodeReserveTokens),
    ("full_context_max_attempts", .int policy.fullContextMaxAttempts),
    ("full_context_max_decode_tokens", .int policy.fullContextMaxDecodeTokens),
    ("hard_auditor_candidate_hard_bps", .int policy.hardAuditorCandidateHardBps),
    ("hard_auditor_candidate_target_per_epoch", .int policy.hardAuditorCandidateTargetPerEpoch),
    ("hard_decode_anchor_bps", .int policy.hardDecodeAnchorBps),
    ("hard_decode_selection_abi_id", .str policy.hardDecodeSelectionAbiId),
    ("hard_decode_tail_bps", .int policy.hardDecodeTailBps),
    ("late_decode_min_output_bps", .int policy.lateDecodeMinOutputBps),
    ("low_context_max_decode_tokens", .int policy.lowContextMaxDecodeTokens),
    ("low_context_max_tokens", .int policy.lowContextMaxTokens),
    ("low_context_min_tokens", .int policy.lowContextMinTokens),
    ("max_full_context_deferral_epochs", policy.maxFullContextDeferralEpochs.toJson),
    ("max_hard_audit_drought_epochs", .int policy.maxHardAuditDroughtEpochs),
    ("minimum_advertised_context_light_canaries",
      .int policy.minimumAdvertisedContextLightCanaries),
    ("minimum_low_context_canaries", .int policy.minimumLowContextCanaries),
    ("model_policies", .arr (policy.modelPolicies.map CanaryModelPolicyV3.toDict)),
    ("policy_abi_id", .str policy.policyAbiId),
    ("policy_version", policy.policyVersion.toJson),
    ("prompt_recipe_abi_id", .str policy.promptRecipeAbiId),
    ("protocol_version", policy.protocolVersion.toJson),
    ("repeat_prefix_abi_id", .str policy.repeatPrefixAbiId),
    ("repeat_prefix_min_tokens", .int policy.repeatPrefixMinTokens),
    ("repeat_prefix_target_bps", .int policy.repeatPrefixTargetBps),
    ("schedule_selection_abi_id", .str policy.scheduleSelectionAbiId)]

def toDict : Json := .obj policy.members

def canonicalBytes : Bytes := StrictJson.write policy.toDict

def policyDomain : Bytes := asciiBytes "VERATHOS/PROOF_V3/CANARY_POLICY/V3/SHA256"

def digest (sha256 : Bytes → Digest) : Digest := sha256 (policyDomain ++ policy.canonicalBytes)

/-- The keys of a policy. -/
def keys : List String :=
  ["advertised_context_target_bps", "busy_policy_abi_id", "context_construction_abi_id",
    "full_context_decode_reserve_tokens", "full_context_max_attempts",
    "full_context_max_decode_tokens", "hard_auditor_candidate_hard_bps",
    "hard_auditor_candidate_target_per_epoch", "hard_decode_anchor_bps",
    "hard_decode_selection_abi_id", "hard_decode_tail_bps", "late_decode_min_output_bps",
    "low_context_max_decode_tokens", "low_context_max_tokens", "low_context_min_tokens",
    "max_full_context_deferral_epochs", "max_hard_audit_drought_epochs",
    "minimum_advertised_context_light_canaries", "minimum_low_context_canaries",
    "model_policies", "policy_abi_id", "policy_version", "prompt_recipe_abi_id",
    "protocol_version", "repeat_prefix_abi_id", "repeat_prefix_min_tokens",
    "repeat_prefix_target_bps", "schedule_selection_abi_id"]

/-- `_u32(value[name], name)`. -/
def u32Field (members : List (String × Json)) (name : String) : PolicyResult ℤ := do
  u32 (← item members name) name 0

/-- `_identifier(value[name], name)`. -/
def identifierField (members : List (String × Json)) (name : String) : PolicyResult String := do
  identifier u (← item members name) name

def fromDict (value : Json) : PolicyResult CanaryPolicyV3 := do
  let members ← dictOf value keys "canary policy fields do not match the canonical schema"
  let models ← listOf (← item members "model_policies") "model_policies must be a list"
  let modelPolicies ← models.mapM (CanaryModelPolicyV3.fromDict u)
  let minimumLowContextCanaries ← u32Field members "minimum_low_context_canaries"
  let minimumAdvertisedContextLightCanaries ←
    u32Field members "minimum_advertised_context_light_canaries"
  let hardAuditorCandidateTargetPerEpoch ←
    u32Field members "hard_auditor_candidate_target_per_epoch"
  let hardAuditorCandidateHardBps ← u32Field members "hard_auditor_candidate_hard_bps"
  let lowContextMinTokens ← u32Field members "low_context_min_tokens"
  let lowContextMaxTokens ← u32Field members "low_context_max_tokens"
  let lowContextMaxDecodeTokens ← u32Field members "low_context_max_decode_tokens"
  let fullContextDecodeReserveTokens ← u32Field members "full_context_decode_reserve_tokens"
  let fullContextMaxDecodeTokens ← u32Field members "full_context_max_decode_tokens"
  let hardDecodeSelectionAbiId ← identifierField u members "hard_decode_selection_abi_id"
  let hardDecodeAnchorBps ← u32Field members "hard_decode_anchor_bps"
  let hardDecodeTailBps ← u32Field members "hard_decode_tail_bps"
  let lateDecodeMinOutputBps ← u32Field members "late_decode_min_output_bps"
  let repeatPrefixTargetBps ← u32Field members "repeat_prefix_target_bps"
  let repeatPrefixMinTokens ← u32Field members "repeat_prefix_min_tokens"
  let fullContextMaxAttempts ← u32Field members "full_context_max_attempts"
  let advertisedContextTargetBps ← u32Field members "advertised_context_target_bps"
  let maxFullContextDeferralEpochs ← u32Field members "max_full_context_deferral_epochs"
  let maxHardAuditDroughtEpochs ← u32Field members "max_hard_audit_drought_epochs"
  let policyVersion ← u32Field members "policy_version"
  let protocolVersion ← u32Field members "protocol_version"
  let policyAbiId ← identifierField u members "policy_abi_id"
  let promptRecipeAbiId ← identifierField u members "prompt_recipe_abi_id"
  let contextConstructionAbiId ← identifierField u members "context_construction_abi_id"
  let busyPolicyAbiId ← identifierField u members "busy_policy_abi_id"
  let scheduleSelectionAbiId ← identifierField u members "schedule_selection_abi_id"
  let repeatPrefixAbiId ← identifierField u members "repeat_prefix_abi_id"
  postInit u
    { modelPolicies, minimumLowContextCanaries, minimumAdvertisedContextLightCanaries
      hardAuditorCandidateTargetPerEpoch, hardAuditorCandidateHardBps, lowContextMinTokens
      lowContextMaxTokens, lowContextMaxDecodeTokens, fullContextDecodeReserveTokens
      fullContextMaxDecodeTokens, fullContextMaxAttempts, advertisedContextTargetBps
      hardDecodeAnchorBps, hardDecodeTailBps, lateDecodeMinOutputBps, repeatPrefixTargetBps
      repeatPrefixMinTokens
      maxFullContextDeferralEpochs := .int maxFullContextDeferralEpochs
      maxHardAuditDroughtEpochs
      policyVersion := .int policyVersion
      protocolVersion := .int protocolVersion
      policyAbiId, promptRecipeAbiId, contextConstructionAbiId, busyPolicyAbiId
      scheduleSelectionAbiId, hardDecodeSelectionAbiId, repeatPrefixAbiId }

end CanaryPolicyV3

/-! ## Documents -/

def maxCanaryPolicyDocumentBytes : ℕ := 2 ^ 18

def maxCanaryPolicySignatures : ℕ := 32

structure SignedCanaryPolicyDocumentV3 where
  policy : CanaryPolicyV3
  signatures : List Bytes
deriving DecidableEq

/-- The exception clause around the signatures of a document. -/
def signaturesNotCanonical {α : Type} : PolicyResult α → PolicyResult α
  | .error (.signature _) => .error (.document "canary policy signatures are not canonical")
  | result => result

/-- The exceptions of the JSON reader. -/
def jsonFault {α : Type} : Except StrictJson.Fault α → PolicyResult α
  | .ok value => .ok value
  | .error .malformed => .error (.document "canary policy document is not valid JSON")
  | .error .constant => .error (.document "JSON constants are not allowed")
  | .error .duplicate => .error (.document "JSON object contains duplicate keys")

namespace SignedCanaryPolicyDocumentV3

/-- The construction of a `SignedCanaryPolicyDocumentV3`. -/
def new (policy : CanaryPolicyV3) (signatures : List BytesOrObject) :
    PolicyResult SignedCanaryPolicyDocumentV3 := do
  let signatures ← signaturesNotCanonical (signatures.mapM signatureOf)
  let signatures := sorted signatures
  refuseIf (signatures = [] ∨ signatures.length > maxCanaryPolicySignatures ∨
      ¬ signatures.Nodup)
    (.document "canary policy signature inventory is invalid")
  return ⟨policy, signatures⟩

def toDict (document : SignedCanaryPolicyDocumentV3) : Json :=
  .obj [("policy", document.policy.toDict),
    ("signatures", .arr (document.signatures.map fun value => .str (Hex.toText value)))]

def canonicalJsonBytes (document : SignedCanaryPolicyDocumentV3) : PolicyResult Bytes := do
  let encoded := StrictJson.write document.toDict
  refuseIf (encoded.length > maxCanaryPolicyDocumentBytes)
    (.document "canary policy document exceeds its protocol limit")
  return encoded

def fromJsonBytes (u : Unicode) (encoded : Bytes) :
    PolicyResult SignedCanaryPolicyDocumentV3 := do
  refuseIf (encoded = [] ∨ encoded.length > maxCanaryPolicyDocumentBytes)
    (.document "canary policy document length is out of range")
  let value ← jsonFault (StrictJson.read encoded)
  let members ← dictOf value ["policy", "signatures"]
    "canary policy document fields do not match the canonical schema"
  let signatures ← listOf (← item members "signatures")
    "canary policy signatures must be a list"
  let policy ← CanaryPolicyV3.fromDict u (← item members "policy")
  let signatures ← signatures.mapM fun value => signatureOf (.object value)
  let result ← new policy (signatures.map .bytes)
  let again ← result.canonicalJsonBytes
  refuseIf (again ≠ encoded) (.document "canary policy document is not canonical JSON")
  return result

end SignedCanaryPolicyDocumentV3

/-! ## Signatures -/

/-- The exception clause around the recovery of a signer. -/
def recoveryFailed {α : Type} : PolicyResult α → PolicyResult α
  | .error _ => .error (.signature "canary policy signature recovery failed")
  | result => result

/-- The loop over the signatures of a document, where `recover` is `Account.recover_message`. -/
def recoverSigners (recover : Digest → Bytes → PolicyResult BytesOrObject) (digest : Digest)
    (authorities : List Bytes) : List Bytes → List Bytes → PolicyResult (List Bytes)
  | [], recovered => .ok recovered
  | value :: values, recovered => do
    let signer ← recoveryFailed do
      address (← recover digest value) "recovered canary policy authority"
    refuseIf (signer ∉ authorities ∨ signer ∈ recovered)
      (.signature "canary policy signature authority is unexpected or duplicated")
    recoverSigners recover digest authorities values (recovered ++ [signer])

def verifySignedCanaryPolicyV3 (sha256 : Bytes → Digest)
    (recover : Digest → Bytes → PolicyResult BytesOrObject)
    (document : SignedCanaryPolicyDocumentV3) (expectedAuthoritySigners : List BytesOrObject)
    (authorityThreshold : ℤ) : PolicyResult (List String) := do
  let authorities ← expectedAuthoritySigners.mapM fun value =>
    address value "expected canary policy authority"
  -- The set of the authorities is as long as the list when no address occurs twice.
  refuseIf (authorities = [] ∨ ¬ authorities.Nodup ∨
      ¬ (1 ≤ authorityThreshold ∧ authorityThreshold ≤ authorities.length))
    (.signature "canary policy authority set or threshold is invalid")
  let recovered ← recoverSigners recover (document.policy.digest sha256) authorities
    document.signatures []
  refuseIf ((recovered.length : ℤ) < authorityThreshold)
    (.signature "canary policy authority threshold was not met")
  return (sorted recovered).map fun value => "0x" ++ Hex.toText value

end Verathos.CanaryPolicy
