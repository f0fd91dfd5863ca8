import Verathos.ProofV3.SessionSafety

/-!
# Issuing a challenge session

A translation of the qualified profile and of the two factories of `session.py`: the constructor of
a session, and `_issue_with_entropy`, which may draw nonces until the tier of the request is the one
that was asked for.

The entropy is a stream: `nonceSource k` is what the call number `k` of `nonce_source` returns. The
registered adapter of a profile is known by its kind, and its own validation is a part of the
qualification that happens before any session.
-/

namespace Verathos.ProofV3

open PrefixCache (Constructed construct construct_eq_ok)

/-! ## Qualified profiles -/

/-- The type of a registered adapter. -/
inductive Registration where
  | folded
  | economic
deriving DecidableEq

/-- The fields of `QualifiedExecutionProfileV3`. -/
structure QualifiedProfileFields where
  profile : ExecutionSecurityProfile
  expectedStaticManifestDigest : Digest
  expectedExecutionProfileDigest : Digest
  registration : Registration
  verifiedSigners : List Bytes

/-- `_validate_qualification`, without the registration. -/
def QualifiedProfileFields.validateQualification (sha256 : Bytes → Digest)
    (qualified : QualifiedProfileFields) : Result Unit := do
  let profile := qualified.profile.val
  reject (profile.staticManifestDigest ≠ qualified.expectedStaticManifestDigest)
    "qualified profile has an unexpected static manifest"
  let profileDigest ← profile.digest sha256
  reject (profileDigest ≠ qualified.expectedExecutionProfileDigest)
    "qualified profile has an unexpected execution profile digest"
  if profile.proofSystemId = globalFoldedExecutionProofSystem then
    reject (qualified.registration ≠ .folded)
      "qualified profile has an unqualified folded adapter registration"
    profile.requireHardExecutionCapability
  else if profile.proofSystemId = economicRecomputeProofSystem then
    reject (qualified.registration ≠ .economic)
      "qualified profile has an unqualified economic adapter registration"
  else
    reject True "qualified profile selects an unsupported proof system"
  reject (qualified.verifiedSigners = [] ∨
      ¬ qualified.verifiedSigners.Pairwise (· < ·))
    "qualified profile signer set is not canonical"

/-- `QualifiedExecutionProfileV3`. -/
abbrev QualifiedExecutionProfile (sha256 : Bytes → Digest) :=
  Constructed (QualifiedProfileFields.validateQualification sha256)

/-! ## The factories -/

/-- `_fixed32(value, name, nonzero=True)`. -/
def fixed32Nonzero (value : Bytes) (name : String) : Result Digest :=
  if h : value.length = 32 then
    if value = Digest.zero.bytes then
      .error (verificationError (name ++ " must not be the zero digest"))
    else .ok ⟨value, h⟩
  else .error (verificationError (name ++ " must be exactly 32 bytes"))

/-- The budgets of a session. -/
structure SessionBudgets where
  proofArrivalBudgetNs : ℤ
  hardProofArrivalBudgetNs : ℤ
  nonceRevealHoldBudgetNs : Option ℤ

/-- `_arrival_budget_ns`, `_hard_arrival_budget_ns` and `_nonce_reveal_hold_budget_ns`. -/
def SessionBudgets.validate (budgets : SessionBudgets) : Result Unit := do
  reject (¬ (0 < budgets.proofArrivalBudgetNs ∧
      budgets.proofArrivalBudgetNs ≤ defaultProofArrivalBudgetNs))
    "proof_arrival_budget_ns must be between one nanosecond and one second"
  reject (¬ (0 < budgets.hardProofArrivalBudgetNs ∧
      budgets.hardProofArrivalBudgetNs ≤ 480000000000))
    "hard_proof_arrival_budget_ns must be between one nanosecond and eight minutes"
  reject (¬ budgets.nonceRevealHoldBudgetNs.all fun hold => 0 < hold ∧ hold ≤ 930000000000)
    "nonce_reveal_hold_budget_ns must be between one nanosecond and 930 seconds"

/-- A session as it is issued. -/
structure IssuedSession where
  config : SessionConfig
  nonce : Digest

section Issue

variable (sha256 : Bytes → Digest)

/-- `ProofV3ChallengeSession.__init__`. -/
def challengeSession (qualified : QualifiedExecutionProfile sha256)
    (precommitContext : PreExecutionRequestContext) (validatorNonce : Digest)
    (runtimePolicy : RuntimeHardAuditPolicy) (budgets : SessionBudgets) :
    Result IssuedSession := do
  qualified.val.validateQualification sha256
  let profile := qualified.val.profile
  let staticDigest := qualified.val.expectedStaticManifestDigest
  let profileDigest := qualified.val.expectedExecutionProfileDigest
  let nonce ← fixed32Nonzero validatorNonce.bytes "validator_nonce"
  budgets.validate
  profile.val.relationSpec.val.auditPolicy.val.validateRuntime runtimePolicy.val
  reject (profile.val.staticManifestDigest ≠ staticDigest)
    "execution profile has an unexpected static manifest"
  let actualDigest ← profile.val.digest sha256
  reject (actualDigest ≠ profileDigest)
    "execution profile was not selected by the validator catalog"
  reject (precommitContext.val.staticManifestDigest ≠ staticDigest)
    "precommit context has an unexpected static manifest"
  reject (precommitContext.val.executionProfileDigest ≠ profileDigest)
    "precommit context has an unexpected profile"
  let nonceContext ← precommitContext.val.nonceContextDigest sha256
  reject (precommitContext.val.validatorNonceCommitment ≠
      commitValidatorNonce sha256 nonce nonceContext)
    "validator nonce does not match the pre-request commitment"
  return {
    config := {
      profile := profile
      expectedStaticManifestDigest := staticDigest
      expectedExecutionProfileDigest := profileDigest
      precommitContext := precommitContext
      runtimePolicy := runtimePolicy
      precommitArrivalBudgetNs := budgets.proofArrivalBudgetNs
      hardProofArrivalBudgetNs := budgets.hardProofArrivalBudgetNs
      nonceRevealHoldBudgetNs := budgets.nonceRevealHoldBudgetNs }
    nonce := nonce }

/-- `_MAX_PAIRED_TIER_NONCE_ATTEMPTS_V3`. -/
def maxPairedTierNonceAttempts : ℕ := 4096

/-- What an attempt of the loop leaves: the nonce and the two contexts. -/
structure IssueAttempt where
  nonce : Digest
  publicContext : ValidatorExecutionRequestContext
  precommitContext : PreExecutionRequestContext

/-- The nonce of an attempt: the first one was drawn before the loop. -/
def attemptNonce (firstNonce : Digest) (nonceSource : ℕ → Bytes) (attempt : ℕ) : Result Digest :=
  if attempt = 0 then .ok firstNonce
  else fixed32Nonzero (nonceSource attempt) "validator_nonce"

/-- The contexts of one nonce. -/
def attemptContexts (qualified : QualifiedProfileFields) (request : LeasedRequest)
    (nonceContext nonce : Digest) : Result IssueAttempt := do
  let publicContext ← construct ValidatorRequestFields.postInit
    { request with
      validatorNonceCommitment := commitValidatorNonce sha256 nonce nonceContext }
  let precommitContext ← publicContext.val.derivePrecommitContext sha256
    qualified.expectedStaticManifestDigest qualified.expectedExecutionProfileDigest
  return { nonce, publicContext, precommitContext }

/-- The loop of `_issue_with_entropy`, with the attempts that remain and the number of the next
one. -/
def issueAttempts (qualified : QualifiedProfileFields) (request : LeasedRequest)
    (runtimePolicy : RuntimeHardAuditPolicy) (nonceContext firstNonce : Digest)
    (nonceSource : ℕ → Bytes) (expectedHardAudit : Option Bool) :
    ℕ → ℕ → Result IssueAttempt
  | 0, _ => .error
    (verificationError "unable to issue a validator nonce for the paired audit tier")
  | remaining + 1, attempt => do
    let nonce ← attemptNonce firstNonce nonceSource attempt
    let contexts ← attemptContexts sha256 qualified request nonceContext nonce
    match expectedHardAudit with
    | none => return contexts
    | some expected => do
      let precommitDigest ← contexts.precommitContext.val.digest sha256
      let draw ← auditTierDrawFromPrecommitContext sha256 nonce qualified.profile precommitDigest
        runtimePolicy runtimePolicy.val.effectiveHardBps
      if decide (draw < runtimePolicy.val.effectiveHardBps) = expected then
        return contexts
      else
        issueAttempts qualified request runtimePolicy nonceContext firstNonce nonceSource
          expectedHardAudit remaining (attempt + 1)

def issueWithEntropy (qualified : QualifiedExecutionProfile sha256) (request : RequestArguments)
    (runtimePolicy : RuntimeHardAuditPolicy) (budgets : SessionBudgets)
    (nonceSource : ℕ → Bytes) (cacheLeaseSource : Bytes) (expectedHardAudit : Option Bool) :
    Result (IssuedSession × ValidatorExecutionRequestContext) := do
  qualified.val.validateQualification sha256
  let firstNonce ← fixed32Nonzero (nonceSource 0) "validator_nonce"
  let cacheLeaseDigest ← fixed32Nonzero cacheLeaseSource "cache_lease_digest"
  reject (expectedHardAudit.isSome ∧ budgets.nonceRevealHoldBudgetNs.isNone)
    "paired tier conditioning requires a nonce-reveal hold budget"
  let leased : LeasedRequest := { request with cacheLeaseDigest }
  let nonceContext ← leased.nonceContextDigest sha256 qualified.val.expectedStaticManifestDigest
    qualified.val.expectedExecutionProfileDigest
  qualified.val.profile.val.relationSpec.val.auditPolicy.val.validateRuntime runtimePolicy.val
  let effectiveHardBps := runtimePolicy.val.effectiveHardBps
  reject (expectedHardAudit = some true ∧ effectiveHardBps = 0)
    "paired hard tier cannot use a zero-rate runtime policy"
  reject (expectedHardAudit = some false ∧ effectiveHardBps = 10000)
    "paired light tier cannot use an always-hard runtime policy"
  let contexts ← issueAttempts sha256 qualified.val leased runtimePolicy nonceContext firstNonce
    nonceSource expectedHardAudit maxPairedTierNonceAttempts 0
  let issued ← challengeSession sha256 qualified contexts.precommitContext contexts.nonce
    runtimePolicy budgets
  return (issued, contexts.publicContext)

end Issue

end Verathos.ProofV3
