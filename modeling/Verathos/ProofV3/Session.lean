import Verathos.Lib.Method
import Verathos.ProofV3.AuditTier

/-!
# The challenge session

A translation of `ProofV3ChallengeSession` of `session.py` and of the envelope check of
`verifier.py`.

* `SessionConfig` has the fields that are assigned once, `Session` the fields that the methods
  write. Every method runs under the lock of the session, except that a verification runs between
  two locked parts: `startVerification` gives what it captured, and `finishVerification` gets how it
  ended.
* The proof verifiers are a parameter, as is SHA-256. A time that is not an integer is treated by
  the code as a negative one is.
-/

namespace Verathos.ProofV3

open Method
open PrefixCache (Constructed construct construct_eq_ok nonzero32)

/-! ## The envelope check -/

/-- `EnvelopeBindingV3`. -/
structure EnvelopeBinding where
  profileDigest : Digest
  precommitContext : PreExecutionRequestContext
  requestBinding : ExecutionRequestBinding

/-- `raise ProofV3VerificationError(message)` under a condition. -/
def reject (condition : Prop) [Decidable condition] (message : String) : Result Unit :=
  raiseIf condition (.proofV3VerificationError message)

@[simp]
theorem reject_eq_ok {condition : Prop} [Decidable condition] {message : String} {u : Unit} :
    reject condition message = .ok u ↔ ¬ condition := raiseIf_eq_ok

/-- `validate_execution_envelope_against_precommit_v3`. -/
def validateExecutionEnvelopeAgainstPrecommit (sha256 : Bytes → Digest)
    (profile : ExecutionSecurityProfile) (envelope : ProofV3CommitmentEnvelope)
    (expectedStaticManifestDigest expectedExecutionProfileDigest : Digest)
    (precommitContext : PreExecutionRequestContext) (outputBinding : ExecutionOutputBinding)
    (capabilityRequirement : ProfileFields → Result Unit) (allowUnverifiedContext : Bool) :
    Result EnvelopeBinding := do
  capabilityRequirement profile.val
  let contextCount := precommitContext.val.contextTokenCount
  let decodeCount := outputBinding.val.decodeTokenCount
  let contextIsQualified := contextCount ≤ profile.val.maxVerifiedContextTokens
  reject (¬ contextIsQualified ∧ allowUnverifiedContext = false)
    "context length exceeds signed profile limit"
  reject (decodeCount > profile.val.maxVerifiedDecodeTokens)
    "decode length exceeds signed profile limit"
  reject (contextIsQualified ∧
      ¬ Accepts (profile.val.relationSpec.val.validateExecutionCounts contextCount decodeCount))
    "request/output token counts do not satisfy the signed sequence domain"
  let profileDigest ← profile.val.digest sha256
  reject (profileDigest ≠ expectedExecutionProfileDigest)
    "execution profile was not selected by the validator catalog"
  reject (profile.val.staticManifestDigest ≠ expectedStaticManifestDigest)
    "execution profile has an unexpected static manifest"
  reject (precommitContext.val.staticManifestDigest ≠ expectedStaticManifestDigest)
    "precommit context has an unexpected static manifest"
  reject (precommitContext.val.executionProfileDigest ≠ profileDigest)
    "precommit context has an unexpected profile"
  reject (envelope.val.staticManifestDigest ≠ expectedStaticManifestDigest)
    "commitment envelope has an unexpected static manifest"
  reject (envelope.val.executionProfileDigest ≠ profileDigest)
    "commitment envelope has an unexpected profile"
  let requestBinding ← bindOutput sha256 precommitContext outputBinding
  let precommitContextDigest ← precommitContext.val.digest sha256
  reject (envelope.val.precommitContextDigest ≠ precommitContextDigest)
    "commitment envelope has an unexpected validator precommit context"
  reject (envelope.val.promptTokenRoot ≠ precommitContext.val.promptTokenRoot)
    "commitment envelope has an unexpected prompt root"
  reject (envelope.val.samplerConfigDigest ≠ precommitContext.val.samplerConfigDigest)
    "commitment envelope has an unexpected sampler configuration"
  reject (envelope.val.cacheLeaseDigest ≠ precommitContext.val.cacheLeaseDigest)
    "commitment envelope has an unexpected validator cache lease"
  reject (envelope.val.outputTokenRoot ≠ outputBinding.val.outputTokenRoot)
    "commitment envelope has an unexpected token root"
  reject (envelope.val.outputStreamDigest ≠ outputBinding.val.outputStreamDigest)
    "commitment envelope has an unexpected stream"
  reject (envelope.val.requestDigest ≠ requestBinding.requestDigest)
    "commitment envelope has an unexpected validator request"
  reject (envelope.val.contextTokenCount ≠ contextCount)
    "commitment envelope has an unexpected validator context length"
  reject (envelope.val.decodeTokenCount ≠ decodeCount)
    "commitment envelope has an unexpected validator decode length"
  return { profileDigest, precommitContext, requestBinding }

/-- What an accepted envelope satisfies: it is bound to the profile and to the precommit context. -/
theorem validateExecutionEnvelope_spec {sha256 : Bytes → Digest}
    {profile : ExecutionSecurityProfile} {envelope : ProofV3CommitmentEnvelope}
    {expectedStaticManifestDigest expectedExecutionProfileDigest : Digest}
    {precommitContext : PreExecutionRequestContext} {outputBinding : ExecutionOutputBinding}
    {capabilityRequirement : ProfileFields → Result Unit} {allowUnverifiedContext : Bool}
    {binding : EnvelopeBinding}
    (h : validateExecutionEnvelopeAgainstPrecommit sha256 profile envelope
      expectedStaticManifestDigest expectedExecutionProfileDigest precommitContext outputBinding
      capabilityRequirement allowUnverifiedContext = .ok binding) :
    profile.val.digest sha256 = .ok envelope.val.executionProfileDigest ∧
      envelope.val.staticManifestDigest = profile.val.staticManifestDigest ∧
      precommitContext.val.digest sha256 = .ok envelope.val.precommitContextDigest := by
  simp only [validateExecutionEnvelopeAgainstPrecommit, bind_eq_ok, reject_eq_ok, exists_const,
    not_not] at h
  obtain ⟨-, -, -, -, -, profileDigest, hprofile, -, hstatic, -, -, henvelopeStatic,
    henvelopeProfile, -, -, precommitContextDigest, hprecommit, henvelopePrecommit, -⟩ := h
  exact ⟨hprofile.trans (congrArg _ henvelopeProfile.symm), henvelopeStatic.trans hstatic.symm,
    hprecommit.trans (congrArg _ henvelopePrecommit.symm)⟩

/-! ## The session -/

/-- `ChallengeSessionStateV3`. -/
inductive SessionState where
  | awaitingPrecommit
  | precommitAccepted
  | hardSelected
  | nonceRevealed
  | lightRevealed
  | verifying
  | verified
  | failed
  | expired
  | aborted
deriving DecidableEq

def terminalStates : List SessionState := [.lightRevealed, .verified, .failed, .expired, .aborted]

/-- The fields of a `ProofV3ChallengeSession` that are assigned once. -/
structure SessionConfig where
  profile : ExecutionSecurityProfile
  expectedStaticManifestDigest : Digest
  expectedExecutionProfileDigest : Digest
  precommitContext : PreExecutionRequestContext
  runtimePolicy : RuntimeHardAuditPolicy
  precommitArrivalBudgetNs : ℤ
  hardProofArrivalBudgetNs : ℤ
  nonceRevealHoldBudgetNs : Option ℤ

/-- The fields of a `ProofV3ChallengeSession` that its methods write. -/
structure Session where
  nonce : Option Digest
  binding : Option EnvelopeBinding := none
  auditDecision : Option PostCommitAuditDecision := none
  envelope : Option ProofV3CommitmentEnvelope := none
  deadlineMonotonicNs : Option ℤ := none
  precommitReceivedMonotonicNs : Option ℤ := none
  nonceRevealedMonotonicNs : Option ℤ := none
  tierSelectedMonotonicNs : Option ℤ := none
  verifiedCaptureChainDigest : Option Bytes := none
  state : SessionState := .awaitingPrecommit

/-- The fields of `NonceRevealV3`. -/
structure NonceRevealFields where
  proofChallengeId : Digest
  precommitContextDigest : Digest
  executionProfileDigest : Digest
  cacheLeaseDigest : Digest
  commitmentEnvelopeDigest : Digest
  validatorNonce : Digest
  auditDecision : PostCommitAuditDecision

def NonceRevealFields.postInit (reveal : NonceRevealFields) : Result Unit := do
  nonzero32 reveal.cacheLeaseDigest "cache_lease_digest"
  nonzero32 reveal.validatorNonce "validator_nonce"
  reject (reveal.auditDecision.val.commitmentEnvelopeDigest ≠ reveal.commitmentEnvelopeDigest)
    "nonce reveal audit decision has an unexpected envelope"

/-- `NonceRevealV3`. -/
abbrev NonceReveal := Constructed NonceRevealFields.postInit

/-- What a verification captures when it starts. -/
structure Verification where
  encodedProof : Bytes
  validatorRequestContext : Option ValidatorExecutionRequestContext
  observedOutput : Option ObservedExecutionOutput
  envelope : ProofV3CommitmentEnvelope
  binding : EnvelopeBinding
  nonce : Digest
  auditDecision : PostCommitAuditDecision

/-- The functions that the session calls and that stay parameters. -/
structure Functions where
  sha256 : Bytes → Digest
  nfc : String → String
  /-- The verifier of the proof system: the capture chain digest, if there is one. -/
  verify : SessionConfig → Verification → Result (Option Bytes)

/-- A method of a session. -/
abbrev SessionMethod := EStateM PyError Session

/-- `raise ProofV3VerificationError(message)`. -/
def verificationError (message : String) : PyError := .proofV3VerificationError message

def monotonicNs (value : ℤ) (name : String) : Result Unit :=
  reject (value < 0) (name ++ " must be a monotonic nanosecond value")

def Session.failLocked (s : Session) (state : SessionState) : Session :=
  { s with
    state
    nonce := none
    binding := none
    auditDecision := none
    envelope := none
    precommitReceivedMonotonicNs := none
    nonceRevealedMonotonicNs := none
    tierSelectedMonotonicNs := none
    verifiedCaptureChainDigest := none }

def requireArrivalBeforeDeadlineLocked (receivedMonotonicNs : ℤ) : SessionMethod Unit := do
  call (monotonicNs receivedMonotonicNs "received_monotonic_ns")
  let s ← get
  let late := match s.deadlineMonotonicNs with
    | none => true
    | some deadline => decide (receivedMonotonicNs > deadline)
  if late then
    modify fun s => s.failLocked .expired
    throw (verificationError "proof-v3 response arrived after its deadline")

/-- `except ProofV3VerificationError: …; raise`: the session fails, unless it just expired. -/
def failUnlessExpired {α : Type} (error : PyError) : SessionMethod α := do
  modify fun s => if s.state ≠ .expired then s.failLocked .failed else s
  throw error

/-- `except Exception as exc: …; raise error from exc`. -/
def failWith {α : Type} (error : PyError) : SessionMethod α := do
  modify fun s => s.failLocked .failed
  throw error

/-- The exception of a failed `assert`. -/
def assertionError : PyError := .builtin "AssertionError"

/-- `if deadline >= 1 << 63: self._fail_locked(state=FAILED); raise error`. -/
def failOnOverflow (deadline : ℤ) (error : PyError) : SessionMethod Unit :=
  if deadline ≥ 2 ^ 63 then failWith error else pure ()

/-- `assert field is not None`, which gives the field. -/
def required {α : Type} (field : Option α) : Result α :=
  match field with
  | some value => .ok value
  | none => .error assertionError

section Methods

variable (functions : Functions) (config : SessionConfig)

/-- The checks of `accept_precommit_bytes` on an envelope that arrived in time. -/
def checkEnvelope (encodedEnvelope : Bytes) (observedOutput : Option ObservedExecutionOutput) :
    Result (ProofV3CommitmentEnvelope × EnvelopeBinding) := do
  let envelope ← commitmentEnvelopeFromBytes encodedEnvelope
  match observedOutput with
  | none => throw (verificationError "observed_output has an unexpected type")
  | some observedOutput => do
    let capabilityRequirement :=
      if config.profile.val.proofSystemId = economicRecomputeProofSystem then
        ProfileFields.requireEconomicRecomputeCapability
      else ProfileFields.requireHardExecutionCapability
    let unverifiedContext := decide (config.precommitContext.val.contextTokenCount >
      config.profile.val.maxVerifiedContextTokens)
    reject (unverifiedContext = true ∧ config.runtimePolicy.val.effectiveHardBps ≠ 0)
      "context above the signed hard-proof ceiling requires a light-only runtime policy"
    let outputBinding ← observedOutput.deriveOutputBinding functions.sha256 functions.nfc
    let binding ← validateExecutionEnvelopeAgainstPrecommit functions.sha256 config.profile envelope
      config.expectedStaticManifestDigest config.expectedExecutionProfileDigest
      config.precommitContext outputBinding capabilityRequirement unverifiedContext
    return (envelope, binding)

/-- The `try` block of `accept_precommit_bytes`. -/
def acceptPrecommitBody (encodedEnvelope : Bytes)
    (observedOutput : Option ObservedExecutionOutput)
    (lastVisibleTokenMonotonicNs receivedMonotonicNs : ℤ) :
    SessionMethod (ProofV3CommitmentEnvelope × EnvelopeBinding) := do
  call (monotonicNs lastVisibleTokenMonotonicNs "last_visible_token_monotonic_ns")
  let deadline := lastVisibleTokenMonotonicNs + config.precommitArrivalBudgetNs
  check (deadline ≥ 2 ^ 63) (verificationError "proof-v3 arrival deadline overflows")
  modify fun s => { s with deadlineMonotonicNs := some deadline }
  requireArrivalBeforeDeadlineLocked receivedMonotonicNs
  check (receivedMonotonicNs < lastVisibleTokenMonotonicNs)
    (verificationError "proof-v3 precommit envelope arrived before the last visible token")
  call (checkEnvelope functions config encodedEnvelope observedOutput)

/-- The two `except` clauses of `accept_precommit_bytes`. -/
def acceptPrecommitHandler {α : Type} (error : PyError) : SessionMethod α :=
  match error with
  | .proofV3VerificationError _ => failUnlessExpired error
  | _ => failWith
    (verificationError "proof-v3 precommit envelope is malformed or mismatched")

def acceptPrecommitBytes (encodedEnvelope : Bytes)
    (observedOutput : Option ObservedExecutionOutput)
    (lastVisibleTokenMonotonicNs receivedMonotonicNs : ℤ) : SessionMethod Unit := do
  let s ← get
  check (s.state ≠ .awaitingPrecommit)
    (verificationError "proof-v3 session does not accept another precommit envelope")
  let (envelope, binding) ← tryCatch
    (acceptPrecommitBody functions config encodedEnvelope observedOutput
      lastVisibleTokenMonotonicNs receivedMonotonicNs)
    acceptPrecommitHandler
  modify fun s =>
    { s with
      envelope := some envelope
      binding := some binding
      precommitReceivedMonotonicNs := some receivedMonotonicNs
      state := .precommitAccepted }

/-- `DEFAULT_PROOF_ARRIVAL_BUDGET_NS_V3`. -/
def defaultProofArrivalBudgetNs : ℤ := 1000000000

/-- The first `try` block of `_select_audit_tier_locked`. -/
def selectAuditTierBody (selectedMonotonicNs : ℤ) : SessionMethod Unit := do
  call (monotonicNs selectedMonotonicNs "selected_monotonic_ns")
  let s ← get
  check (s.precommitReceivedMonotonicNs.all fun received => selectedMonotonicNs < received)
    (verificationError
      "proof-v3 audit tier was selected before its accepted precommit envelope")

/-- The deadline of the nonce reveal: the hold budget after the arrival of the envelope, or else a
window of its own after the choice. -/
def setRevealDeadline (selectedMonotonicNs : ℤ) : SessionMethod Unit :=
  match config.nonceRevealHoldBudgetNs with
  | some hold => do
    let s ← get
    let received ← call (required s.precommitReceivedMonotonicNs)
    let holdDeadline := received + hold
    failOnOverflow holdDeadline
      (verificationError "proof-v3 nonce-reveal hold deadline overflows")
    modify fun s => { s with deadlineMonotonicNs := some holdDeadline }
    requireArrivalBeforeDeadlineLocked selectedMonotonicNs
  | none => do
    let revealDeadline := selectedMonotonicNs + defaultProofArrivalBudgetNs
    failOnOverflow revealDeadline
      (verificationError "proof-v3 local nonce-reveal deadline overflows")
    modify fun s => { s with deadlineMonotonicNs := some revealDeadline }

def selectAuditTierLocked (selectedMonotonicNs : ℤ) : SessionMethod PostCommitAuditDecision := do
  let s ← get
  check (s.state ≠ .precommitAccepted)
    (verificationError "proof-v3 session has no accepted precommit to select")
  tryCatch (selectAuditTierBody selectedMonotonicNs) failUnlessExpired
  let envelope ← call (required s.envelope)
  let nonce ← call (required s.nonce)
  let decision ← tryCatch
    (call (derivePostcommitAuditDecision functions.sha256 nonce config.profile envelope
      config.runtimePolicy))
    fun _ => failWith (verificationError "proof-v3 postcommit audit decision is malformed")
  if decision.val.hardAuditSelected = false then
    modify fun s => s.failLocked .lightRevealed
    return decision
  modify fun s =>
    { s with
      auditDecision := some decision
      tierSelectedMonotonicNs := some selectedMonotonicNs }
  setRevealDeadline config selectedMonotonicNs
  modify fun s => { s with state := .hardSelected }
  return decision

/-- The decision of `reveal_nonce_once`: a selected one, or the one that was selected before. -/
def decisionToReveal (revealedMonotonicNs : ℤ) : SessionMethod Unit := do
  let s ← get
  if s.state = .precommitAccepted then
    let decision ← selectAuditTierLocked functions config revealedMonotonicNs
    check (decision.val.hardAuditSelected = false)
      (verificationError "proof-v3 light decision does not reveal validator nonce")
  else
    check (s.state ≠ .hardSelected ∨ s.auditDecision.isNone)
      (verificationError "proof-v3 session has no hard decision to reveal")

/-- The first `try` block of `reveal_nonce_once`. -/
def revealNonceBody (revealedMonotonicNs : ℤ) : SessionMethod Unit := do
  requireArrivalBeforeDeadlineLocked revealedMonotonicNs
  let s ← get
  check ((s.precommitReceivedMonotonicNs.all fun received => revealedMonotonicNs < received) ∨
      s.tierSelectedMonotonicNs.all fun selected => revealedMonotonicNs < selected)
    (verificationError "proof-v3 nonce was revealed before its accepted precommit envelope")

/-- The reveal of a nonce. -/
def nonceReveal (envelope : ProofV3CommitmentEnvelope) (nonce : Digest)
    (decision : PostCommitAuditDecision) : Result NonceReveal := do
  let precommitContextDigest ← config.precommitContext.val.digest functions.sha256
  construct NonceRevealFields.postInit {
    proofChallengeId := config.precommitContext.val.proofChallengeId
    precommitContextDigest := precommitContextDigest
    executionProfileDigest := config.expectedExecutionProfileDigest
    cacheLeaseDigest := config.precommitContext.val.cacheLeaseDigest
    commitmentEnvelopeDigest := envelope.val.digest functions.sha256
    validatorNonce := nonce
    auditDecision := decision }

/-- `reveal_nonce_once`, after its decision. -/
def revealSelected (revealedMonotonicNs : ℤ) : SessionMethod NonceReveal := do
  tryCatch (revealNonceBody revealedMonotonicNs) failUnlessExpired
  let s ← get
  let envelope ← call (required s.envelope)
  let nonce ← call (required s.nonce)
  let decision ← call (required s.auditDecision)
  let reveal ← tryCatch (call (nonceReveal functions config envelope nonce decision))
    fun _ => failWith (verificationError "proof-v3 postcommit nonce reveal is malformed")
  let proofDeadline := revealedMonotonicNs + config.hardProofArrivalBudgetNs
  failOnOverflow proofDeadline (verificationError "proof-v3 hard proof deadline overflows")
  modify fun s =>
    { s with
      nonceRevealedMonotonicNs := some revealedMonotonicNs
      deadlineMonotonicNs := some proofDeadline
      state := .nonceRevealed }
  return reveal

def revealNonceOnce (revealedMonotonicNs : ℤ) : SessionMethod NonceReveal := do
  decisionToReveal functions config revealedMonotonicNs
  revealSelected functions config revealedMonotonicNs

/-- The `try` block of the first part of `verify_proof_bytes_once`. -/
def startVerificationBody (receivedMonotonicNs : ℤ) : SessionMethod Unit := do
  requireArrivalBeforeDeadlineLocked receivedMonotonicNs
  let s ← get
  check (s.nonceRevealedMonotonicNs.all fun revealed => receivedMonotonicNs < revealed)
    (verificationError "proof-v3 proof arrived before its nonce reveal")

/-- The first locked part of `verify_proof_bytes_once`. -/
def startVerification (encodedProof : Bytes) (receivedMonotonicNs : ℤ)
    (validatorRequestContext : Option ValidatorExecutionRequestContext)
    (observedOutput : Option ObservedExecutionOutput) : SessionMethod Verification := do
  let s ← get
  check (s.state = .lightRevealed)
    (verificationError "proof-v3 light decision does not accept a hard proof")
  check (s.state ≠ .nonceRevealed)
    (verificationError "proof-v3 session does not accept another proof")
  tryCatch (startVerificationBody receivedMonotonicNs) failUnlessExpired
  let envelope ← call (required s.envelope)
  let binding ← call (required s.binding)
  let nonce ← call (required s.nonce)
  let auditDecision ← call (required s.auditDecision)
  modify fun s => { s with state := .verifying }
  return {
    encodedProof := encodedProof
    validatorRequestContext := validatorRequestContext
    observedOutput := observedOutput
    envelope := envelope
    binding := binding
    nonce := nonce
    auditDecision := auditDecision }

/-- The rest of `verify_proof_bytes_once`. -/
def finishVerification (verification : Verification) : SessionMethod Unit := do
  match functions.verify config verification with
  | .error error => do
    modify fun s => if s.state = .verifying then s.failLocked .failed else s
    throw error
  | .ok verifiedCaptureChainDigest => do
    let s ← get
    check (s.state ≠ .verifying)
      (verificationError "proof-v3 session terminated while verification was running")
    modify fun s =>
      { s.failLocked .verified with
        verifiedCaptureChainDigest }

def expire (nowMonotonicNs : ℤ) : SessionMethod Unit := do
  let s ← get
  if s.state ∈ terminalStates then
    return
  call (monotonicNs nowMonotonicNs "now_monotonic_ns")
  if s.deadlineMonotonicNs.all fun deadline => nowMonotonicNs ≤ deadline then
    return
  modify fun s => s.failLocked .expired

def failClosed : SessionMethod Unit :=
  modify fun s => if s.state ∈ terminalStates then s else s.failLocked .failed

def abort : SessionMethod Unit :=
  modify fun s => if s.state ∈ terminalStates then s else s.failLocked .aborted

end Methods

end Verathos.ProofV3
