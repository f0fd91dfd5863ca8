import Verathos.ProofV3.Issue
import Verathos.ProofV3.Reveal

/-!
# The retained hard bundle

A translation of `hard_bundle.py`: the bundle with its constructor, its frame, the runtime policy
that is rebuilt from a reveal, and the replay of an audit.

SHA-256, Unicode normalisation and the economic proof system are parameters. The last one stands for
`decode_economic_proof_transport_v3`, the capture chain of a decoded proof and
`verify_economic_execution_proof_v3`.
-/

namespace Verathos.ProofV3

open ByteReader
open PrefixCache (Constructed construct construct_eq_ok packI)
open Receipts (utf8)

/-! ## The bundle -/

/-- `MAX_HARD_BUNDLE_BYTES_V3`. -/
def maxHardBundleBytes : ℕ := 64 * 2 ^ 20

/-- `MAX_HARD_BUNDLE_TOKEN_IDS_V3`. -/
def maxHardBundleTokenIds : ℕ := 2 ^ 20

/-- `MAX_OUTPUT_STREAM_BYTES_V3`. -/
def maxOutputStreamBytes : ℕ := 16 * 2 ^ 20

/-- `MAX_FINISH_REASON_BYTES_V3`. -/
def maxFinishReasonBytes : ℕ := 256

def maxEconomicTransportBytes : ℕ := 32 * 2 ^ 20

/-- `_token_ids(values, name, positive=True)`. -/
def bundleTokenIds (values : List ℕ) (name : String) : Result Unit := do
  reject (values.length > maxHardBundleTokenIds ∨ values.length = 0)
    (name ++ " count is out of range")
  values.zipIdx.forM fun (value, index) =>
    reject (¬ value < 2 ^ 32) (name ++ "[" ++ toString index ++ "] is not a uint32 token id")

/-- The fields of `RetainedHardProofBundleV3`. -/
structure HardBundleFields where
  precommitContext : PreExecutionRequestContext
  promptTokenIds : List ℕ
  observedOutput : ObservedExecutionOutput
  envelope : ProofV3CommitmentEnvelope
  nonceReveal : NonceReveal
  encodedProof : Bytes

def HardBundleFields.postInit (sha256 : Bytes → Digest) (nfc : String → String)
    (bundle : HardBundleFields) : Result Unit := do
  let reveal := bundle.nonceReveal.val
  bundleTokenIds bundle.promptTokenIds "prompt_token_ids"
  bundleTokenIds bundle.observedOutput.outputTokenIds "output_token_ids"
  reject (bundle.observedOutput.emittedTextUtf8.length > maxOutputStreamBytes)
    "retained hard bundle output text is out of range"
  let finishBytes := utf8 bundle.observedOutput.finishReason
  reject (¬ (0 < finishBytes.length ∧ finishBytes.length ≤ maxFinishReasonBytes))
    "retained hard bundle finish reason is out of range"
  reject (bundle.encodedProof = [] ∨ bundle.encodedProof.length > maxEconomicTransportBytes)
    "retained hard bundle proof bytes are out of range"
  reject (bundle.precommitContext.val.contextTokenCount ≠ bundle.promptTokenIds.length)
    "retained hard bundle prompt count does not match precommit"
  reject (bundle.envelope.val.digest sha256 ≠ reveal.commitmentEnvelopeDigest)
    "retained hard bundle reveal does not match the envelope"
  let precommitDigest ← bundle.precommitContext.val.digest sha256
  reject (bundle.precommitContext.val.proofChallengeId ≠ reveal.proofChallengeId ∨
      precommitDigest ≠ reveal.precommitContextDigest ∨
      bundle.precommitContext.val.executionProfileDigest ≠ reveal.executionProfileDigest ∨
      bundle.precommitContext.val.cacheLeaseDigest ≠ reveal.cacheLeaseDigest)
    "retained hard bundle public contexts do not match"
  reject (reveal.auditDecision.val.hardAuditSelected = false)
    "retained hard bundle does not carry a hard decision"
  let outputBinding ← bundle.observedOutput.deriveOutputBinding sha256 nfc
  reject (bundle.envelope.val.outputTokenRoot ≠ outputBinding.val.outputTokenRoot ∨
      bundle.envelope.val.outputStreamDigest ≠ outputBinding.val.outputStreamDigest ∨
      bundle.envelope.val.decodeTokenCount ≠ outputBinding.val.decodeTokenCount)
    "retained hard bundle output does not match the envelope"

/-- `RetainedHardProofBundleV3`. -/
abbrev RetainedHardProofBundle (sha256 : Bytes → Digest) (nfc : String → String) :=
  Constructed (HardBundleFields.postInit sha256 nfc)

def HardBundleFields.validatorRequestContext (bundle : HardBundleFields) :
    Result ValidatorExecutionRequestContext :=
  construct ValidatorRequestFields.postInit {
    proofChallengeId := bundle.precommitContext.val.proofChallengeId
    validatorIdentityDigest := bundle.precommitContext.val.validatorIdentityDigest
    minerIdentityDigest := bundle.precommitContext.val.minerIdentityDigest
    validatorNonceCommitment := bundle.precommitContext.val.validatorNonceCommitment
    promptTokenIds := bundle.promptTokenIds
    cacheLeaseDigest := bundle.precommitContext.val.cacheLeaseDigest
    samplerConfigDigest := bundle.precommitContext.val.samplerConfigDigest }

/-! ## The frame -/

/-- `_HEADER.size`. -/
def bundleHeaderSize : ℕ := 40

/-- The lengths in the header of a bundle. -/
structure BundleLengths where
  precommitLen : ℕ
  envelopeLen : ℕ
  revealLen : ℕ
  promptCount : ℕ
  outputCount : ℕ
  textLen : ℕ
  finishLen : ℕ
  proofLen : ℕ

/-- `_HEADER.pack(…)`. -/
def BundleLengths.header (lengths : BundleLengths) : Bytes :=
  asciiBytes "V3HB" ++ (LittleEndian.toBytes 2 1 ++ (LittleEndian.toBytes 2 0 ++
    (packI lengths.precommitLen ++ (packI lengths.envelopeLen ++ (packI lengths.revealLen ++
    (packI lengths.promptCount ++ (packI lengths.outputCount ++ (packI lengths.textLen ++
    (packI lengths.finishLen ++ packI lengths.proofLen)))))))))

/-- `canonical_bytes`. The lengths of a constructed bundle fit their fields. -/
def HardBundleFields.canonicalBytes (bundle : HardBundleFields) : Result Bytes := do
  let precommit := bundle.precommitContext.val.canonicalBytes
  let envelope := bundle.envelope.val.canonicalBytes
  let reveal ← bundle.nonceReveal.val.canonicalBytes
  let text := bundle.observedOutput.emittedTextUtf8
  let finish := utf8 bundle.observedOutput.finishReason
  let lengths : BundleLengths := {
    precommitLen := precommit.length
    envelopeLen := envelope.length
    revealLen := reveal.length
    promptCount := bundle.promptTokenIds.length
    outputCount := bundle.observedOutput.outputTokenIds.length
    textLen := text.length
    finishLen := finish.length
    proofLen := bundle.encodedProof.length }
  let encoded := lengths.header ++ (precommit ++ (envelope ++ (reveal ++
    (bundle.promptTokenIds.flatMap packI ++ (bundle.observedOutput.outputTokenIds.flatMap packI ++
    (text ++ (finish ++ bundle.encodedProof)))))))
  reject (encoded.length > maxHardBundleBytes) "retained hard bundle exceeds its byte limit"
  return encoded

/-- `_HEADER.unpack_from(encoded)` with the check of the constants. -/
def readBundleHeader : Reader PyError BundleLengths := do
  let magic ← upTo 4
  let version ← takeUnsigned 2
  let flags ← takeUnsigned 2
  let precommitLen ← takeUnsigned 4
  let envelopeLen ← takeUnsigned 4
  let revealLen ← takeUnsigned 4
  let promptCount ← takeUnsigned 4
  let outputCount ← takeUnsigned 4
  let textLen ← takeUnsigned 4
  let finishLen ← takeUnsigned 4
  let proofLen ← takeUnsigned 4
  liftM (reject (magic ≠ asciiBytes "V3HB" ∨ version ≠ 1 ∨ flags ≠ 0)
    "retained hard bundle header is unsupported")
  return ⟨precommitLen, envelopeLen, revealLen, promptCount, outputCount, textLen, finishLen,
    proofLen⟩

/-- The check of the declared lengths. -/
def BundleLengths.check (lengths : BundleLengths) : Result Unit :=
  reject (lengths.promptCount = 0 ∨ lengths.outputCount = 0 ∨
      lengths.promptCount > maxHardBundleTokenIds ∨ lengths.outputCount > maxHardBundleTokenIds ∨
      lengths.textLen > maxOutputStreamBytes ∨
      ¬ (0 < lengths.finishLen ∧ lengths.finishLen ≤ maxFinishReasonBytes) ∨
      ¬ (0 < lengths.proofLen ∧ lengths.proofLen ≤ maxEconomicTransportBytes) ∨
      ¬ (0 < lengths.revealLen ∧ lengths.revealLen ≤ maxNonceRevealBytes))
    "retained hard bundle declared lengths are out of range"

def BundleLengths.total (lengths : BundleLengths) : ℕ :=
  bundleHeaderSize + lengths.precommitLen + lengths.envelopeLen + lengths.revealLen +
    4 * lengths.promptCount + 4 * lengths.outputCount + lengths.textLen + lengths.finishLen +
    lengths.proofLen

/-- `take(finish_len).decode("utf-8")`. -/
def decodeFinishReason (encoded : Bytes) : Result String :=
  match String.fromUTF8? ⟨encoded.toArray⟩ with
  | some text => .ok text
  | none => .error (verificationError "retained hard bundle finish reason is not UTF-8")

/-- The fields after the header, in order. -/
def readBundleFields (lengths : BundleLengths) : Reader PyError HardBundleFields := do
  let precommit ← upTo lengths.precommitLen
  let precommitContext ← liftM (precommitContextFromBytes precommit)
  let envelopeBytes ← upTo lengths.envelopeLen
  let envelope ← liftM (commitmentEnvelopeFromBytes envelopeBytes)
  let reveal ← upTo lengths.revealLen
  let nonceReveal ← liftM (nonceRevealFromBytes reveal)
  let promptTokenIds ← times (takeUnsigned 4) lengths.promptCount
  let outputTokenIds ← times (takeUnsigned 4) lengths.outputCount
  let emittedTextUtf8 ← upTo lengths.textLen
  let finish ← upTo lengths.finishLen
  let finishReason ← liftM (decodeFinishReason finish)
  let encodedProof ← upTo lengths.proofLen
  return {
    precommitContext
    promptTokenIds
    observedOutput := { outputTokenIds, emittedTextUtf8, finishReason }
    envelope
    nonceReveal
    encodedProof }

section Hash

variable (sha256 : Bytes → Digest) (nfc : String → String)

/-- `from_canonical_bytes`. -/
def hardBundleFromBytes (encoded : Bytes) : Result (RetainedHardProofBundle sha256 nfc) := do
  reject (encoded.length < bundleHeaderSize ∨ encoded.length > maxHardBundleBytes)
    "retained hard bundle byte length is out of range"
  let (lengths, body) ← readBundleHeader.run encoded
  lengths.check
  reject (lengths.total ≠ encoded.length) "retained hard bundle length is inconsistent"
  let (fields, rest) ← (readBundleFields lengths).run body
  reject (rest ≠ []) "retained hard bundle has trailing bytes"
  let result ← construct (HardBundleFields.postInit sha256 nfc) fields
  let canonical ← result.val.canonicalBytes
  reject (canonical ≠ encoded) "retained hard bundle is not canonical"
  return result

/-! ## The replay -/

/-- The fields of the policy that `runtime_policy_from_nonce_reveal_v3` constructs: the rate of the
decision for the kind of the decision, and the signed minimum for the other kind. -/
def rebuiltPolicyFields (signed : HardAuditPolicyFields) (decision : AuditDecisionFields) :
    RuntimePolicyFields where
  requestKind := decision.requestKind
  effectiveOrganicHardBps := match decision.requestKind with
    | .organic => decision.effectiveHardBps
    | .canary => signed.minimumOrganicHardBps
  effectiveCanaryHardBps := match decision.requestKind with
    | .organic => signed.minimumCanaryHardBps
    | .canary => decision.effectiveHardBps
  effectiveProbationFailures := signed.probationFailures
  nonceSelectionAbiId := signed.nonceSelectionAbiId
  tierSelectionAbiId := signed.tierSelectionAbiId
  selectionAbiId := signed.selectionAbiId

/-- `runtime_policy_from_nonce_reveal_v3`. -/
def runtimePolicyFromNonceReveal (profile : ExecutionSecurityProfile) (reveal : NonceReveal) :
    Result RuntimeHardAuditPolicy := do
  let signed := profile.val.relationSpec.val.auditPolicy.val
  let policy ← construct RuntimePolicyFields.postInit
    (rebuiltPolicyFields signed reveal.val.auditDecision.val)
  signed.validateRuntime policy.val
  return policy

/-- What the economic verifier is called with, besides the decoded proof. -/
structure EconomicArguments where
  qualified : QualifiedProfileFields
  envelope : ProofV3CommitmentEnvelope
  validatorNonce : Digest
  validatorRequestContext : ValidatorExecutionRequestContext
  observedOutput : ObservedExecutionOutput
  runtimePolicy : RuntimeHardAuditPolicy
  auditDecision : PostCommitAuditDecision

/-- The economic proof system: the transport, the capture chain and the verifier. -/
structure EconomicProofSystem (Proof Outcome : Type) where
  decode : Bytes → Result Proof
  captureChainDigest : Proof → Bytes
  verify : EconomicArguments → Proof → Result Outcome

/-- `except ProofV3Error: raise` and `except Exception: raise error`. -/
def exceptMalformedTransport {α : Type} : Result α → Result α
  | .error (.builtin _) =>
    .error (verificationError "retained hard bundle proof transport is malformed")
  | result => result

/-- What the caller of the replay expects. -/
structure ReplayExpectation where
  validatorIdentityDigest : Bytes
  minerIdentityDigest : Bytes
  commitmentEnvelopeDigest : Option Bytes
  captureChainDigest : Option Bytes

def fixed32 (value : Bytes) (name : String) : Result Digest :=
  if h : value.length = 32 then .ok ⟨value, h⟩
  else .error (verificationError (name ++ " must be exactly 32 bytes"))

/-- The checks of the identities and of the expected envelope. -/
def checkExpectation (bundle : HardBundleFields) (expected : ReplayExpectation) : Result Unit := do
  let validatorIdentity ← fixed32Nonzero expected.validatorIdentityDigest
    "expected_validator_identity_digest"
  let minerIdentity ← fixed32Nonzero expected.minerIdentityDigest "expected_miner_identity_digest"
  reject (bundle.precommitContext.val.validatorIdentityDigest ≠ validatorIdentity)
    "retained hard bundle belongs to another validator"
  reject (bundle.precommitContext.val.minerIdentityDigest ≠ minerIdentity)
    "retained hard bundle belongs to another miner"
  match expected.commitmentEnvelopeDigest with
  | none => return ()
  | some value => do
    let expectedEnvelope ← fixed32 value "expected_commitment_envelope_digest"
    reject (bundle.envelope.val.digest sha256 ≠ expectedEnvelope)
      "retained hard bundle does not match the signed receipt"

/-- The checks of the profile, the prompt and the nonce: the rebuilt request. -/
def checkRequest (bundle : HardBundleFields) (qualified : QualifiedProfileFields) :
    Result ValidatorExecutionRequestContext := do
  let profile := qualified.profile
  reject (profile.val.proofSystemId ≠ economicRecomputeProofSystem)
    "retained hard bundle requires economic_recompute_v3"
  let profileDigest ← profile.val.digest sha256
  reject (bundle.precommitContext.val.staticManifestDigest ≠
        qualified.expectedStaticManifestDigest ∨
      bundle.precommitContext.val.executionProfileDigest ≠
        qualified.expectedExecutionProfileDigest ∨
      profileDigest ≠ qualified.expectedExecutionProfileDigest)
    "retained hard bundle profile binding is stale"
  let validatorContext ← bundle.validatorRequestContext
  let reconstructed ← validatorContext.val.derivePrecommitContext sha256
    qualified.expectedStaticManifestDigest qualified.expectedExecutionProfileDigest
  reject (reconstructed.val.canonicalBytes ≠ bundle.precommitContext.val.canonicalBytes)
    "retained hard bundle prompt does not match its precommit"
  let nonceContext ← bundle.precommitContext.val.nonceContextDigest sha256
  reject (commitValidatorNonce sha256 bundle.nonceReveal.val.validatorNonce nonceContext ≠
      bundle.precommitContext.val.validatorNonceCommitment)
    "retained hard bundle nonce does not match its commitment"
  return validatorContext

/-- The replay of the audit decision: the rebuilt policy and the decision. -/
def replayDecision (bundle : HardBundleFields) (profile : ExecutionSecurityProfile) :
    Result (RuntimeHardAuditPolicy × PostCommitAuditDecision) := do
  let runtimePolicy ← runtimePolicyFromNonceReveal profile bundle.nonceReveal
  let decision ← derivePostcommitAuditDecision sha256 bundle.nonceReveal.val.validatorNonce profile
    bundle.envelope runtimePolicy
  reject (decision.val.canonicalBytes ≠ bundle.nonceReveal.val.auditDecision.val.canonicalBytes)
    "retained hard bundle audit decision is inconsistent"
  return (runtimePolicy, decision)

/-- `proof.capture_chain_digest` against the one of the receipt. -/
def checkCaptureChain (captureChainDigest : Bytes) (expected : Option Bytes) : Result Unit :=
  match expected with
  | none => return ()
  | some value => do
    let expectedDigest ← fixed32Nonzero value "expected_capture_chain_digest"
    reject (captureChainDigest ≠ expectedDigest.bytes)
      "retained hard bundle does not match the receipt capture chain"

/-- `verify_retained_hard_proof_bundle_v3`. -/
def verifyRetainedHardProofBundle {Proof Outcome : Type}
    (economic : EconomicProofSystem Proof Outcome) (bundle : HardBundleFields)
    (qualified : QualifiedExecutionProfile sha256) (expected : ReplayExpectation) :
    Result Outcome := do
  qualified.val.validateQualification sha256
  checkExpectation sha256 bundle expected
  let validatorContext ← checkRequest sha256 bundle qualified.val
  let (runtimePolicy, decision) ← replayDecision sha256 bundle qualified.val.profile
  let outputBinding ← bundle.observedOutput.deriveOutputBinding sha256 nfc
  let _ ← validateExecutionEnvelopeAgainstPrecommit sha256 qualified.val.profile bundle.envelope
    qualified.val.expectedStaticManifestDigest qualified.val.expectedExecutionProfileDigest
    bundle.precommitContext outputBinding ProfileFields.requireEconomicRecomputeCapability false
  let proof ← exceptMalformedTransport (economic.decode bundle.encodedProof)
  checkCaptureChain (economic.captureChainDigest proof) expected.captureChainDigest
  economic.verify {
    qualified := qualified.val
    envelope := bundle.envelope
    validatorNonce := bundle.nonceReveal.val.validatorNonce
    validatorRequestContext := validatorContext
    observedOutput := bundle.observedOutput
    runtimePolicy := runtimePolicy
    auditDecision := decision } proof

end Hash

end Verathos.ProofV3
