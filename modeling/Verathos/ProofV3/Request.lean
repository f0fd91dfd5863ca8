import Verathos.ProofV3.Profile
import Verathos.Receipts.Defs

/-!
# Requests, outputs and envelopes

A translation of `request.py` and of the commitment envelope of `payload.py`: the validator's
request context, the context that the miner sees before it executes, the binding of an observed
output, and the envelope with its wire form.

Unicode normalisation comes from the standard library and is a parameter.
-/

namespace Verathos.ProofV3

open PrefixCache (Constructed construct construct_eq_ok packI nonzero32 u32 positiveU32)
open Receipts (utf8)

/-! ## Token sequences -/

/-- `MAX_EXECUTION_REQUEST_TOKENS_V3`. -/
def maxExecutionRequestTokens : ℕ := 2 ^ 24

def tokenSequenceCount (tokenIds : List ℕ) (name : String) : Result ℕ := do
  raiseIf (tokenIds.length > maxExecutionRequestTokens)
    (.proofV3Error (name ++ " exceeds the proof-v3 token limit"))
  return tokenIds.length

section Hash

variable (sha256 : Bytes → Digest)

/-- `token_sequence_digest_v3`. -/
def tokenSequenceDigest (tokenIds : List ℕ) (name : String) : Result Digest := do
  let count ← tokenSequenceCount tokenIds name
  tokenIds.forM fun tokenId =>
    raiseIf (¬ tokenId < 2 ^ 32) (.proofV3Error (name ++ " is outside the uint32 range"))
  return sha256 (asciiBytes "VERATHOS/PROOF_V3/TOKEN_SEQUENCE/SHA256" ++ packI count ++
    tokenIds.flatMap packI)

/-! ## Contexts before the nonce -/

/-- The fields that a nonce commits to. -/
structure NonceContext where
  proofChallengeId : Digest
  validatorIdentityDigest : Digest
  minerIdentityDigest : Digest
  staticManifestDigest : Digest
  executionProfileDigest : Digest
  promptTokenRoot : Digest
  contextTokenCount : ℕ
  cacheLeaseDigest : Digest
  samplerConfigDigest : Digest

def preNonceContextDigestFromRoot (context : NonceContext) : Result Digest := do
  positiveU32 context.contextTokenCount "context_token_count"
  nonzero32 context.cacheLeaseDigest "cache_lease_digest"
  return sha256 (asciiBytes "VERATHOS/PROOF_V3/PRE_NONCE_CONTEXT/SHA256" ++
    context.proofChallengeId.bytes ++ context.validatorIdentityDigest.bytes ++
    context.minerIdentityDigest.bytes ++ context.staticManifestDigest.bytes ++
    context.executionProfileDigest.bytes ++ context.promptTokenRoot.bytes ++
    packI context.contextTokenCount ++ context.cacheLeaseDigest.bytes ++
    context.samplerConfigDigest.bytes)

/-- `commit_validator_nonce_v3`. -/
def commitValidatorNonce (validatorNonce nonceContextDigest : Digest) : Digest :=
  sha256 (asciiBytes "VERATHOS/PROOF_V3/NONCE_COMMITMENT/SHA256" ++ validatorNonce.bytes ++
    nonceContextDigest.bytes)

/-- The fields of `PreExecutionRequestContextV3`. -/
structure PrecommitContextFields extends NonceContext where
  validatorNonceCommitment : Digest

def PrecommitContextFields.postInit (context : PrecommitContextFields) : Result Unit := do
  positiveU32 context.contextTokenCount "context_token_count"
  nonzero32 context.cacheLeaseDigest "cache_lease_digest"

/-- `PreExecutionRequestContextV3`. -/
abbrev PreExecutionRequestContext := Constructed PrecommitContextFields.postInit

def PrecommitContextFields.nonceContextDigest (context : PrecommitContextFields) :
    Result Digest :=
  preNonceContextDigestFromRoot sha256 context.toNonceContext

def PrecommitContextFields.digest (context : PrecommitContextFields) : Result Digest := do
  let nonceContext ← context.nonceContextDigest sha256
  return sha256 (asciiBytes "VERATHOS/PROOF_V3/PRECOMMIT_CONTEXT/SHA256" ++ nonceContext.bytes ++
    context.validatorNonceCommitment.bytes)

def PrecommitContextFields.initialExecutionStateAnchor (context : PrecommitContextFields) :
    Result Digest := do
  let digest ← context.digest sha256
  return sha256 (asciiBytes "VERATHOS/PROOF_V3/INITIAL_EXECUTION_STATE/SHA256" ++ digest.bytes)

theorem exists_precommitDigest (context : PreExecutionRequestContext) :
    ∃ digest, context.val.digest sha256 = .ok digest := by
  have h := context.property
  simp only [PrecommitContextFields.postInit, bind_eq_ok] at h
  obtain ⟨_, hcount, hlease⟩ := h
  obtain ⟨nonceContext, hnonce⟩ : ∃ digest, context.val.nonceContextDigest sha256 = .ok digest :=
    ⟨_, bind_eq_ok.mpr ⟨_, hcount, bind_eq_ok.mpr ⟨_, hlease, rfl⟩⟩⟩
  exact ⟨_, bind_eq_ok.mpr ⟨nonceContext, hnonce, rfl⟩⟩

/-! ## The validator's request -/

/-- A request before it is issued. -/
structure RequestArguments where
  proofChallengeId : Digest
  validatorIdentityDigest : Digest
  minerIdentityDigest : Digest
  promptTokenIds : List ℕ
  samplerConfigDigest : Digest

/-- A request with its cache lease. -/
structure LeasedRequest extends RequestArguments where
  cacheLeaseDigest : Digest

/-- The fields of `ValidatorExecutionRequestContextV3`. -/
structure ValidatorRequestFields extends LeasedRequest where
  validatorNonceCommitment : Digest

def ValidatorRequestFields.postInit (request : ValidatorRequestFields) : Result Unit :=
  nonzero32 request.cacheLeaseDigest "cache_lease_digest"

/-- `ValidatorExecutionRequestContextV3`. -/
abbrev ValidatorExecutionRequestContext := Constructed ValidatorRequestFields.postInit

def RequestArguments.promptTokenCount (request : RequestArguments) : Result ℕ := do
  let count ← tokenSequenceCount request.promptTokenIds "prompt_token_ids"
  positiveU32 count "context_token_count"
  return count

/-- `derive_pre_nonce_context_digest_v3`. -/
def LeasedRequest.nonceContextDigest (request : LeasedRequest)
    (staticManifestDigest executionProfileDigest : Digest) : Result Digest := do
  let count ← request.promptTokenCount
  let promptTokenRoot ← tokenSequenceDigest sha256 request.promptTokenIds "prompt_token_ids"
  preNonceContextDigestFromRoot sha256 {
    proofChallengeId := request.proofChallengeId
    validatorIdentityDigest := request.validatorIdentityDigest
    minerIdentityDigest := request.minerIdentityDigest
    staticManifestDigest := staticManifestDigest
    executionProfileDigest := executionProfileDigest
    promptTokenRoot := promptTokenRoot
    contextTokenCount := count
    cacheLeaseDigest := request.cacheLeaseDigest
    samplerConfigDigest := request.samplerConfigDigest }

def ValidatorRequestFields.derivePrecommitContext (request : ValidatorRequestFields)
    (staticManifestDigest executionProfileDigest : Digest) : Result PreExecutionRequestContext := do
  let count ← request.promptTokenCount
  let promptRoot ← tokenSequenceDigest sha256 request.promptTokenIds "prompt_token_ids"
  let result ← construct PrecommitContextFields.postInit {
    proofChallengeId := request.proofChallengeId
    validatorIdentityDigest := request.validatorIdentityDigest
    minerIdentityDigest := request.minerIdentityDigest
    validatorNonceCommitment := request.validatorNonceCommitment
    staticManifestDigest := staticManifestDigest
    executionProfileDigest := executionProfileDigest
    promptTokenRoot := promptRoot
    contextTokenCount := count
    cacheLeaseDigest := request.cacheLeaseDigest
    samplerConfigDigest := request.samplerConfigDigest }
  let resultContext ← result.val.nonceContextDigest sha256
  let requestContext ← request.nonceContextDigest sha256 staticManifestDigest executionProfileDigest
  raiseIf (resultContext ≠ requestContext)
    (.proofV3Error "validator pre-request context derivation is inconsistent")
  return result

/-! ## Observed outputs -/

/-- The fields of `ExecutionOutputBindingV3`. -/
structure OutputBindingFields where
  outputTokenRoot : Digest
  outputStreamDigest : Digest
  decodeTokenCount : ℕ

def OutputBindingFields.postInit (output : OutputBindingFields) : Result Unit :=
  u32 output.decodeTokenCount "decode_token_count"

/-- `ExecutionOutputBindingV3`. -/
abbrev ExecutionOutputBinding := Constructed OutputBindingFields.postInit

/-- `ObservedExecutionOutputV3`. -/
structure ObservedExecutionOutput where
  outputTokenIds : List ℕ
  emittedTextUtf8 : Bytes
  finishReason : String

def finishReasonBytes (nfc : String → String) (value : String) : Result Bytes := do
  raiseIf (value = "") (.proofV3Error "finish_reason must be a non-empty string")
  raiseIf (value ≠ nfc value ∨ '\x00' ∈ value.toList)
    (.proofV3Error "finish_reason is not canonical text")
  raiseIf ((utf8 value).length > 256)
    (.proofV3Error "finish_reason exceeds the protocol limit")
  return utf8 value

def frame (value : Bytes) (name : String) (maximum : ℕ) : Result Bytes := do
  raiseIf (value.length > maximum) (.proofV3Error (name ++ " byte length is out of range"))
  return packI value.length ++ value

/-- `output_stream_digest_v3`. -/
def outputStreamDigest (nfc : String → String) (emittedTextUtf8 : Bytes) (finishReason : String) :
    Result Digest := do
  let text ← frame emittedTextUtf8 "emitted_text_utf8" (2 ^ 24)
  let reasonBytes ← finishReasonBytes nfc finishReason
  let reason ← frame reasonBytes "finish_reason" 256
  return sha256 (asciiBytes "VERATHOS/PROOF_V3/OUTPUT_STREAM/SHA256" ++ text ++ reason)

def ObservedExecutionOutput.deriveOutputBinding (nfc : String → String)
    (output : ObservedExecutionOutput) : Result ExecutionOutputBinding := do
  let count ← tokenSequenceCount output.outputTokenIds "output_token_ids"
  u32 count "decode_token_count"
  let outputTokenRoot ← tokenSequenceDigest sha256 output.outputTokenIds "output_token_ids"
  let streamDigest ← outputStreamDigest sha256 nfc output.emittedTextUtf8 output.finishReason
  construct OutputBindingFields.postInit {
    outputTokenRoot := outputTokenRoot
    outputStreamDigest := streamDigest
    decodeTokenCount := count }

/-- `ExecutionRequestBindingV3`, whose constructor derives the same digest again. -/
structure ExecutionRequestBinding where
  precommitContext : PreExecutionRequestContext
  output : ExecutionOutputBinding
  requestDigest : Digest

/-- `derive_execution_request_digest_v3`. -/
def deriveExecutionRequestDigest (precommitContext : PreExecutionRequestContext)
    (output : ExecutionOutputBinding) : Result Digest := do
  let context ← precommitContext.val.digest sha256
  return sha256 (asciiBytes "VERATHOS/PROOF_V3/REQUEST_CONTEXT/SHA256" ++ context.bytes ++
    output.val.outputTokenRoot.bytes ++ output.val.outputStreamDigest.bytes ++
    packI output.val.decodeTokenCount)

def bindOutput (precommitContext : PreExecutionRequestContext) (output : ExecutionOutputBinding) :
    Result ExecutionRequestBinding := do
  let requestDigest ← deriveExecutionRequestDigest sha256 precommitContext output
  return { precommitContext, output, requestDigest }

/-! ## Commitment envelopes -/

/-- The fields of `ProofV3CommitmentEnvelope`. -/
structure EnvelopeFields where
  staticManifestDigest : Digest
  executionProfileDigest : Digest
  precommitContextDigest : Digest
  promptTokenRoot : Digest
  samplerConfigDigest : Digest
  cacheLeaseDigest : Digest
  requestDigest : Digest
  outputTokenRoot : Digest
  outputStreamDigest : Digest
  executionRoot : Digest
  prefillRoot : Digest
  cacheTableRoot : Digest
  contextTokenCount : ℕ
  decodeTokenCount : ℕ
  cacheEpoch : ℕ
deriving DecidableEq

def EnvelopeFields.postInit (envelope : EnvelopeFields) : Result Unit := do
  nonzero32 envelope.cacheLeaseDigest "cache_lease_digest"
  nonzero32 envelope.cacheTableRoot "cache_table_root"
  positiveU32 envelope.contextTokenCount "context_token_count"
  u32 envelope.decodeTokenCount "decode_token_count"
  u64 envelope.cacheEpoch "cache_epoch"

abbrev ProofV3CommitmentEnvelope := Constructed EnvelopeFields.postInit

def EnvelopeFields.canonicalBytes (envelope : EnvelopeFields) : Bytes :=
  asciiBytes "V3CE" ++ LittleEndian.toBytes 2 2 ++ packI envelope.contextTokenCount ++
    packI envelope.decodeTokenCount ++ LittleEndian.toBytes 8 envelope.cacheEpoch ++
    envelope.staticManifestDigest.bytes ++ envelope.executionProfileDigest.bytes ++
    envelope.precommitContextDigest.bytes ++ envelope.promptTokenRoot.bytes ++
    envelope.samplerConfigDigest.bytes ++ envelope.cacheLeaseDigest.bytes ++
    envelope.requestDigest.bytes ++ envelope.outputTokenRoot.bytes ++
    envelope.outputStreamDigest.bytes ++ envelope.executionRoot.bytes ++
    envelope.prefillRoot.bytes ++ envelope.cacheTableRoot.bytes

def EnvelopeFields.digest (envelope : EnvelopeFields) : Digest :=
  sha256 (asciiBytes "VERATHOS/PROOF_V3/COMMITMENT_ENVELOPE/SHA256" ++ envelope.canonicalBytes)

end Hash

/-- `reader.read(32)` at an offset. -/
def readDigest (encoded : Bytes) (offset : ℕ) : Result Digest :=
  fixedBytes32 ((encoded.drop offset).take 32) "commitment envelope"

/-- `commitment_envelope_from_bytes`. Every field has its place, because the length is fixed. -/
def commitmentEnvelopeFromBytes (encoded : Bytes) : Result ProofV3CommitmentEnvelope := do
  raiseIf (encoded.length > 406)
    (.proofV3Error "commitment envelope byte length is out of range")
  raiseIf (encoded.length < 406) (.proofV3Error "commitment envelope is truncated")
  raiseIf (encoded.take 4 ≠ asciiBytes "V3CE" ∨
      LittleEndian.toNat ((encoded.drop 4).take 2) ≠ 2)
    (.proofV3Error "commitment envelope header is not supported")
  let result ← construct EnvelopeFields.postInit {
    staticManifestDigest := ← readDigest encoded 22
    executionProfileDigest := ← readDigest encoded 54
    precommitContextDigest := ← readDigest encoded 86
    promptTokenRoot := ← readDigest encoded 118
    samplerConfigDigest := ← readDigest encoded 150
    cacheLeaseDigest := ← readDigest encoded 182
    requestDigest := ← readDigest encoded 214
    outputTokenRoot := ← readDigest encoded 246
    outputStreamDigest := ← readDigest encoded 278
    executionRoot := ← readDigest encoded 310
    prefillRoot := ← readDigest encoded 342
    cacheTableRoot := ← readDigest encoded 374
    contextTokenCount := LittleEndian.toNat ((encoded.drop 6).take 4)
    decodeTokenCount := LittleEndian.toNat ((encoded.drop 10).take 4)
    cacheEpoch := LittleEndian.toNat ((encoded.drop 14).take 8) }
  raiseIf (result.val.canonicalBytes ≠ encoded)
    (.proofV3Error "commitment envelope is not canonical")
  return result

end Verathos.ProofV3
