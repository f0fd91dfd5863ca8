import Verathos.Lib.Chains
import Verathos.ProofV3.Framing
import Verathos.ProofV3.HardBundleWire
import Verathos.ProofV3.PairedTier

/-!
# What an envelope says about a hard bundle

The digest of an envelope is the root of the digests that a bundle opens: the precommit context with
its nonce context, the prompt and the output tokens, the output stream and the nonce. Each message
on the way determines what it holds.

The audit decision is not below that root as a whole. It is derived again from the nonce, the
profile and the envelope under a policy that is rebuilt from the decision itself, so the kind and
the rate of the request are what the bundle says they are.

* `bound_eq_or_collide`: an envelope digest determines the precommit context and the nonce;
* `hardBundle_determined`: bundles of one envelope agree on all but the kind, the rate and the draw
  of their decisions, and a light request has no hard bundle of its own kind and rate;
* `hardBundle_not_determined`: the kind does differ between bundles of one envelope.
-/

namespace Verathos.ProofV3

open HashChain
open PrefixCache (Constructed construct construct_eq_ok packI nonzero32 u32 positiveU32)
open Receipts (utf8 utf8_injective)

/-! ## Messages -/

/-- What is hashed for the digest of an envelope. -/
def EnvelopeFields.message (envelope : EnvelopeFields) : Bytes :=
  asciiBytes "VERATHOS/PROOF_V3/COMMITMENT_ENVELOPE/SHA256" ++ envelope.canonicalBytes

/-- What is hashed for a nonce context. -/
def NonceContext.message (context : NonceContext) : Bytes :=
  asciiBytes "VERATHOS/PROOF_V3/PRE_NONCE_CONTEXT/SHA256" ++
    context.proofChallengeId.bytes ++ context.validatorIdentityDigest.bytes ++
    context.minerIdentityDigest.bytes ++ context.staticManifestDigest.bytes ++
    context.executionProfileDigest.bytes ++ context.promptTokenRoot.bytes ++
    packI context.contextTokenCount ++ context.cacheLeaseDigest.bytes ++
    context.samplerConfigDigest.bytes

/-- What is hashed for a token sequence. -/
def tokenMessage (tokenIds : List ℕ) : Bytes :=
  asciiBytes "VERATHOS/PROOF_V3/TOKEN_SEQUENCE/SHA256" ++ packI tokenIds.length ++
    tokenIds.flatMap packI

/-- What is hashed for an output stream. -/
def streamMessage (output : ObservedExecutionOutput) : Bytes :=
  asciiBytes "VERATHOS/PROOF_V3/OUTPUT_STREAM/SHA256" ++
    (packI output.emittedTextUtf8.length ++ output.emittedTextUtf8) ++
    (packI (utf8 output.finishReason).length ++ utf8 output.finishReason)

section Messages

variable (sha256 : Bytes → Digest)

/-- What is hashed for a precommit context. -/
def PrecommitContextFields.message (context : PrecommitContextFields) : Bytes :=
  asciiBytes "VERATHOS/PROOF_V3/PRECOMMIT_CONTEXT/SHA256" ++
    (sha256 context.toNonceContext.message).bytes ++ context.validatorNonceCommitment.bytes

/-- What is hashed for the commitment of a nonce. -/
def nonceMessage (nonce : Digest) (context : NonceContext) : Bytes :=
  asciiBytes "VERATHOS/PROOF_V3/NONCE_COMMITMENT/SHA256" ++ nonce.bytes ++
    (sha256 context.message).bytes

/-- The messages between an envelope digest and the nonce. -/
def boundMessages (envelope : ProofV3CommitmentEnvelope) (context : PreExecutionRequestContext)
    (nonce : Digest) : List Bytes :=
  [envelope.val.message, context.val.message sha256, context.val.toNonceContext.message,
    nonceMessage sha256 nonce context.val.toNonceContext]

/-- The messages between an envelope digest and the contents of a bundle. -/
def bundleMessages (bundle : HardBundleFields) : List Bytes :=
  boundMessages sha256 bundle.envelope bundle.precommitContext bundle.nonceReveal.val.validatorNonce ++
    [tokenMessage bundle.promptTokenIds, tokenMessage bundle.observedOutput.outputTokenIds,
      streamMessage bundle.observedOutput]

end Messages

variable {sha256 : Bytes → Digest} {nfc : String → String}

theorem envelope_message_inj {a b : ProofV3CommitmentEnvelope} (h : a.val.message = b.val.message) :
    a = b := by
  have hbytes := List.append_cancel_left h
  have hdecode := (envelope_roundTrip a).2
  rw [hbytes, (envelope_roundTrip b).2] at hdecode
  exact (Except.ok.inj hdecode).symm

theorem contextTokenCount_lt (context : PreExecutionRequestContext) :
    context.val.contextTokenCount < 2 ^ 32 := by
  have h := context.property
  simp only [PrecommitContextFields.postInit, positiveU32, bind_eq_ok, raiseIf_eq_ok, not_or,
    exists_const] at h
  omega

theorem nonceContext_message_inj {a b : NonceContext} (ha : a.contextTokenCount < 2 ^ 32)
    (hb : b.contextTokenCount < 2 ^ 32) (h : a.message = b.message) : a = b := by
  simp only [NonceContext.message, List.append_assoc] at h
  obtain ⟨hchallenge, h⟩ := digest_append_inj (List.append_cancel_left h)
  obtain ⟨hvalidator, h⟩ := digest_append_inj h
  obtain ⟨hminer, h⟩ := digest_append_inj h
  obtain ⟨hmanifest, h⟩ := digest_append_inj h
  obtain ⟨hprofile, h⟩ := digest_append_inj h
  obtain ⟨hprompt, h⟩ := digest_append_inj h
  obtain ⟨hcount, h⟩ := packI_append_inj ha hb h
  obtain ⟨hlease, h⟩ := digest_append_inj h
  have hsampler := Digest.ext h
  cases a
  cases b
  simp only [NonceContext.mk.injEq]
  exact ⟨hchallenge, hvalidator, hminer, hmanifest, hprofile, hprompt, hcount, hlease, hsampler⟩

theorem precommit_message_inj {a b : PrecommitContextFields}
    (h : a.message sha256 = b.message sha256) :
    sha256 a.toNonceContext.message = sha256 b.toNonceContext.message ∧
      a.validatorNonceCommitment = b.validatorNonceCommitment := by
  simp only [PrecommitContextFields.message, List.append_assoc] at h
  obtain ⟨hcontext, h⟩ := digest_append_inj (List.append_cancel_left h)
  exact ⟨hcontext, Digest.ext h⟩

variable {nonce : Digest}

theorem nonceMessage_inj {nonce' : Digest} {context context' : NonceContext}
    (h : nonceMessage sha256 nonce context = nonceMessage sha256 nonce' context') :
    nonce = nonce' := by
  simp only [nonceMessage, List.append_assoc] at h
  exact (digest_append_inj (List.append_cancel_left h)).1

theorem tokenMessage_inj {as bs : List ℕ} (ha : as.length ≤ maxHardBundleTokenIds)
    (hb : bs.length ≤ maxHardBundleTokenIds) (has : ∀ a ∈ as, a < 2 ^ 32)
    (hbs : ∀ b ∈ bs, b < 2 ^ 32) (h : tokenMessage as = tokenMessage bs) : as = bs := by
  simp only [tokenMessage, List.append_assoc] at h
  rw [maxHardBundleTokenIds] at ha hb
  exact counted_packI_inj (by omega) (by omega) has hbs (List.append_cancel_left h)

theorem streamMessage_inj {a b : RetainedHardProofBundle sha256 nfc}
    (h : streamMessage a.val.observedOutput = streamMessage b.val.observedOutput) :
    a.val.observedOutput.emittedTextUtf8 = b.val.observedOutput.emittedTextUtf8 ∧
      a.val.observedOutput.finishReason = b.val.observedOutput.finishReason := by
  have hbounds : ∀ c : RetainedHardProofBundle sha256 nfc,
      c.val.observedOutput.emittedTextUtf8.length < 2 ^ 32 ∧
        (utf8 c.val.observedOutput.finishReason).length < 2 ^ 32 := by
    intro c
    have htext := (withinLimits c).text_le
    have hfinish := (withinLimits c).finish_le
    rw [maxOutputStreamBytes] at htext
    rw [maxFinishReasonBytes] at hfinish
    omega
  rw [streamMessage, streamMessage, List.append_assoc, List.append_assoc] at h
  obtain ⟨htext, h⟩ := framed_append_inj (hbounds a).1 (hbounds b).1 (List.append_cancel_left h)
  obtain ⟨hfinish, -⟩ := framed_append_inj (hbounds a).2 (hbounds b).2 (congrArg (· ++ []) h)
  exact ⟨htext, utf8_injective hfinish⟩

/-! ## The bound context and nonce -/

theorem precommit_digest_eq (context : PreExecutionRequestContext) :
    context.val.nonceContextDigest sha256 = .ok (sha256 context.val.toNonceContext.message) ∧
      context.val.digest sha256 = .ok (sha256 (context.val.message sha256)) := by
  have h := context.property
  simp only [PrecommitContextFields.postInit, bind_eq_ok] at h
  obtain ⟨⟨⟩, hcount, hlease⟩ := h
  have hnonce : context.val.nonceContextDigest sha256 =
      .ok (sha256 context.val.toNonceContext.message) :=
    bind_eq_ok.mpr ⟨(), hcount, bind_eq_ok.mpr ⟨(), hlease, rfl⟩⟩
  exact ⟨hnonce, bind_eq_ok.mpr ⟨_, hnonce, rfl⟩⟩

/-- The envelope is bound to the context, and the context to the nonce. -/
structure BoundNonce (sha256 : Bytes → Digest) (envelope : ProofV3CommitmentEnvelope)
    (context : PreExecutionRequestContext) (nonce : Digest) : Prop where
  precommit : sha256 (context.val.message sha256) = envelope.val.precommitContextDigest
  commitment : sha256 (nonceMessage sha256 nonce context.val.toNonceContext) =
    context.val.validatorNonceCommitment

variable {envelope : ProofV3CommitmentEnvelope}

theorem bound_eq_or_collide {envelope' : ProofV3CommitmentEnvelope}
    {context context' : PreExecutionRequestContext} {nonce' : Digest}
    (h : BoundNonce sha256 envelope context nonce)
    (h' : BoundNonce sha256 envelope' context' nonce')
    (hdigest : envelope.val.digest sha256 = envelope'.val.digest sha256) :
    (envelope = envelope' ∧ context = context' ∧ nonce = nonce') ∨
      Collide sha256 (boundMessages sha256 envelope context nonce)
        (boundMessages sha256 envelope' context' nonce') := by
  have hmem : ∀ (e : ProofV3CommitmentEnvelope) (c : PreExecutionRequestContext) (n : Digest),
      ∀ m ∈ [e.val.message, c.val.message sha256, c.val.toNonceContext.message,
        nonceMessage sha256 n c.val.toNonceContext], m ∈ boundMessages sha256 e c n :=
    fun _ _ _ _ hm => hm
  -- the envelope, the context, the nonce context and the nonce, one digest after the other
  have hhash : sha256 envelope.val.message = sha256 envelope'.val.message := hdigest
  rcases eq_or_collide_of_mem (hmem envelope context nonce _ (by simp))
    (hmem envelope' context' nonce' _ (by simp)) hhash with henvelope | hcollide
  case inr => exact .inr hcollide
  obtain rfl := envelope_message_inj henvelope
  rcases eq_or_collide_of_mem (hmem envelope context nonce _ (by simp))
    (hmem envelope context' nonce' _ (by simp)) (h.precommit.trans h'.precommit.symm) with
    hprecommit | hcollide
  case inr => exact .inr hcollide
  obtain ⟨hcontext, hcommitment⟩ := precommit_message_inj hprecommit
  rcases eq_or_collide_of_mem (hmem envelope context nonce _ (by simp))
    (hmem envelope context' nonce' _ (by simp)) hcontext with hcontext | hcollide
  case inr => exact .inr hcollide
  have hfields := nonceContext_message_inj (contextTokenCount_lt context)
    (contextTokenCount_lt context') hcontext
  have hnonceHash := (h.commitment.trans hcommitment).trans h'.commitment.symm
  rcases eq_or_collide_of_mem (hmem envelope context nonce _ (by simp))
    (hmem envelope context' nonce' _ (by simp)) hnonceHash with hnonce | hcollide
  case inr => exact .inr hcollide
  refine .inl ⟨rfl, Subtype.ext ?_, nonceMessage_inj hnonce⟩
  rcases context with ⟨⟨_, _⟩, _⟩
  rcases context' with ⟨⟨_, _⟩, _⟩
  exact congrArg₂ PrecommitContextFields.mk hfields hcommitment

/-! ## What a replay establishes -/

/-- What an accepted replay establishes about a bundle, under an expected envelope. -/
structure Replayed (sha256 : Bytes → Digest) (profile : ExecutionSecurityProfile) (expected : Bytes)
    (bundle : HardBundleFields) : Prop where
  envelope : (bundle.envelope.val.digest sha256).bytes = expected
  bound : BoundNonce sha256 bundle.envelope bundle.precommitContext
    bundle.nonceReveal.val.validatorNonce
  prompt : sha256 (tokenMessage bundle.promptTokenIds) =
    bundle.precommitContext.val.promptTokenRoot
  tokens : sha256 (tokenMessage bundle.observedOutput.outputTokenIds) =
    bundle.envelope.val.outputTokenRoot
  stream : sha256 (streamMessage bundle.observedOutput) = bundle.envelope.val.outputStreamDigest
  hard : bundle.nonceReveal.val.auditDecision.val.hardAuditSelected = true
  /-- The decision is derived under a policy of its own kind and rate. -/
  decision : ∃ runtimePolicy : RuntimeHardAuditPolicy,
    runtimePolicy.val.requestKind = bundle.nonceReveal.val.auditDecision.val.requestKind ∧
    runtimePolicy.val.effectiveHardBps =
      bundle.nonceReveal.val.auditDecision.val.effectiveHardBps ∧
    derivePostcommitAuditDecision sha256 bundle.nonceReveal.val.validatorNonce profile
      bundle.envelope runtimePolicy = .ok bundle.nonceReveal.val.auditDecision

theorem tokenSequenceDigest_eq_ok {tokenIds : List ℕ} {name : String} {digest : Digest}
    (h : tokenSequenceDigest sha256 tokenIds name = .ok digest) :
    sha256 (tokenMessage tokenIds) = digest := by
  simp only [tokenSequenceDigest, tokenSequenceCount, bind_eq_ok, pure_eq_ok] at h
  obtain ⟨_, ⟨-, -, rfl⟩, -, -, rfl⟩ := h
  rfl

theorem outputBinding_eq_ok {output : ObservedExecutionOutput} {binding : ExecutionOutputBinding}
    (h : output.deriveOutputBinding sha256 nfc = .ok binding) :
    sha256 (tokenMessage output.outputTokenIds) = binding.val.outputTokenRoot ∧
      sha256 (streamMessage output) = binding.val.outputStreamDigest := by
  simp only [ObservedExecutionOutput.deriveOutputBinding, outputStreamDigest, frame,
    finishReasonBytes, bind_eq_ok, pure_eq_ok, construct_eq_ok] at h
  obtain ⟨_, -, -, -, root, hroot, stream, hstream, hbinding⟩ := h
  obtain ⟨_, ⟨-, -, rfl⟩, _, ⟨-, -, -, -, -, -, rfl⟩, _, ⟨-, -, rfl⟩, rfl⟩ := hstream
  rw [hbinding]
  exact ⟨tokenSequenceDigest_eq_ok hroot, rfl⟩

theorem output_of_bundle (bundle : RetainedHardProofBundle sha256 nfc) :
    sha256 (tokenMessage bundle.val.observedOutput.outputTokenIds) =
        bundle.val.envelope.val.outputTokenRoot ∧
      sha256 (streamMessage bundle.val.observedOutput) =
        bundle.val.envelope.val.outputStreamDigest ∧
      bundle.val.nonceReveal.val.auditDecision.val.hardAuditSelected = true := by
  have h := bundle.property
  simp only [HardBundleFields.postInit, bind_eq_ok, reject_eq_ok, not_or, not_not] at h
  obtain ⟨-, -, -, -, -, -, -, -, -, -, -, -, -, -, _, -, -, -, -, hhard, binding, hbinding, hroot,
    hstream, -⟩ := h
  obtain ⟨htokens, hstreamHash⟩ := outputBinding_eq_ok hbinding
  refine ⟨htokens.trans hroot.symm, hstreamHash.trans hstream.symm, ?_⟩
  simpa using hhard

variable {bundle : HardBundleFields}

theorem checkExpectation_eq_ok {expected : ReplayExpectation} {value : Bytes}
    (hvalue : expected.commitmentEnvelopeDigest = some value)
    (h : checkExpectation sha256 bundle expected = .ok ()) :
    (bundle.envelope.val.digest sha256).bytes = value := by
  simp only [checkExpectation, bind_eq_ok, hvalue, reject_eq_ok, not_not] at h
  obtain ⟨_, -, _, -, -, -, -, -, envelopeDigest, hfixed, heq⟩ := h
  unfold fixed32 at hfixed
  split_ifs at hfixed
  rw [heq, ← Except.ok.inj hfixed]

theorem checkRequest_spec {qualified : QualifiedProfileFields}
    {request : ValidatorExecutionRequestContext}
    (h : checkRequest sha256 bundle qualified = .ok request) :
    sha256 (tokenMessage bundle.promptTokenIds) =
        bundle.precommitContext.val.promptTokenRoot ∧
      sha256 (nonceMessage sha256 bundle.nonceReveal.val.validatorNonce
        bundle.precommitContext.val.toNonceContext) =
        bundle.precommitContext.val.validatorNonceCommitment := by
  simp only [checkRequest, bind_eq_ok, reject_eq_ok, not_not, pure_eq_ok] at h
  obtain ⟨-, -, _, -, -, -, context, hcontext, reconstructed, hreconstructed, -, hbytes, nonceContext,
    hnonceContext, -, hcommitment, -⟩ := h
  have hdecode := precommit_roundTrip reconstructed
  rw [hbytes, precommit_roundTrip] at hdecode
  obtain rfl : bundle.precommitContext = reconstructed := Except.ok.inj hdecode
  obtain rfl := Except.ok.inj
    ((precommit_digest_eq bundle.precommitContext).1.symm.trans hnonceContext)
  refine ⟨?_, hcommitment⟩
  simp only [HardBundleFields.validatorRequestContext, construct_eq_ok] at hcontext
  simp only [ValidatorRequestFields.derivePrecommitContext, bind_eq_ok, construct_eq_ok, pure_eq_ok]
    at hreconstructed
  obtain ⟨_, -, root, hroot, _, hfields, _, -, _, -, -, -, rfl⟩ := hreconstructed
  rw [hcontext] at hroot
  rw [hfields]
  exact tokenSequenceDigest_eq_ok hroot

theorem replayDecision_spec {profile : ExecutionSecurityProfile}
    {result : RuntimeHardAuditPolicy × PostCommitAuditDecision}
    (h : replayDecision sha256 bundle profile = .ok result) :
    ∃ runtimePolicy : RuntimeHardAuditPolicy,
      runtimePolicy.val.requestKind = bundle.nonceReveal.val.auditDecision.val.requestKind ∧
      runtimePolicy.val.effectiveHardBps =
        bundle.nonceReveal.val.auditDecision.val.effectiveHardBps ∧
      derivePostcommitAuditDecision sha256 bundle.nonceReveal.val.validatorNonce profile
        bundle.envelope runtimePolicy = .ok bundle.nonceReveal.val.auditDecision := by
  simp only [replayDecision, runtimePolicyFromNonceReveal, bind_eq_ok, construct_eq_ok, reject_eq_ok,
    not_not, pure_eq_ok] at h
  obtain ⟨runtimePolicy, ⟨_, hfields, -, -, rfl⟩, decision, hderives, -, hbytes, -⟩ := h
  have hdecode := decision_roundTrip decision
  rw [hbytes, decision_roundTrip] at hdecode
  obtain rfl := Except.ok.inj hdecode
  refine ⟨_, ?_, ?_, hderives⟩
  · rw [hfields]
    rfl
  · rw [hfields]
    exact rebuilt_effectiveHardBps _ _

theorem verifyRetained_spec {Proof Outcome : Type} {economic : EconomicProofSystem Proof Outcome}
    {bundle : RetainedHardProofBundle sha256 nfc} {qualified : QualifiedExecutionProfile sha256}
    {expected : ReplayExpectation} {value : Bytes} {outcome : Outcome}
    (hvalue : expected.commitmentEnvelopeDigest = some value)
    (h : verifyRetainedHardProofBundle sha256 nfc economic bundle.val qualified expected =
      .ok outcome) :
    Replayed sha256 qualified.val.profile value bundle.val := by
  obtain ⟨htokens, hstream, hhard⟩ := output_of_bundle bundle
  simp only [verifyRetainedHardProofBundle, bind_eq_ok] at h
  obtain ⟨-, -, ⟨⟩, hexpectation, _, hrequest, _, hdecision, _, -, _, henvelope, -⟩ := h
  obtain ⟨hprompt, hcommitment⟩ := checkRequest_spec hrequest
  obtain ⟨-, -, hprecommit⟩ := validateExecutionEnvelope_spec henvelope
  have hdigest : bundle.val.precommitContext.val.digest sha256 = _ := (precommit_digest_eq _).2
  exact {
    envelope := checkExpectation_eq_ok hvalue hexpectation
    bound := ⟨Except.ok.inj (hdigest.symm.trans hprecommit), hcommitment⟩
    prompt := hprompt
    tokens := htokens
    stream := hstream
    hard := hhard
    decision := replayDecision_spec hdecision }

/-! ## Bundles of one envelope -/

/-- Two bundles of one execution. -/
structure SameExecution (bundle bundle' : HardBundleFields) : Prop where
  precommitContext : bundle.precommitContext = bundle'.precommitContext
  promptTokenIds : bundle.promptTokenIds = bundle'.promptTokenIds
  observedOutput : bundle.observedOutput = bundle'.observedOutput
  envelope : bundle.envelope = bundle'.envelope
  validatorNonce : bundle.nonceReveal.val.validatorNonce = bundle'.nonceReveal.val.validatorNonce

/-- The part of a decision that does not depend on the runtime policy. -/
structure SameTranscript (decision decision' : AuditDecisionFields) : Prop where
  tierSelectionAbiId : decision.tierSelectionAbiId = decision'.tierSelectionAbiId
  hardAuditSelected : decision.hardAuditSelected = decision'.hardAuditSelected
  transcriptDigest : decision.transcriptDigest = decision'.transcriptDigest
  commitmentEnvelopeDigest : decision.commitmentEnvelopeDigest = decision'.commitmentEnvelopeDigest

variable {runtimePolicy : RuntimeHardAuditPolicy}

theorem derive_transcript {validatorNonce : Digest} {profile : ExecutionSecurityProfile}
    {decision : PostCommitAuditDecision}
    (h : derivePostcommitAuditDecision sha256 validatorNonce profile envelope runtimePolicy =
      .ok decision) :
    executionTranscriptDigest sha256 validatorNonce profile envelope =
      .ok decision.val.transcriptDigest := by
  simp only [derivePostcommitAuditDecision, bind_eq_ok, construct_eq_ok] at h
  obtain ⟨-, -, transcriptDigest, htranscript, draw, -, hfields⟩ := h
  rw [hfields]
  exact htranscript

/-- Decisions from one nonce and envelope, under policies of one kind and rate, are one decision. -/
theorem derive_eq_of_kind_of_rate {validatorNonce : Digest} {profile : ExecutionSecurityProfile}
    {runtimePolicy' : RuntimeHardAuditPolicy} {decision decision' : PostCommitAuditDecision}
    (h : derivePostcommitAuditDecision sha256 validatorNonce profile envelope runtimePolicy =
      .ok decision)
    (h' : derivePostcommitAuditDecision sha256 validatorNonce profile envelope runtimePolicy' =
      .ok decision') (hkind : runtimePolicy'.val.requestKind = runtimePolicy.val.requestKind)
    (hrate : runtimePolicy'.val.effectiveHardBps = runtimePolicy.val.effectiveHardBps) :
    decision = decision' := by
  obtain ⟨hvalid, -⟩ := derive_fields h
  obtain ⟨hvalid', -⟩ := derive_fields h'
  have habi := (validateRuntime_spec hvalid').1.trans (validateRuntime_spec hvalid).1.symm
  exact Except.ok.inj ((derive_congr hkind hrate habi hvalid' h).symm.trans h')

theorem boundMessages_subset (bundle : HardBundleFields) :
    boundMessages sha256 bundle.envelope bundle.precommitContext
      bundle.nonceReveal.val.validatorNonce ⊆ bundleMessages sha256 bundle :=
  List.subset_append_left _ _

variable {profile : ExecutionSecurityProfile} {expected : Bytes}

/-- Accepted bundles of one envelope are bundles of one execution, unless their messages collide. -/
theorem sameExecution_or_collide {bundle bundle' : RetainedHardProofBundle sha256 nfc}
    (h : Replayed sha256 profile expected bundle.val)
    (h' : Replayed sha256 profile expected bundle'.val) :
    SameExecution bundle.val bundle'.val ∨
      Collide sha256 (bundleMessages sha256 bundle.val) (bundleMessages sha256 bundle'.val) := by
  have hdigest : bundle.val.envelope.val.digest sha256 = bundle'.val.envelope.val.digest sha256 :=
    Digest.ext (h.envelope.trans h'.envelope.symm)
  have hmem : ∀ (b : HardBundleFields) (m : Bytes), m ∈ [tokenMessage b.promptTokenIds,
      tokenMessage b.observedOutput.outputTokenIds, streamMessage b.observedOutput] →
      m ∈ bundleMessages sha256 b := fun b m hm => List.mem_append_right _ hm
  rcases bound_eq_or_collide h.bound h'.bound hdigest with ⟨henvelope, hcontext, hnonce⟩ | hcollide
  case inr =>
    exact .inr (hcollide.mono (boundMessages_subset _) (boundMessages_subset _))
  -- the prompt, the output tokens and the stream hang below the context and the envelope
  have hprompt : sha256 (tokenMessage bundle.val.promptTokenIds) =
      sha256 (tokenMessage bundle'.val.promptTokenIds) := by
    rw [h.prompt, h'.prompt, hcontext]
  have htokens : sha256 (tokenMessage bundle.val.observedOutput.outputTokenIds) =
      sha256 (tokenMessage bundle'.val.observedOutput.outputTokenIds) := by
    rw [h.tokens, h'.tokens, henvelope]
  have hstream : sha256 (streamMessage bundle.val.observedOutput) =
      sha256 (streamMessage bundle'.val.observedOutput) := by
    rw [h.stream, h'.stream, henvelope]
  rcases eq_or_collide_of_mem (hmem bundle.val _ (by simp)) (hmem bundle'.val _ (by simp)) hprompt with
    hprompt | hcollide
  case inr => exact .inr hcollide
  rcases eq_or_collide_of_mem (hmem bundle.val _ (by simp)) (hmem bundle'.val _ (by simp)) htokens with
    htokens | hcollide
  case inr => exact .inr hcollide
  rcases eq_or_collide_of_mem (hmem bundle.val _ (by simp)) (hmem bundle'.val _ (by simp)) hstream with
    hstream | hcollide
  case inr => exact .inr hcollide
  have hlimits := withinLimits bundle
  have hlimits' := withinLimits bundle'
  have houtput : bundle.val.observedOutput = bundle'.val.observedOutput := by
    obtain ⟨htext, hfinish⟩ := streamMessage_inj hstream
    have hids := tokenMessage_inj hlimits.output_le hlimits'.output_le hlimits.output_lt
      hlimits'.output_lt htokens
    cases hfirst : bundle.val.observedOutput
    cases hsecond : bundle'.val.observedOutput
    rw [hfirst, hsecond] at htext hfinish hids
    rw [ObservedExecutionOutput.mk.injEq]
    exact ⟨hids, htext, hfinish⟩
  exact .inl {
    precommitContext := hcontext
    promptTokenIds := tokenMessage_inj hlimits.prompt_le hlimits'.prompt_le hlimits.prompt_lt
      hlimits'.prompt_lt hprompt
    observedOutput := houtput
    envelope := henvelope
    validatorNonce := hnonce }

/-- Bundles of one execution have decisions of one transcript, and one decision when these name one
kind and one rate. -/
theorem SameExecution.decision {bundle' : HardBundleFields} (hsame : SameExecution bundle bundle')
    (h : Replayed sha256 profile expected bundle) (h' : Replayed sha256 profile expected bundle') :
    SameTranscript bundle.nonceReveal.val.auditDecision.val
        bundle'.nonceReveal.val.auditDecision.val ∧
      (bundle.nonceReveal.val.auditDecision.val.requestKind =
          bundle'.nonceReveal.val.auditDecision.val.requestKind →
        bundle.nonceReveal.val.auditDecision.val.effectiveHardBps =
          bundle'.nonceReveal.val.auditDecision.val.effectiveHardBps →
        bundle.nonceReveal.val.auditDecision = bundle'.nonceReveal.val.auditDecision) := by
  obtain ⟨policy, hkind, hrate, hderives⟩ := h.decision
  obtain ⟨policy', hkind', hrate', hderives'⟩ := h'.decision
  rw [← hsame.envelope, ← hsame.validatorNonce] at hderives'
  obtain ⟨-, -, hdigest⟩ := derivePostcommitAuditDecision_spec hderives
  obtain ⟨-, -, hdigest'⟩ := derivePostcommitAuditDecision_spec hderives'
  refine ⟨⟨?_, h.hard.trans h'.hard.symm, ?_, hdigest.trans hdigest'.symm⟩, fun hk hr => ?_⟩
  · exact (decision_bounds _).1.trans (decision_bounds _).1.symm
  · exact Except.ok.inj ((derive_transcript hderives).symm.trans (derive_transcript hderives'))
  · exact derive_eq_of_kind_of_rate hderives hderives' (hkind'.trans (hk.symm.trans hkind.symm))
      (hrate'.trans (hr.symm.trans hrate.symm))

/-! ## Light sessions -/

variable {issued : IssuedSession}

theorem challengeSession_commitment {qualified : QualifiedExecutionProfile sha256}
    {precommitContext : PreExecutionRequestContext} {budgets : SessionBudgets}
    (h : challengeSession sha256 qualified precommitContext nonce runtimePolicy budgets =
      .ok issued) :
    sha256 (nonceMessage sha256 nonce precommitContext.val.toNonceContext) =
      precommitContext.val.validatorNonceCommitment := by
  simp only [challengeSession, bind_eq_ok, reject_eq_ok, not_not] at h
  obtain ⟨-, -, nonce', hnonce, -, -, -, -, -, -, _, -, -, -, -, -, -, -, nonceContext, hcontext, -,
    hcommitment, -⟩ := h
  obtain rfl : nonce' = nonce := Digest.ext (fixed32Nonzero_eq_ok hnonce)
  obtain rfl := Except.ok.inj ((precommit_digest_eq precommitContext).1.symm.trans hcontext)
  exact hcommitment.symm

/-- A light decision of a session and an accepted bundle of its envelope, which names the kind and the
rate of the decision, collide. -/
theorem light_collides {functions : Functions}
    {qualified : QualifiedExecutionProfile functions.sha256}
    {precommitContext : PreExecutionRequestContext} {budgets : SessionBudgets}
    (hissued : challengeSession functions.sha256 qualified precommitContext nonce runtimePolicy
      budgets = .ok issued) {calls : List SessionCall} {light : PostCommitAuditDecision}
    (hlight : .decided light ∈
      ((TrackedSession.issued issued.nonce).run functions issued.config calls).history)
    (hselected : light.val.hardAuditSelected = false)
    (h : Replayed functions.sha256 qualified.val.profile light.val.commitmentEnvelopeDigest.bytes
      bundle) (hkind : bundle.nonceReveal.val.auditDecision.val.requestKind = light.val.requestKind)
    (hrate : bundle.nonceReveal.val.auditDecision.val.effectiveHardBps =
      light.val.effectiveHardBps) :
    ∃ envelope, EnvelopeBound functions issued.config envelope ∧
      Collide functions.sha256
        (boundMessages functions.sha256 envelope issued.config.precommitContext issued.nonce)
        (bundleMessages functions.sha256 bundle) := by
  obtain ⟨hnonce, hprofile, hpolicy, hcontext, -⟩ := challengeSession_spec hissued
  have hcommitment := challengeSession_commitment hissued
  rw [← hnonce, ← hcontext] at hcommitment
  have hvalid : Valid functions issued.config issued.nonce
      ((TrackedSession.issued issued.nonce).run functions issued.config calls) :=
    valid_run calls .awaiting
  obtain ⟨envelope, hbound, hderives⟩ := hvalid.course.decided hlight
  obtain ⟨-, -, hdigest⟩ := derivePostcommitAuditDecision_spec hderives
  have hprecommit : issued.config.precommitContext.val.digest functions.sha256 = _ :=
    (precommit_digest_eq _).2
  have hboundNonce : BoundNonce functions.sha256 envelope issued.config.precommitContext
      issued.nonce :=
    ⟨Except.ok.inj (hprecommit.symm.trans hbound.precommit), hcommitment⟩
  have hsameDigest : envelope.val.digest functions.sha256 =
      bundle.envelope.val.digest functions.sha256 := by
    refine Digest.ext ?_
    rw [h.envelope, hdigest]
  refine ⟨envelope, hbound, ?_⟩
  rcases bound_eq_or_collide hboundNonce h.bound hsameDigest with ⟨rfl, -, hsameNonce⟩ | hcollide
  case inr => exact hcollide.mono (List.Subset.refl _) (boundMessages_subset bundle)
  -- without a collision the decision of the bundle is the light one
  exfalso
  obtain ⟨rebuilt, hkind', hrate', hderives'⟩ := h.decision
  obtain ⟨-, hlightKind, hlightRate, -⟩ := derive_fields hderives
  rw [← hprofile, ← hsameNonce] at hderives'
  have hsame := derive_eq_of_kind_of_rate hderives hderives'
    (hkind'.trans (hkind.trans hlightKind)) (hrate'.trans (hrate.trans hlightRate))
  have hhard := h.hard
  rw [← hsame, hselected] at hhard
  exact nomatch hhard

/-- An envelope determines the execution of its hard bundles.

For a qualified profile and bundles that the replay accepts under one expected envelope digest,
unless messages collide: the bundles have the same precommit context, prompt tokens, observed output,
envelope and nonce. Their decisions agree on the tier ABI, the tier, the transcript and the envelope,
and are equal when they name one kind and one rate. And unless messages collide, a session that took a
light decision on the envelope has no accepted bundle that names the kind and the rate of the
session. -/
theorem hardBundle_determined {Proof Outcome : Type} (functions : Functions)
    (economic : EconomicProofSystem Proof Outcome)
    (qualified : QualifiedExecutionProfile functions.sha256) (expected expected' : ReplayExpectation)
    (envelopeDigest : Bytes) (hexpected : expected.commitmentEnvelopeDigest = some envelopeDigest)
    (hexpected' : expected'.commitmentEnvelopeDigest = some envelopeDigest)
    (bundle : RetainedHardProofBundle functions.sha256 functions.nfc) (outcome : Outcome)
    (h : verifyRetainedHardProofBundle functions.sha256 functions.nfc economic bundle.val qualified
      expected = .ok outcome) :
    (∀ (bundle' : RetainedHardProofBundle functions.sha256 functions.nfc) (outcome' : Outcome),
      verifyRetainedHardProofBundle functions.sha256 functions.nfc economic bundle'.val qualified
        expected' = .ok outcome' →
      (SameExecution bundle.val bundle'.val ∧
        SameTranscript bundle.val.nonceReveal.val.auditDecision.val
          bundle'.val.nonceReveal.val.auditDecision.val ∧
        (bundle.val.nonceReveal.val.auditDecision.val.requestKind =
            bundle'.val.nonceReveal.val.auditDecision.val.requestKind →
          bundle.val.nonceReveal.val.auditDecision.val.effectiveHardBps =
            bundle'.val.nonceReveal.val.auditDecision.val.effectiveHardBps →
          bundle.val.nonceReveal.val.auditDecision = bundle'.val.nonceReveal.val.auditDecision)) ∨
      Collide functions.sha256 (bundleMessages functions.sha256 bundle.val)
        (bundleMessages functions.sha256 bundle'.val)) ∧
    ∀ (precommitContext : PreExecutionRequestContext) (nonce : Digest)
      (runtimePolicy : RuntimeHardAuditPolicy) (budgets : SessionBudgets) (issued : IssuedSession)
      (calls : List SessionCall) (light : PostCommitAuditDecision),
      challengeSession functions.sha256 qualified precommitContext nonce runtimePolicy budgets =
        .ok issued →
      .decided light ∈
        ((TrackedSession.issued issued.nonce).run functions issued.config calls).history →
      light.val.hardAuditSelected = false →
      light.val.commitmentEnvelopeDigest.bytes = envelopeDigest →
      bundle.val.nonceReveal.val.auditDecision.val.requestKind = light.val.requestKind →
      bundle.val.nonceReveal.val.auditDecision.val.effectiveHardBps = light.val.effectiveHardBps →
      ∃ envelope, EnvelopeBound functions issued.config envelope ∧
        Collide functions.sha256
          (boundMessages functions.sha256 envelope issued.config.precommitContext issued.nonce)
          (bundleMessages functions.sha256 bundle.val) := by
  have hreplayed := verifyRetained_spec hexpected h
  constructor
  · intro bundle' outcome' h'
    have hreplayed' := verifyRetained_spec hexpected' h'
    rcases sameExecution_or_collide hreplayed hreplayed' with hsame | hcollide
    · obtain ⟨htranscript, hdecision⟩ := hsame.decision hreplayed hreplayed'
      exact .inl ⟨hsame, htranscript, hdecision⟩
    · exact .inr hcollide
  · intro precommitContext nonce runtimePolicy budgets issued calls light hissued hlight hselected
      henvelope hkind hrate
    subst henvelope
    exact light_collides hissued hlight hselected hreplayed hkind hrate

/-! ## One envelope, two decisions -/

/-- A hash whose value is the residue of its message. -/
def residueHash (message : Bytes) : Digest :=
  ⟨LittleEndian.toBytes 32 (LittleEndian.toNat message % (2 ^ 256 - 189)),
    LittleEndian.length_toBytes _ _⟩

/-- The functions of a session with this hash. -/
def residueFunctions : Functions where
  sha256 := residueHash
  nfc := id
  verify _ _ := .ok none

/-- A proof system that accepts every proof. -/
def acceptingProofSystem : EconomicProofSystem Unit Unit where
  decode _ := .ok ()
  captureChainDigest _ := []
  verify _ _ := .ok ()

/-- The identities of the small request, with an expected envelope. -/
def smallExpectation (envelopeDigest : Digest) : ReplayExpectation where
  validatorIdentityDigest := (constantDigest 2).bytes
  minerIdentityDigest := (constantDigest 3).bytes
  commitmentEnvelopeDigest := some envelopeDigest.bytes
  captureChainDigest := none

/-- The replay of the bundle of the small request, under a kind and a rate. -/
def smallReplay (qualified : QualifiedExecutionProfile residueHash) (requestKind : RequestKind)
    (effectiveOrganicHardBps : ℕ) : Result (RetainedHardProofBundle residueHash id) := do
  let bundle ← smallBundle residueHash id requestKind effectiveOrganicHardBps
  let envelope ← smallEnvelope residueHash id
  verifyRetainedHardProofBundle residueHash id acceptingProofSystem bundle.val qualified
    (smallExpectation (envelope.val.digest residueHash))
  return bundle

/-- The small economic profile, qualified under the hash. -/
def smallQualification : Result (QualifiedExecutionProfile residueHash) := do
  let profileDigest ← (smallEconomicProfile economicSelectionAbi).val.digest residueHash
  construct (QualifiedProfileFields.validateQualification residueHash)
    (smallEconomicQualification profileDigest)

/-- The tier that a session of the small request takes, when it is called to accept the envelope
and to choose. -/
def smallSession (qualified : QualifiedExecutionProfile residueHash)
    (effectiveOrganicHardBps : ℕ) : Result (IssuedSession × TrackedSession) := do
  let contexts ← smallContexts residueHash
  let envelope ← smallEnvelope residueHash id
  let runtimePolicy ← smallRuntimePolicy .organic effectiveOrganicHardBps
  let issued ← challengeSession residueHash qualified contexts.precommitContext contexts.nonce
    runtimePolicy ⟨1000, 1000, none⟩
  return (issued, (TrackedSession.issued issued.nonce).run residueFunctions issued.config
    [.acceptPrecommitBytes envelope.val.canonicalBytes (some smallOutput) 1 2,
      .selectAuditTierOnce 3])

/-- The light decision that a history ends with. -/
def lightDecision : List SessionEvent → Result PostCommitAuditDecision
  | .decided light :: _ => do
    reject light.val.hardAuditSelected "the session took a hard decision"
    return light
  | _ => .error (verificationError "the session took no decision")

theorem lightDecision_eq_ok {history : List SessionEvent} {light : PostCommitAuditDecision}
    (h : lightDecision history = .ok light) :
    .decided light ∈ history ∧ light.val.hardAuditSelected = false := by
  unfold lightDecision at h
  split at h
  · rename_i decision older
    simp only [bind_eq_ok, reject_eq_ok, pure_eq_ok] at h
    obtain ⟨-, hlight, rfl⟩ := h
    exact ⟨List.mem_cons_self, by simpa using hlight⟩
  · cases h

/-- The bundles of the small request as an organic and as a canary request, with the light decision
of a session at an organic rate of 1000 basis points. -/
def smallDisagreement : Result (QualifiedExecutionProfile residueHash ×
    RetainedHardProofBundle residueHash id × RetainedHardProofBundle residueHash id) := do
  let envelope ← smallEnvelope residueHash id
  let qualified ← smallQualification
  let organic ← smallReplay qualified .organic 10000
  let canary ← smallReplay qualified .canary 10000
  reject (organic.val.nonceReveal.val.auditDecision = canary.val.nonceReveal.val.auditDecision)
    "the decisions are the same"
  reject (∃ m ∈ bundleMessages residueHash organic.val, ∃ m' ∈ bundleMessages residueHash canary.val,
    m ≠ m' ∧ residueHash m = residueHash m') "the messages collide"
  let (_, tracked) ← smallSession qualified 1000
  let light ← lightDecision tracked.history
  reject (light.val.commitmentEnvelopeDigest ≠ envelope.val.digest residueHash)
    "the session decided on another envelope"
  return (qualified, organic, canary)

theorem smallReplay_eq_ok {qualified : QualifiedExecutionProfile residueHash}
    {requestKind : RequestKind} {effectiveOrganicHardBps : ℕ}
    {bundle : RetainedHardProofBundle residueHash id}
    (h : smallReplay qualified requestKind effectiveOrganicHardBps = .ok bundle) :
    ∃ envelope, smallEnvelope residueHash id = .ok envelope ∧
      verifyRetainedHardProofBundle residueHash id acceptingProofSystem bundle.val qualified
        (smallExpectation (envelope.val.digest residueHash)) = .ok () := by
  simp only [smallReplay, bind_eq_ok, pure_eq_ok] at h
  obtain ⟨_, -, envelope, henvelope, _, hverify, rfl⟩ := h
  exact ⟨envelope, henvelope, hverify⟩

theorem smallSession_eq_ok {qualified : QualifiedExecutionProfile residueHash}
    {effectiveOrganicHardBps : ℕ} {tracked : TrackedSession}
    (h : smallSession qualified effectiveOrganicHardBps = .ok (issued, tracked)) :
    ∃ precommitContext nonce runtimePolicy budgets calls,
      challengeSession residueHash qualified precommitContext nonce runtimePolicy budgets =
        .ok issued ∧
      (TrackedSession.issued issued.nonce).run residueFunctions issued.config calls = tracked := by
  simp only [smallSession, bind_eq_ok, pure_eq_ok] at h
  obtain ⟨contexts, -, _, -, runtimePolicy, -, _, hissued, heq⟩ := h
  obtain ⟨rfl, htracked⟩ := Prod.mk.inj heq
  exact ⟨_, _, _, _, _, hissued, htracked⟩

/-- Both bundles are replayed under the digest of the envelope, and the session decided on it. -/
theorem exists_smallDisagreement : ∃ (qualified : QualifiedExecutionProfile residueHash)
    (envelope : ProofV3CommitmentEnvelope) (organic canary : RetainedHardProofBundle residueHash id),
    (verifyRetainedHardProofBundle residueHash id acceptingProofSystem organic.val qualified
        (smallExpectation (envelope.val.digest residueHash)) = .ok () ∧
      verifyRetainedHardProofBundle residueHash id acceptingProofSystem canary.val qualified
        (smallExpectation (envelope.val.digest residueHash)) = .ok ()) ∧
    organic.val.nonceReveal.val.auditDecision ≠ canary.val.nonceReveal.val.auditDecision ∧
    ¬ Collide residueHash (bundleMessages residueHash organic.val)
      (bundleMessages residueHash canary.val) ∧
    ∃ issued tracked light, smallSession qualified 1000 = .ok (issued, tracked) ∧
      lightDecision tracked.history = .ok light ∧
      light.val.commitmentEnvelopeDigest = envelope.val.digest residueHash := by
  have haccepts : Accepts smallDisagreement := by
    decide +kernel
  obtain ⟨_, h⟩ := haccepts
  simp only [smallDisagreement, bind_eq_ok, reject_eq_ok, not_not] at h
  obtain ⟨envelope, henvelope, qualified, -, organic, horganic, canary, hcanary, _, hdecisions, _,
    hcollide, ⟨issued, tracked⟩, hsession, light, hlight, _, hdigest, -⟩ := h
  obtain ⟨_, hfirst, horganic⟩ := smallReplay_eq_ok horganic
  obtain rfl := Except.ok.inj (hfirst.symm.trans henvelope)
  obtain ⟨_, hsecond, hcanary⟩ := smallReplay_eq_ok hcanary
  obtain rfl := Except.ok.inj (hsecond.symm.trans henvelope)
  exact ⟨qualified, _, organic, canary, ⟨horganic, hcanary⟩, hdecisions, hcollide, issued, tracked,
    light, hsession, hlight, hdigest⟩

/-- Two bundles of one envelope are replayed with different decisions, without a collision of their
messages, and a session of the same request took a light decision on that envelope. -/
theorem hardBundle_not_determined :
    ∃ (qualified : QualifiedExecutionProfile residueHash) (envelopeDigest : Digest)
      (organic canary : RetainedHardProofBundle residueHash id),
      verifyRetainedHardProofBundle residueHash id acceptingProofSystem organic.val qualified
        (smallExpectation envelopeDigest) = .ok () ∧
      verifyRetainedHardProofBundle residueHash id acceptingProofSystem canary.val qualified
        (smallExpectation envelopeDigest) = .ok () ∧
      organic.val.nonceReveal.val.auditDecision ≠ canary.val.nonceReveal.val.auditDecision ∧
      ¬ Collide residueHash (bundleMessages residueHash organic.val)
        (bundleMessages residueHash canary.val) ∧
      ∃ (precommitContext : PreExecutionRequestContext) (nonce : Digest)
        (runtimePolicy : RuntimeHardAuditPolicy) (budgets : SessionBudgets)
        (issued : IssuedSession) (calls : List SessionCall) (light : PostCommitAuditDecision),
        challengeSession residueHash qualified precommitContext nonce runtimePolicy budgets =
          .ok issued ∧
        .decided light ∈
          ((TrackedSession.issued issued.nonce).run residueFunctions issued.config calls).history ∧
        light.val.hardAuditSelected = false ∧
        light.val.commitmentEnvelopeDigest = envelopeDigest := by
  obtain ⟨qualified, envelope, organic, canary, ⟨horganic, hcanary⟩, hdecisions, hcollide, issued,
    tracked, light, hsession, hlight, hdigest⟩ := exists_smallDisagreement
  obtain ⟨precommitContext, nonce, runtimePolicy, budgets, calls, hissued, rfl⟩ :=
    smallSession_eq_ok hsession
  obtain ⟨hdecided, hselected⟩ := lightDecision_eq_ok hlight
  exact ⟨qualified, envelope.val.digest residueHash, organic, canary, horganic, hcanary, hdecisions,
    hcollide, precommitContext, nonce, runtimePolicy, budgets, issued, calls, light, hissued,
    hdecided, hselected, hdigest⟩

/-- The bundles of the small request as an organic and as a canary request hold one execution. -/
theorem hardBundle_determined_small :
    ∃ (qualified : QualifiedExecutionProfile residueHash) (envelopeDigest : Digest)
      (organic canary : RetainedHardProofBundle residueHash id),
      verifyRetainedHardProofBundle residueHash id acceptingProofSystem organic.val qualified
        (smallExpectation envelopeDigest) = .ok () ∧
      verifyRetainedHardProofBundle residueHash id acceptingProofSystem canary.val qualified
        (smallExpectation envelopeDigest) = .ok () ∧
      SameExecution organic.val canary.val := by
  obtain ⟨qualified, envelope, organic, canary, ⟨horganic, hcanary⟩, -, hcollide, -⟩ :=
    exists_smallDisagreement
  refine ⟨qualified, envelope.val.digest residueHash, organic, canary, horganic, hcanary, ?_⟩
  rcases (hardBundle_determined residueFunctions acceptingProofSystem qualified
    (smallExpectation (envelope.val.digest residueHash))
    (smallExpectation (envelope.val.digest residueHash)) _ rfl rfl organic () horganic).1 canary ()
    hcanary with ⟨hsame, -⟩ | hcollision
  · exact hsame
  · exact absurd hcollision hcollide

end Verathos.ProofV3
