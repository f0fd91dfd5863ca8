import Verathos.ProofV3.HardBundle

/-!
# The frame of a hard bundle

The frame of a bundle nests the frames of its parts, and every limit that the decoder puts on a
length is one that the constructor of the part or of the bundle has checked.

* `hardBundle_roundTrip`: an encoded bundle is decoded;
* `encode_of_hardBundle`: what is decoded was encoded, and so were its parts;
* `replayedDecision_eq`: the policy that is rebuilt from a reveal gives the decision of the reveal;
* `hardBundle_wire`: all of it.
-/

namespace Verathos.ProofV3

open ByteReader
open PrefixCache (Constructed construct construct_eq_ok packI u32 positiveU32)
open Receipts (utf8 fromUtf8_eq_some)

variable {sha256 : Bytes → Digest} {nfc : String → String}

/-! ## The fields of a bundle -/

/-- What the constructor checks on the lengths of a bundle. -/
structure WithinLimits (bundle : HardBundleFields) : Prop where
  prompt_ne : bundle.promptTokenIds.length ≠ 0
  prompt_le : bundle.promptTokenIds.length ≤ maxHardBundleTokenIds
  prompt_lt : ∀ token ∈ bundle.promptTokenIds, token < 2 ^ 32
  output_ne : bundle.observedOutput.outputTokenIds.length ≠ 0
  output_le : bundle.observedOutput.outputTokenIds.length ≤ maxHardBundleTokenIds
  output_lt : ∀ token ∈ bundle.observedOutput.outputTokenIds, token < 2 ^ 32
  text_le : bundle.observedOutput.emittedTextUtf8.length ≤ maxOutputStreamBytes
  finish_pos : 0 < (utf8 bundle.observedOutput.finishReason).length
  finish_le : (utf8 bundle.observedOutput.finishReason).length ≤ maxFinishReasonBytes
  proof_pos : 0 < bundle.encodedProof.length
  proof_le : bundle.encodedProof.length ≤ maxEconomicTransportBytes

theorem bundleTokenIds_eq_ok {values : List ℕ} {name : String} {u : Unit}
    (h : bundleTokenIds values name = .ok u) :
    values.length ≠ 0 ∧ values.length ≤ maxHardBundleTokenIds ∧ ∀ value ∈ values, value < 2 ^ 32 := by
  simp only [bundleTokenIds, bind_eq_ok, reject_eq_ok, exists_const, not_or, not_lt] at h
  obtain ⟨⟨hle, hne⟩, hloop⟩ := h
  refine ⟨hne, hle, fun value hvalue => ?_⟩
  obtain ⟨index, hindex⟩ := List.mem_iff_getElem?.mp hvalue
  have hmem : (value, index) ∈ values.zipIdx := List.mk_mem_zipIdx_iff_getElem?.mpr hindex
  obtain ⟨_, hcheck⟩ := forM_accepts_iff.mp ⟨u, hloop⟩ _ hmem
  exact not_le.mp (reject_eq_ok.mp hcheck)

variable (bundle : RetainedHardProofBundle sha256 nfc)

theorem withinLimits : WithinLimits bundle.val := by
  have h := bundle.property
  simp only [HardBundleFields.postInit, bind_eq_ok, reject_eq_ok, not_or, not_lt, not_not,
    gt_iff_lt] at h
  obtain ⟨_, hprompt, _, houtput, -, htext, -, ⟨hfinish, hfinishLe⟩, -, ⟨hproof, hproofLe⟩, -⟩ := h
  obtain ⟨hpromptNe, hpromptLe, hpromptLt⟩ := bundleTokenIds_eq_ok hprompt
  obtain ⟨houtputNe, houtputLe, houtputLt⟩ := bundleTokenIds_eq_ok houtput
  exact ⟨hpromptNe, hpromptLe, hpromptLt, houtputNe, houtputLe, houtputLt, htext, hfinish, hfinishLe,
    List.length_pos_of_ne_nil hproof, hproofLe⟩

/-! ## Round trip -/

theorem reads_header {lengths : BundleLengths} (h : lengths.precommitLen < 2 ^ 32)
    (henvelope : lengths.envelopeLen < 2 ^ 32) (hreveal : lengths.revealLen < 2 ^ 32)
    (hprompt : lengths.promptCount < 2 ^ 32) (houtput : lengths.outputCount < 2 ^ 32)
    (htext : lengths.textLen < 2 ^ 32) (hfinish : lengths.finishLen < 2 ^ 32)
    (hproof : lengths.proofLen < 2 ^ 32) : Reads readBundleHeader lengths.header lengths := by
  have hmagic : (asciiBytes "V3HB").length = 4 := rfl
  refine (reads_upTo hmagic).bind ((reads_takeUnsigned (by norm_num)).bind
    ((reads_takeUnsigned (by norm_num)).bind ((reads_packI h).bind ((reads_packI henvelope).bind
    ((reads_packI hreveal).bind ((reads_packI hprompt).bind ((reads_packI houtput).bind
    ((reads_packI htext).bind ((reads_packI hfinish).bind ((reads_packI hproof).bind_nil ?_))))))))))
  exact (Reads.lift (a := ()) (reject_eq_ok.mpr (by simp))).bind_nil (Reads.pure lengths)

theorem reads_tokens {tokens : List ℕ} (h : ∀ token ∈ tokens, token < 2 ^ 32) :
    Reads (times (takeUnsigned 4) tokens.length) (tokens.flatMap packI) tokens := by
  have htokens : List.Forall₂ (fun token bytes => Reads (takeUnsigned 4) bytes token) tokens
      (tokens.map packI) := by
    rw [List.forall₂_map_right_iff, List.forall₂_same]
    exact fun token htoken => reads_packI (h token htoken)
  have hreads := reads_times (g := id) htokens
  rwa [List.map_id, ← List.flatMap_def] at hreads

theorem decodeFinishReason_utf8 (text : String) : decodeFinishReason (utf8 text) = .ok text := by
  have h : String.fromUTF8? ⟨(utf8 text).toArray⟩ = some text := fromUtf8_eq_some.mpr rfl
  rw [decodeFinishReason, h]

theorem length_tokens (tokens : List ℕ) : (tokens.flatMap packI).length = 4 * tokens.length := by
  induction tokens with
  | nil => rfl
  | cons token tokens ih =>
    have hwidth : (packI token).length = 4 := LittleEndian.length_toBytes 4 token
    rw [List.flatMap_cons, List.length_append, ih, hwidth, List.length_cons]
    ring

theorem length_header (lengths : BundleLengths) : lengths.header.length = bundleHeaderSize := by
  simp only [BundleLengths.header, packI, List.length_append, LittleEndian.length_toBytes]
  rfl

theorem length_precommit (context : PrecommitContextFields) :
    context.canonicalBytes.length = preexecutionContextBytes := by
  simp only [PrecommitContextFields.canonicalBytes, packI, List.length_append, Digest.length_eq,
    LittleEndian.length_toBytes]
  rfl

theorem reads_bundleFields {reveal : Bytes}
    (hreveal : nonceRevealFromBytes reveal = .ok bundle.val.nonceReveal) (lengths : BundleLengths)
    (hprecommit : bundle.val.precommitContext.val.canonicalBytes.length = lengths.precommitLen)
    (henvelope : bundle.val.envelope.val.canonicalBytes.length = lengths.envelopeLen)
    (hrevealLen : reveal.length = lengths.revealLen)
    (hprompt : bundle.val.promptTokenIds.length = lengths.promptCount)
    (houtput : bundle.val.observedOutput.outputTokenIds.length = lengths.outputCount)
    (htext : bundle.val.observedOutput.emittedTextUtf8.length = lengths.textLen)
    (hfinish : (utf8 bundle.val.observedOutput.finishReason).length = lengths.finishLen)
    (hproof : bundle.val.encodedProof.length = lengths.proofLen) :
    Reads (readBundleFields lengths) (bundle.val.precommitContext.val.canonicalBytes ++
      (bundle.val.envelope.val.canonicalBytes ++ (reveal ++
      (bundle.val.promptTokenIds.flatMap packI ++
      (bundle.val.observedOutput.outputTokenIds.flatMap packI ++
      (bundle.val.observedOutput.emittedTextUtf8 ++
      (utf8 bundle.val.observedOutput.finishReason ++ bundle.val.encodedProof))))))) bundle.val := by
  have hlimits := withinLimits bundle
  have hpromptTokens := reads_tokens hlimits.prompt_lt
  have houtputTokens := reads_tokens hlimits.output_lt
  rw [hprompt] at hpromptTokens
  rw [houtput] at houtputTokens
  refine (reads_upTo hprecommit).bind (Reads.lift_bind (precommit_roundTrip _) ?_)
  refine (reads_upTo henvelope).bind (Reads.lift_bind (envelope_roundTrip _).2 ?_)
  refine (reads_upTo hrevealLen).bind (Reads.lift_bind hreveal ?_)
  refine hpromptTokens.bind (houtputTokens.bind ((reads_upTo htext).bind ?_))
  refine (reads_upTo hfinish).bind (Reads.lift_bind (decodeFinishReason_utf8 _) ?_)
  exact (reads_upTo hproof).bind_pure

variable {encoded : Bytes}

theorem hardBundle_roundTrip (h : bundle.val.canonicalBytes = .ok encoded) :
    hardBundleFromBytes sha256 nfc encoded = .ok bundle := by
  have hlimits := withinLimits bundle
  obtain ⟨reveal, hreveal, hrevealLength, hrevealDecode⟩ := reveal_roundTrip bundle.val.nonceReveal
  have hprecommitLength := length_precommit bundle.val.precommitContext.val
  obtain ⟨henvelopeLength, -⟩ := envelope_roundTrip bundle.val.envelope
  have hencode := h
  simp only [HardBundleFields.canonicalBytes, hreveal, bind_eq_ok, reject_eq_ok, pure_eq_ok,
    Except.ok.injEq, exists_eq_left', exists_const, not_lt, gt_iff_lt] at h
  obtain ⟨hsize, hencoded⟩ := h
  set lengths : BundleLengths := ⟨bundle.val.precommitContext.val.canonicalBytes.length,
    bundle.val.envelope.val.canonicalBytes.length, reveal.length,
    bundle.val.promptTokenIds.length, bundle.val.observedOutput.outputTokenIds.length,
    bundle.val.observedOutput.emittedTextUtf8.length,
    (utf8 bundle.val.observedOutput.finishReason).length, bundle.val.encodedProof.length⟩ with hlengths
  have hfields := reads_bundleFields bundle hrevealDecode lengths rfl rfl rfl rfl rfl rfl rfl rfl
  set body := bundle.val.precommitContext.val.canonicalBytes ++
      (bundle.val.envelope.val.canonicalBytes ++ (reveal ++
      (bundle.val.promptTokenIds.flatMap packI ++
      (bundle.val.observedOutput.outputTokenIds.flatMap packI ++
      (bundle.val.observedOutput.emittedTextUtf8 ++
      (utf8 bundle.val.observedOutput.finishReason ++ bundle.val.encodedProof)))))) with hbody
  have hrun := hfields []
  rw [List.append_nil] at hrun
  obtain ⟨hpromptNe, hpromptLe, -, houtputNe, houtputLe, -, htextLe, hfinishPos, hfinishLe, hproofPos,
    hproofLe⟩ := hlimits
  simp only [maxHardBundleTokenIds, maxOutputStreamBytes, maxFinishReasonBytes,
    maxEconomicTransportBytes, preexecutionContextBytes] at *
  have hheader : Reads readBundleHeader lengths.header lengths := by
    apply reads_header <;> simp only [hlengths] <;> omega
  have hcheck : lengths.check = .ok () := by
    simp only [BundleLengths.check, reject_eq_ok, hlengths, maxHardBundleTokenIds,
      maxOutputStreamBytes, maxFinishReasonBytes, maxEconomicTransportBytes, maxNonceRevealBytes]
    omega
  have htotal : lengths.total = encoded.length := by
    simp only [BundleLengths.total, hlengths, ← hencoded, hbody, List.length_append, length_header,
      length_tokens]
    ring
  subst hencoded
  simp only [hardBundleFromBytes, bind_eq_ok, reject_eq_ok, pure_eq_ok, construct_eq_ok,
    hheader body, hcheck, htotal, hrun, Except.ok.injEq, exists_eq_left', not_not, not_or, not_lt,
    gt_iff_lt]
  refine ⟨(), ⟨?_, hsize⟩, (), trivial, (), trivial, (), trivial, bundle, rfl, _,
    hencode, (), rfl, rfl⟩
  rw [List.length_append, length_header]
  exact Nat.le_add_right _ _

theorem encode_of_hardBundle {bundle : RetainedHardProofBundle sha256 nfc}
    (h : hardBundleFromBytes sha256 nfc encoded = .ok bundle) :
    bundle.val.canonicalBytes = .ok encoded := by
  simp only [hardBundleFromBytes, bind_eq_ok, reject_eq_ok, pure_eq_ok, not_not] at h
  obtain ⟨-, -, _, -, -, -, -, -, _, -, -, -, result, -, canonical, hcanonical, -, rfl, rfl⟩ := h
  exact hcanonical

theorem nested_of_encode {bundle : RetainedHardProofBundle sha256 nfc}
    (h : bundle.val.canonicalBytes = .ok encoded) :
    ∃ header frame rest, encoded = header ++ (bundle.val.precommitContext.val.canonicalBytes ++
        (bundle.val.envelope.val.canonicalBytes ++ ((revealHeader ++ (frame ++
          bundle.val.nonceReveal.val.auditDecision.val.canonicalBytes)) ++ rest))) ∧
      bundle.val.nonceReveal.val.canonicalBytes = .ok (revealHeader ++ (frame ++
        bundle.val.nonceReveal.val.auditDecision.val.canonicalBytes)) := by
  obtain ⟨frame, hreveal, -, -⟩ := reads_readRevealFrame bundle.val.nonceReveal
  simp only [HardBundleFields.canonicalBytes, hreveal, bind_eq_ok, reject_eq_ok, pure_eq_ok,
    Except.ok.injEq, exists_eq_left'] at h
  obtain ⟨-, -, rfl⟩ := h
  exact ⟨_, frame, _, rfl, hreveal⟩

/-! ## The replayed decision -/

section Replay

variable {validatorNonce : Digest} {profile : ExecutionSecurityProfile}
  {envelope : ProofV3CommitmentEnvelope} {runtimePolicy rebuilt : RuntimeHardAuditPolicy}

variable {decision : PostCommitAuditDecision}

/-- A decision reads the kind, the rate and the tier ABI of the policy, and nothing else of it. -/
theorem derive_congr (hkind : rebuilt.val.requestKind = runtimePolicy.val.requestKind)
    (hrate : rebuilt.val.effectiveHardBps = runtimePolicy.val.effectiveHardBps)
    (habi : rebuilt.val.tierSelectionAbiId = runtimePolicy.val.tierSelectionAbiId)
    (hvalid : profile.val.relationSpec.val.auditPolicy.val.validateRuntime rebuilt.val = .ok ())
    (h : derivePostcommitAuditDecision sha256 validatorNonce profile envelope runtimePolicy =
      .ok decision) :
    derivePostcommitAuditDecision sha256 validatorNonce profile envelope rebuilt = .ok decision := by
  have hcandidate : ∀ seed rate, tierCandidate sha256 seed rebuilt.val rate =
      tierCandidate sha256 seed runtimePolicy.val rate := by
    intro seed rate
    funext counter
    rw [tierCandidate, tierCandidate, hkind, habi]
  simp only [derivePostcommitAuditDecision, auditTierDrawBasisPoint,
    auditTierDrawFromPrecommitContext, hcandidate, hkind, hrate, habi, bind_eq_ok] at h ⊢
  obtain ⟨-, -, hrest⟩ := h
  exact ⟨(), hvalid, hrest⟩

theorem derive_fields
    (h : derivePostcommitAuditDecision sha256 validatorNonce profile envelope runtimePolicy =
      .ok decision) :
    profile.val.relationSpec.val.auditPolicy.val.validateRuntime runtimePolicy.val = .ok () ∧
      decision.val.requestKind = runtimePolicy.val.requestKind ∧
      decision.val.effectiveHardBps = runtimePolicy.val.effectiveHardBps ∧
      decision.val.tierSelectionAbiId = runtimePolicy.val.tierSelectionAbiId := by
  simp only [derivePostcommitAuditDecision, bind_eq_ok, construct_eq_ok] at h
  obtain ⟨⟨⟩, hvalid, transcriptDigest, -, draw, -, hfields⟩ := h
  rw [hfields]
  exact ⟨hvalid, rfl, rfl, rfl⟩

theorem rebuilt_effectiveHardBps (signed : HardAuditPolicyFields) (decision : AuditDecisionFields) :
    (rebuiltPolicyFields signed decision).effectiveHardBps = decision.effectiveHardBps := by
  rw [RuntimePolicyFields.effectiveHardBps]
  cases hkind : decision.requestKind <;> simp [rebuiltPolicyFields, hkind]

theorem rebuilt_postInit (signed : HardAuditPolicy) (decision : PostCommitAuditDecision) :
    (rebuiltPolicyFields signed.val decision.val).postInit = .ok () := by
  obtain ⟨-, hrate, -⟩ := decision_bounds decision
  have hsigned := signed.property
  simp only [HardAuditPolicyFields.postInit, u32, positiveU32, bind_eq_ok, raiseIf_eq_ok,
    exists_const, not_or] at hsigned
  obtain ⟨-, -, -, ⟨hprobation, hprobationLt⟩, -, -, -, -, -, horganic, hcanary, -⟩ := hsigned
  simp only [RuntimePolicyFields.postInit, u32, positiveU32, bind_eq_ok, raiseIf_eq_ok, exists_const,
    not_or]
  cases hkind : decision.val.requestKind
  all_goals
    simp only [rebuiltPolicyFields, hkind]
    exact ⟨by omega, by omega, ⟨hprobation, hprobationLt⟩, by omega, by omega⟩

theorem rebuilt_validateRuntime {signed : HardAuditPolicyFields} {decision : AuditDecisionFields}
    (hvalid : signed.validateRuntime runtimePolicy.val = .ok ())
    (hkind : decision.requestKind = runtimePolicy.val.requestKind)
    (hrate : decision.effectiveHardBps = runtimePolicy.val.effectiveHardBps) :
    signed.validateRuntime (rebuiltPolicyFields signed decision) = .ok () := by
  simp only [HardAuditPolicyFields.validateRuntime, bind_eq_ok, raiseIf_eq_ok, exists_const,
    not_not, not_and] at hvalid ⊢
  obtain ⟨-, -, -, horganic, hcanary, -, hfull⟩ := hvalid
  rw [RuntimePolicyFields.effectiveHardBps, ← hkind] at hrate
  rw [← hkind] at hfull
  cases hcase : decision.requestKind
  case organic =>
    rw [hcase, if_neg (by decide)] at hrate
    simp only [rebuiltPolicyFields, hcase]
    exact ⟨trivial, trivial, trivial, by omega, by omega, by omega, by simp⟩
  case canary =>
    rw [hcase, if_pos rfl] at hrate
    have hrateFull := hfull hcase
    simp only [rebuiltPolicyFields, hcase]
    exact ⟨trivial, trivial, trivial, by omega, by omega, by omega, fun _ => by omega⟩

theorem replayedDecision_eq
    (h : derivePostcommitAuditDecision sha256 validatorNonce profile envelope runtimePolicy =
      .ok decision) {reveal : NonceReveal} (hreveal : reveal.val.auditDecision = decision) :
    ∃ rebuilt, runtimePolicyFromNonceReveal profile reveal = .ok rebuilt ∧
      profile.val.relationSpec.val.auditPolicy.val.validateRuntime rebuilt.val = .ok () ∧
      derivePostcommitAuditDecision sha256 validatorNonce profile envelope rebuilt =
        .ok decision := by
  obtain ⟨hvalid, hkind, hrate, habi⟩ := derive_fields h
  obtain ⟨htierAbi, -⟩ := validateRuntime_spec hvalid
  set signed := profile.val.relationSpec.val.auditPolicy
  have hrebuilt := rebuilt_validateRuntime hvalid hkind hrate
  refine ⟨⟨_, rebuilt_postInit signed decision⟩, ?_, hrebuilt, derive_congr hkind ?_ ?_ hrebuilt h⟩
  · simp only [runtimePolicyFromNonceReveal, hreveal, bind_eq_ok, construct_eq_ok, pure_eq_ok]
    exact ⟨_, rfl, (), hrebuilt, rfl⟩
  · exact (rebuilt_effectiveHardBps _ _).trans hrate
  · exact (validateRuntime_spec hrebuilt).1.trans htierAbi.symm

end Replay

/-! ## The frame is exact -/

theorem reject_return {α : Type} (condition : Prop) [Decidable condition] (message : String)
    (value : α) : (do reject condition message; return value) =
      if condition then .error (verificationError message) else Except.ok (ε := PyError) value := by
  rw [reject, raiseIf]
  split_ifs
  · rfl
  · rfl

theorem canonicalBytes_eq :
    ∃ encoded, bundle.val.canonicalBytes =
      if encoded.length > maxHardBundleBytes then
        .error (verificationError "retained hard bundle exceeds its byte limit")
      else .ok encoded := by
  obtain ⟨reveal, hreveal, -, -⟩ := reveal_roundTrip bundle.val.nonceReveal
  rw [HardBundleFields.canonicalBytes, hreveal]
  exact ⟨_, reject_return _ _ _⟩

/-- The frame of a hard bundle is exact, and its decision is replayed.

Every bundle has a frame; when that is not too long, the bundle is encoded as it and decoded from it.
Every accepted byte string is the encoding of its result, and contains the encodings of the precommit
context, of the envelope, and of the reveal with its decision; the decoders of these parts accept
encodings only. And the policy that is rebuilt from a reveal is accepted and leads to a decision with
the same bytes, when the decision was derived under a policy that the profile accepts. -/
theorem hardBundle_wire (sha256 : Bytes → Digest) (nfc : String → String) :
    (∀ bundle : RetainedHardProofBundle sha256 nfc, ∃ encoded,
      (bundle.val.canonicalBytes = if encoded.length > maxHardBundleBytes then
        .error (verificationError "retained hard bundle exceeds its byte limit") else .ok encoded) ∧
      (encoded.length ≤ maxHardBundleBytes →
        hardBundleFromBytes sha256 nfc encoded = .ok bundle)) ∧
    (∀ encoded bundle, hardBundleFromBytes sha256 nfc encoded = .ok bundle →
      bundle.val.canonicalBytes = .ok encoded ∧
      ∃ header frame rest, encoded = header ++ (bundle.val.precommitContext.val.canonicalBytes ++
          (bundle.val.envelope.val.canonicalBytes ++ ((revealHeader ++ (frame ++
            bundle.val.nonceReveal.val.auditDecision.val.canonicalBytes)) ++ rest))) ∧
        bundle.val.nonceReveal.val.canonicalBytes = .ok (revealHeader ++ (frame ++
          bundle.val.nonceReveal.val.auditDecision.val.canonicalBytes))) ∧
    ((∀ encoded context, precommitContextFromBytes encoded = .ok context →
        context.val.canonicalBytes = encoded) ∧
      (∀ encoded envelope, commitmentEnvelopeFromBytes encoded = .ok envelope →
        envelope.val.canonicalBytes = encoded) ∧
      (∀ encoded decision, auditDecisionFromBytes encoded = .ok decision →
        decision.val.canonicalBytes = encoded) ∧
      ∀ encoded reveal, nonceRevealFromBytes encoded = .ok reveal →
        reveal.val.canonicalBytes = .ok encoded) ∧
    ∀ (validatorNonce : Digest) (profile : ExecutionSecurityProfile)
      (envelope : ProofV3CommitmentEnvelope) (runtimePolicy : RuntimeHardAuditPolicy)
      (decision : PostCommitAuditDecision) (reveal : NonceReveal),
      derivePostcommitAuditDecision sha256 validatorNonce profile envelope runtimePolicy =
        .ok decision →
      reveal.val.auditDecision = decision →
      ∃ rebuilt replayed, runtimePolicyFromNonceReveal profile reveal = .ok rebuilt ∧
        profile.val.relationSpec.val.auditPolicy.val.validateRuntime rebuilt.val = .ok () ∧
        derivePostcommitAuditDecision sha256 validatorNonce profile envelope rebuilt =
          .ok replayed ∧
        replayed.val.canonicalBytes = decision.val.canonicalBytes := by
  refine ⟨fun bundle => ?_, fun encoded bundle h => ?_, ?_, ?_⟩
  · obtain ⟨encoded, hencoded⟩ := canonicalBytes_eq bundle
    refine ⟨encoded, hencoded, fun hle => hardBundle_roundTrip bundle ?_⟩
    rw [hencoded, if_neg (not_lt.mpr hle)]
  · have hencode := encode_of_hardBundle h
    exact ⟨hencode, nested_of_encode hencode⟩
  · exact ⟨fun _ _ => encode_of_precommit, fun _ _ => encode_of_envelope,
      fun _ _ => encode_of_decision, fun _ _ => encode_of_reveal⟩
  · intro validatorNonce profile envelope runtimePolicy decision reveal h hreveal
    obtain ⟨rebuilt, hrebuilt, hvalid, hreplayed⟩ := replayedDecision_eq h hreveal
    exact ⟨rebuilt, decision, hrebuilt, hvalid, hreplayed, rfl⟩

/-! ## A small bundle -/

section Small

variable (sha256 : Bytes → Digest) (nfc : String → String)

/-- The qualification of the small economic profile, with its digest. -/
def smallEconomicQualification (profileDigest : Digest) : QualifiedProfileFields where
  profile := smallEconomicProfile economicSelectionAbi
  expectedStaticManifestDigest := constantDigest 1
  expectedExecutionProfileDigest := profileDigest
  registration := .economic
  verifiedSigners := [[0]]

/-- A runtime policy of the small economic profile. -/
def smallRuntimePolicy (requestKind : RequestKind) (effectiveOrganicHardBps : ℕ) :
    Result RuntimeHardAuditPolicy :=
  construct RuntimePolicyFields.postInit {
    requestKind
    effectiveOrganicHardBps
    effectiveCanaryHardBps := 10000
    effectiveProbationFailures := 1
    nonceSelectionAbiId := postcommitGlobalNonceAbi
    tierSelectionAbiId := postcommitAuditTierAbi
    selectionAbiId := economicSelectionAbi }

/-- The contexts of a request for one token. -/
def smallContexts : Result IssueAttempt := do
  let profileDigest ← (smallEconomicProfile economicSelectionAbi).val.digest sha256
  let leased : LeasedRequest :=
    ⟨⟨constantDigest 1, constantDigest 2, constantDigest 3, [5], constantDigest 4⟩, constantDigest 5⟩
  let nonceContext ← leased.nonceContextDigest sha256 (constantDigest 1) profileDigest
  attemptContexts sha256 (smallEconomicQualification profileDigest) leased nonceContext
    (constantDigest 7)

/-- The output of the request. -/
def smallOutput : ObservedExecutionOutput := ⟨[5], [], "stop"⟩

/-- The envelope of the request and its output. -/
def smallEnvelope : Result ProofV3CommitmentEnvelope := do
  let contexts ← smallContexts sha256
  let context := contexts.precommitContext
  let output ← smallOutput.deriveOutputBinding sha256 nfc
  let request ← bindOutput sha256 context output
  let precommitContextDigest ← context.val.digest sha256
  construct EnvelopeFields.postInit {
    staticManifestDigest := context.val.staticManifestDigest
    executionProfileDigest := context.val.executionProfileDigest
    precommitContextDigest
    promptTokenRoot := context.val.promptTokenRoot
    samplerConfigDigest := context.val.samplerConfigDigest
    cacheLeaseDigest := context.val.cacheLeaseDigest
    requestDigest := request.requestDigest
    outputTokenRoot := output.val.outputTokenRoot
    outputStreamDigest := output.val.outputStreamDigest
    executionRoot := constantDigest 8
    prefillRoot := constantDigest 9
    cacheTableRoot := constantDigest 10
    contextTokenCount := context.val.contextTokenCount
    decodeTokenCount := output.val.decodeTokenCount
    cacheEpoch := 0 }

/-- The bundle of the request, under a kind and a rate. -/
def smallBundle (requestKind : RequestKind) (effectiveOrganicHardBps : ℕ) :
    Result (RetainedHardProofBundle sha256 nfc) := do
  let contexts ← smallContexts sha256
  let context := contexts.precommitContext
  let envelope ← smallEnvelope sha256 nfc
  let runtimePolicy ← smallRuntimePolicy requestKind effectiveOrganicHardBps
  let auditDecision ← derivePostcommitAuditDecision sha256 contexts.nonce
    (smallEconomicProfile economicSelectionAbi) envelope runtimePolicy
  let precommitContextDigest ← context.val.digest sha256
  let nonceReveal ← construct NonceRevealFields.postInit {
    proofChallengeId := context.val.proofChallengeId
    precommitContextDigest
    executionProfileDigest := context.val.executionProfileDigest
    cacheLeaseDigest := context.val.cacheLeaseDigest
    commitmentEnvelopeDigest := envelope.val.digest sha256
    validatorNonce := contexts.nonce
    auditDecision }
  construct (HardBundleFields.postInit sha256 nfc) {
    precommitContext := context
    promptTokenIds := [5]
    observedOutput := smallOutput
    envelope
    nonceReveal
    encodedProof := [1] }

end Small

/-- The bundle of a canary request under a constant hash is encoded and decoded. -/
theorem hardBundle_wire_small :
    ∃ bundle encoded, smallBundle (fun _ => constantDigest 1) id .canary 1000 = .ok bundle ∧
      bundle.val.canonicalBytes = .ok encoded ∧
      hardBundleFromBytes (fun _ => constantDigest 1) id encoded = .ok bundle := by
  have hbundle : Accepts (smallBundle (fun _ => constantDigest 1) id .canary 1000) := by
    decide +kernel
  obtain ⟨bundle, hbundle⟩ := hbundle
  have hencode : Accepts (smallBundle (fun _ => constantDigest 1) id .canary 1000 >>= fun bundle =>
      bundle.val.canonicalBytes) := by
    decide +kernel
  obtain ⟨encoded, hencoded⟩ := hencode
  obtain ⟨_, heq, hencoded⟩ := bind_eq_ok.mp hencoded
  obtain rfl := Except.ok.inj (hbundle.symm.trans heq)
  obtain ⟨encoded', hframe, hdecode⟩ := (hardBundle_wire (fun _ => constantDigest 1) id).1 bundle
  refine ⟨bundle, encoded, hbundle, hencoded, ?_⟩
  rw [hencoded] at hframe
  split_ifs at hframe with hlong
  obtain rfl := Except.ok.inj hframe
  exact hdecode (not_lt.mp hlong)

end Verathos.ProofV3
