import Verathos.Lib.ByteReader
import Verathos.ProofV3.Session

/-!
# The frames of a reveal

A translation of the wire frames of the precommit context, the audit decision and the nonce reveal,
in `request.py`, `challenge.py` and `session.py`. The frame of the envelope is in
`Verathos.ProofV3.Request`.

A decoder checks the length of its input first, and then takes slices of it in order. Every decoder
ends by encoding its result and comparing it with the input.

* `precommit_roundTrip`, `envelope_roundTrip`, `decision_roundTrip`, `reveal_roundTrip`: what is
  encoded is decoded;
* `encode_of_precommit`, `encode_of_envelope`, `encode_of_decision`, `encode_of_reveal`: what is
  decoded was encoded.
-/

namespace Verathos.ProofV3

open ByteReader
open PrefixCache (Constructed construct construct_eq_ok packI nonzero32 u32 positiveU32)

/-! ## Slices -/

/-- `encoded[offset : offset + 32]`, checked where the object is constructed. -/
def takeDigest (name : String) : Reader PyError Digest := do
  let bytes ← upTo 32
  liftM (fixedBytes32 bytes name)

/-- A little-endian field of `struct.unpack_from`. -/
def takeUnsigned (width : ℕ) : Reader PyError ℕ := unsigned (.builtin "struct.error") width

theorem reads_takeDigest (name : String) (digest : Digest) :
    Reads (takeDigest name) digest.bytes digest :=
  (reads_upTo digest.length_eq).bind_nil (Reads.lift (fixedBytes32_eq_ok.mpr rfl))

theorem reads_takeUnsigned {width value : ℕ} (h : value < 256 ^ width) :
    Reads (takeUnsigned width) (LittleEndian.toBytes width value) value := reads_unsigned _ h

theorem reads_packI {value : ℕ} (h : value < 2 ^ 32) : Reads (takeUnsigned 4) (packI value) value :=
  reads_takeUnsigned (by simpa using h)

/-! ## The precommit context -/

/-- The header of a precommit context. -/
def precommitHeader : Bytes := asciiBytes "V3PC" ++ LittleEndian.toBytes 2 1

def PrecommitContextFields.canonicalBytes (context : PrecommitContextFields) : Bytes :=
  precommitHeader ++ (context.proofChallengeId.bytes ++ (context.validatorIdentityDigest.bytes ++
    (context.minerIdentityDigest.bytes ++ (context.validatorNonceCommitment.bytes ++
    (context.staticManifestDigest.bytes ++ (context.executionProfileDigest.bytes ++
    (context.promptTokenRoot.bytes ++ (packI context.contextTokenCount ++
    (context.cacheLeaseDigest.bytes ++ context.samplerConfigDigest.bytes)))))))))

/-- The fields of a precommit context, in the order of the frame. -/
def readPrecommitContext : Reader PyError PrecommitContextFields := do
  let proofChallengeId ← takeDigest "proof_challenge_id"
  let validatorIdentityDigest ← takeDigest "validator_identity_digest"
  let minerIdentityDigest ← takeDigest "miner_identity_digest"
  let validatorNonceCommitment ← takeDigest "validator_nonce_commitment"
  let staticManifestDigest ← takeDigest "static_manifest_digest"
  let executionProfileDigest ← takeDigest "execution_profile_digest"
  let promptTokenRoot ← takeDigest "prompt_token_root"
  let contextTokenCount ← takeUnsigned 4
  let cacheLeaseDigest ← takeDigest "cache_lease_digest"
  let samplerConfigDigest ← takeDigest "sampler_config_digest"
  return {
    proofChallengeId
    validatorIdentityDigest
    minerIdentityDigest
    staticManifestDigest
    executionProfileDigest
    promptTokenRoot
    contextTokenCount
    cacheLeaseDigest
    samplerConfigDigest
    validatorNonceCommitment }

/-- `PREEXECUTION_CONTEXT_BYTES_V3`. -/
def preexecutionContextBytes : ℕ := 4 + 2 + 9 * 32 + 4

/-- `PreExecutionRequestContextV3.from_canonical_bytes`. -/
def precommitContextFromBytes (encoded : Bytes) : Result PreExecutionRequestContext := do
  raiseIf (encoded.length ≠ preexecutionContextBytes)
    (.proofV3Error "proof-v3 preexecution context byte length is invalid")
  raiseIf (encoded.take 4 ≠ asciiBytes "V3PC")
    (.proofV3Error "proof-v3 preexecution context header is unsupported")
  raiseIf (LittleEndian.toNat ((encoded.drop 4).take 2) ≠ 1)
    (.proofV3Error "proof-v3 preexecution context version is unsupported")
  let (fields, _) ← readPrecommitContext.run (encoded.drop 6)
  let result ← construct PrecommitContextFields.postInit fields
  raiseIf (result.val.canonicalBytes ≠ encoded)
    (.proofV3Error "proof-v3 preexecution context is not canonical")
  return result

/-! ## The audit decision -/

/-- The hard bit of a decision. -/
def hardBit (hardAuditSelected : Bool) : ℕ := if hardAuditSelected then 1 else 0

def AuditDecisionFields.canonicalBytes (decision : AuditDecisionFields) : Bytes :=
  decision.tierSelectionAbiId.encode ++ ([decision.requestKind.code] ++
    (LittleEndian.toBytes 2 decision.effectiveHardBps ++
    (LittleEndian.toBytes 2 decision.drawBasisPoint ++
    (LittleEndian.toBytes 1 (hardBit decision.hardAuditSelected) ++
    (decision.transcriptDigest.bytes ++ decision.commitmentEnvelopeDigest.bytes)))))

/-- The fixed part of a decision, as it is read. -/
structure DecisionTail where
  requestKindCode : ℕ
  effectiveHardBps : ℕ
  drawBasisPoint : ℕ
  hardBit : ℕ
  transcriptDigest : Digest
  commitmentEnvelopeDigest : Digest

/-- The fields after the ABI. -/
def readDecisionTail : Reader PyError DecisionTail := do
  let requestKindCode ← takeUnsigned 1
  let effectiveHardBps ← takeUnsigned 2
  let drawBasisPoint ← takeUnsigned 2
  let hardBit ← takeUnsigned 1
  let transcriptDigest ← takeDigest "postcommit audit-tier transcript_digest"
  let commitmentEnvelopeDigest ← takeDigest "postcommit audit-tier commitment_envelope_digest"
  return ⟨requestKindCode, effectiveHardBps, drawBasisPoint, hardBit, transcriptDigest,
    commitmentEnvelopeDigest⟩

/-- The kind with a code. -/
def requestKindOfCode (code : ℕ) : Result RequestKind :=
  if code = RequestKind.organic.code.toNat then .ok .organic
  else if code = RequestKind.canary.code.toNat then .ok .canary
  else .error (.proofV3Error "postcommit audit-tier request kind is unsupported")

/-- `tier_selection_abi_id`, of a text. A text that is no identifier is not the ABI of the protocol,
which is what the constructor compares it with. -/
def tierAbiOfText (text : Bytes) : Result Identifier :=
  if h : isIdentifier text = true then .ok ⟨text, h⟩
  else .error (.proofV3Error "postcommit audit-tier ABI is not supported")

/-- `PostCommitAuditDecisionV3.from_canonical_bytes`. -/
def auditDecisionFromBytes (encoded : Bytes) : Result PostCommitAuditDecision := do
  raiseIf (encoded = [])
    (.proofV3Error "postcommit audit-tier decision must be nonempty bytes")
  raiseIf (¬ (1 + 1 + 2 + 2 + 1 + 64 ≤ encoded.length ∧ encoded.length ≤ 1 + 128 + 6 + 64))
    (.proofV3Error "postcommit audit-tier decision length is invalid")
  let abiLength := (encoded.headD 0).toNat
  raiseIf (¬ (1 ≤ abiLength ∧ abiLength ≤ 128) ∨ 1 + abiLength + 6 + 64 ≠ encoded.length)
    (.proofV3Error "postcommit audit-tier decision framing is invalid")
  let abiText := (encoded.drop 1).take abiLength
  raiseIf (∃ byte ∈ abiText, 128 ≤ byte) (.proofV3Error "postcommit audit-tier ABI is not ASCII")
  let (tail, _) ← readDecisionTail.run ((encoded.drop 1).drop abiLength)
  let requestKind ← requestKindOfCode tail.requestKindCode
  raiseIf (tail.hardBit ≠ 0 ∧ tail.hardBit ≠ 1)
    (.proofV3Error "postcommit audit-tier hard result is not canonical")
  let tierSelectionAbiId ← tierAbiOfText abiText
  let result ← construct AuditDecisionFields.postInit {
    tierSelectionAbiId := tierSelectionAbiId
    requestKind := requestKind
    effectiveHardBps := tail.effectiveHardBps
    drawBasisPoint := tail.drawBasisPoint
    hardAuditSelected := decide (tail.hardBit ≠ 0)
    transcriptDigest := tail.transcriptDigest
    commitmentEnvelopeDigest := tail.commitmentEnvelopeDigest }
  raiseIf (result.val.canonicalBytes ≠ encoded)
    (.proofV3Error "postcommit audit-tier decision is not canonical")
  return result

/-! ## The nonce reveal -/

/-- `MAX_NONCE_REVEAL_BYTES_V3`. -/
def maxNonceRevealBytes : ℕ := 512

/-- The header of a nonce reveal. -/
def revealHeader : Bytes := asciiBytes "V3NR" ++ LittleEndian.toBytes 2 1

def NonceRevealFields.canonicalBytes (reveal : NonceRevealFields) : Result Bytes := do
  let decision := reveal.auditDecision.val.canonicalBytes
  raiseIf (decision.length > 0xFFFF)
    (verificationError "nonce reveal decision exceeds its wire limit")
  return revealHeader ++ (reveal.proofChallengeId.bytes ++ (reveal.precommitContextDigest.bytes ++
    (reveal.executionProfileDigest.bytes ++ (reveal.cacheLeaseDigest.bytes ++
    (reveal.commitmentEnvelopeDigest.bytes ++ (reveal.validatorNonce.bytes ++
    (LittleEndian.toBytes 2 decision.length ++ decision)))))))

/-- `except ProofV3VerificationError: raise` and `except Exception: raise error`. -/
def exceptUnverified {α : Type} (message : String) : Result α → Result α
  | .ok value => .ok value
  | .error (.proofV3VerificationError raised) => .error (.proofV3VerificationError raised)
  | .error _ => .error (verificationError message)

/-- The frame of a reveal up to its decision: the digests, and the length of the decision. -/
structure RevealFrame where
  proofChallengeId : Digest
  precommitContextDigest : Digest
  executionProfileDigest : Digest
  cacheLeaseDigest : Digest
  commitmentEnvelopeDigest : Digest
  validatorNonce : Digest
  decisionLength : ℕ

/-- The fields after the header, in order. -/
def readRevealFrame : Reader PyError RevealFrame := do
  let proofChallengeId ← takeDigest "proof_challenge_id"
  let precommitContextDigest ← takeDigest "precommit_context_digest"
  let executionProfileDigest ← takeDigest "execution_profile_digest"
  let cacheLeaseDigest ← takeDigest "cache_lease_digest"
  let commitmentEnvelopeDigest ← takeDigest "commitment_envelope_digest"
  let validatorNonce ← takeDigest "validator_nonce"
  let decisionLength ← takeUnsigned 2
  return ⟨proofChallengeId, precommitContextDigest, executionProfileDigest, cacheLeaseDigest,
    commitmentEnvelopeDigest, validatorNonce, decisionLength⟩

/-- `NonceRevealV3.from_canonical_bytes`. -/
def nonceRevealFromBytes (encoded : Bytes) : Result NonceReveal := do
  let fixedSize := 4 + 2 + 6 * 32 + 2
  reject (encoded.length < fixedSize + 1 ∨ encoded.length > maxNonceRevealBytes)
    "nonce reveal byte length is invalid"
  reject (encoded.take 4 ≠ asciiBytes "V3NR") "nonce reveal header is unsupported"
  reject (LittleEndian.toNat ((encoded.drop 4).take 2) ≠ 1) "nonce reveal version is unsupported"
  let (frame, rest) ← readRevealFrame.run (encoded.drop 6)
  reject (frame.decisionLength = 0 ∨ fixedSize + frame.decisionLength ≠ encoded.length)
    "nonce reveal decision framing is invalid"
  let decision ← exceptUnverified "nonce reveal decision is malformed" (auditDecisionFromBytes rest)
  let result ← construct NonceRevealFields.postInit {
    proofChallengeId := frame.proofChallengeId
    precommitContextDigest := frame.precommitContextDigest
    executionProfileDigest := frame.executionProfileDigest
    cacheLeaseDigest := frame.cacheLeaseDigest
    commitmentEnvelopeDigest := frame.commitmentEnvelopeDigest
    validatorNonce := frame.validatorNonce
    auditDecision := decision }
  let canonical ← result.val.canonicalBytes
  reject (canonical ≠ encoded) "nonce reveal is not canonical"
  return result

@[simp]
theorem exceptUnverified_eq_ok {α : Type} {message : String} {x : Result α} {a : α} :
    exceptUnverified message x = .ok a ↔ x = .ok a := by
  rcases x with (_ | _ | _) | _ <;> simp [exceptUnverified]

/-! ## Round trips -/

theorem header_slices (body : Bytes) {header magic : Bytes} {version : ℕ}
    (hheader : header = magic ++ LittleEndian.toBytes 2 version) (hmagic : magic.length = 4)
    (hversion : version < 2 ^ 16) :
    (header ++ body).take 4 = magic ∧
      LittleEndian.toNat (((header ++ body).drop 4).take 2) = version ∧
      (header ++ body).drop 6 = body := by
  subst hheader
  have hwidth := LittleEndian.length_toBytes 2 version
  refine ⟨?_, ?_, ?_⟩
  · rw [List.append_assoc, List.take_left' hmagic]
  · rw [List.append_assoc, List.drop_left' hmagic, List.take_left' hwidth,
      LittleEndian.toNat_toBytes (by simpa using hversion)]
  · exact List.drop_left' (by rw [List.length_append, hmagic, hwidth])

theorem reads_readPrecommitContext (context : PreExecutionRequestContext) :
    ∃ body, context.val.canonicalBytes = precommitHeader ++ body ∧ body.length = 292 ∧
      Reads readPrecommitContext body context.val := by
  have hcontext := context.property
  simp only [PrecommitContextFields.postInit, positiveU32, bind_eq_ok, raiseIf_eq_ok, not_or,
    exists_const] at hcontext
  obtain ⟨⟨-, hcount⟩, -⟩ := hcontext
  refine ⟨_, rfl, by simp [packI, LittleEndian.length_toBytes], ?_⟩
  refine (reads_takeDigest _ _).bind ((reads_takeDigest _ _).bind ((reads_takeDigest _ _).bind
    ((reads_takeDigest _ _).bind ((reads_takeDigest _ _).bind ((reads_takeDigest _ _).bind
    ((reads_takeDigest _ _).bind ((reads_packI (by omega)).bind ((reads_takeDigest _ _).bind
      (reads_takeDigest _ _).bind_pure))))))))

theorem precommit_roundTrip (context : PreExecutionRequestContext) :
    precommitContextFromBytes context.val.canonicalBytes = .ok context := by
  obtain ⟨body, hbytes, hlength, hreads⟩ := reads_readPrecommitContext context
  obtain ⟨hmagic, hversion, hbody⟩ := header_slices body
    (show precommitHeader = asciiBytes "V3PC" ++ LittleEndian.toBytes 2 1 from rfl) (by decide)
    (by norm_num)
  have hrun := hreads []
  rw [List.append_nil] at hrun
  simp only [precommitContextFromBytes, bind_eq_ok, raiseIf_eq_ok, pure_eq_ok, construct_eq_ok,
    not_not, hbytes, hmagic, hversion, hbody, hrun, Except.ok.injEq, exists_eq_left']
  refine ⟨(), ?_, (), trivial, (), trivial, context, rfl, (), hbytes, rfl⟩
  rw [List.length_append, hlength]
  decide

variable (decision : PostCommitAuditDecision)

theorem decision_bounds :
    decision.val.tierSelectionAbiId = postcommitAuditTierAbi ∧
      decision.val.effectiveHardBps ≤ 10000 ∧ decision.val.drawBasisPoint < 10000 := by
  have h := decision.property
  simp only [AuditDecisionFields.postInit, u32, bind_eq_ok, raiseIf_eq_ok, exists_const,
    not_not] at h
  obtain ⟨habi, -, -, hrate, hdraw, -⟩ := h
  exact ⟨habi, by omega, by omega⟩

theorem length_decision : decision.val.canonicalBytes.length = 95 := by
  simp only [AuditDecisionFields.canonicalBytes, (decision_bounds decision).1, Identifier.encode,
    List.length_append, List.length_cons, List.length_nil, LittleEndian.length_toBytes,
    Digest.length_eq]
  decide

theorem reads_readDecisionTail :
    ∃ tail, decision.val.canonicalBytes = postcommitAuditTierAbi.encode ++ tail ∧
      Reads readDecisionTail tail ⟨decision.val.requestKind.code.toNat,
        decision.val.effectiveHardBps, decision.val.drawBasisPoint,
        hardBit decision.val.hardAuditSelected, decision.val.transcriptDigest,
        decision.val.commitmentEnvelopeDigest⟩ := by
  obtain ⟨habi, hrate, hdraw⟩ := decision_bounds decision
  have hkind : Reads (takeUnsigned 1) [decision.val.requestKind.code]
      decision.val.requestKind.code.toNat := by
    cases decision.val.requestKind
    · exact show Reads (takeUnsigned 1) (LittleEndian.toBytes 1 1) 1 from
        reads_takeUnsigned (by norm_num)
    · exact show Reads (takeUnsigned 1) (LittleEndian.toBytes 1 2) 2 from
        reads_takeUnsigned (by norm_num)
  have hbit : hardBit decision.val.hardAuditSelected < 256 ^ 1 := by
    cases decision.val.hardAuditSelected <;> decide
  refine ⟨_, by rw [AuditDecisionFields.canonicalBytes, habi], ?_⟩
  refine hkind.bind ((reads_takeUnsigned (by omega)).bind ((reads_takeUnsigned (by omega)).bind
    ((reads_takeUnsigned hbit).bind ((reads_takeDigest _ _).bind (reads_takeDigest _ _).bind_pure))))

theorem decision_roundTrip : auditDecisionFromBytes decision.val.canonicalBytes = .ok decision := by
  obtain ⟨tail, hbytes, hreads⟩ := reads_readDecisionTail decision
  have hlength := length_decision decision
  have hrun := hreads []
  rw [List.append_nil] at hrun
  have hhead : ((postcommitAuditTierAbi.encode ++ tail).headD 0).toNat = 24 := rfl
  have htake : ((postcommitAuditTierAbi.encode ++ tail).drop 1).take 24 =
      postcommitAuditTierAbi.text := rfl
  have hdrop : ((postcommitAuditTierAbi.encode ++ tail).drop 1).drop 24 = tail := rfl
  have hkind : requestKindOfCode decision.val.requestKind.code.toNat =
      .ok decision.val.requestKind := by
    cases decision.val.requestKind <;> rfl
  have habi : tierAbiOfText postcommitAuditTierAbi.text = .ok decision.val.tierSelectionAbiId := by
    rw [(decision_bounds decision).1]
    rfl
  have hbit : decide (hardBit decision.val.hardAuditSelected ≠ 0) =
      decision.val.hardAuditSelected := by
    cases decision.val.hardAuditSelected <;> rfl
  rw [hbytes] at hlength
  simp only [auditDecisionFromBytes, bind_eq_ok, raiseIf_eq_ok, pure_eq_ok, construct_eq_ok, hbytes,
    hhead, htake, hdrop, hrun, hkind, habi, hbit, hlength, Except.ok.injEq, exists_eq_left']
  refine ⟨(), ?_, (), by omega, (), by omega, (), by decide, (), ?_, decision, rfl, (), ?_, rfl⟩
  · exact List.ne_nil_of_length_pos (by omega)
  · cases decision.val.hardAuditSelected <;> decide
  · exact not_not.mpr hbytes

theorem reads_readRevealFrame (reveal : NonceReveal) :
    ∃ frame, reveal.val.canonicalBytes =
        .ok (revealHeader ++ (frame ++ reveal.val.auditDecision.val.canonicalBytes)) ∧
      frame.length = 194 ∧
      Reads readRevealFrame frame ⟨reveal.val.proofChallengeId, reveal.val.precommitContextDigest,
        reveal.val.executionProfileDigest, reveal.val.cacheLeaseDigest,
        reveal.val.commitmentEnvelopeDigest, reveal.val.validatorNonce, 95⟩ := by
  refine ⟨reveal.val.proofChallengeId.bytes ++ (reveal.val.precommitContextDigest.bytes ++
    (reveal.val.executionProfileDigest.bytes ++ (reveal.val.cacheLeaseDigest.bytes ++
    (reveal.val.commitmentEnvelopeDigest.bytes ++ (reveal.val.validatorNonce.bytes ++
    LittleEndian.toBytes 2 95))))), ?_, by simp, ?_⟩
  · simp only [NonceRevealFields.canonicalBytes, length_decision, bind_eq_ok, raiseIf_eq_ok,
      pure_eq_ok, List.append_assoc]
    exact ⟨(), by norm_num, trivial⟩
  · exact (reads_takeDigest _ _).bind ((reads_takeDigest _ _).bind ((reads_takeDigest _ _).bind
      ((reads_takeDigest _ _).bind ((reads_takeDigest _ _).bind ((reads_takeDigest _ _).bind
        (reads_takeUnsigned (by norm_num)).bind_pure)))))

theorem reveal_roundTrip (reveal : NonceReveal) :
    ∃ encoded, reveal.val.canonicalBytes = .ok encoded ∧ encoded.length = 295 ∧
      nonceRevealFromBytes encoded = .ok reveal := by
  obtain ⟨frame, hbytes, hframe, hreads⟩ := reads_readRevealFrame reveal
  have hlength := length_decision reveal.val.auditDecision
  have hdecision := decision_roundTrip reveal.val.auditDecision
  set decision := reveal.val.auditDecision.val.canonicalBytes
  obtain ⟨hmagic, hversion, hbody⟩ := header_slices (frame ++ decision)
    (show revealHeader = asciiBytes "V3NR" ++ LittleEndian.toBytes 2 1 from rfl) (by decide)
    (by norm_num)
  have htotal : (revealHeader ++ (frame ++ decision)).length = 295 := by
    rw [List.length_append, List.length_append, hframe, hlength]
    decide
  refine ⟨_, hbytes, htotal, ?_⟩
  simp only [nonceRevealFromBytes, bind_eq_ok, reject_eq_ok, pure_eq_ok, construct_eq_ok, hmagic,
    hversion, hbody, hreads decision, htotal, exceptUnverified_eq_ok, hdecision, Except.ok.injEq,
    exists_eq_left', not_not]
  refine ⟨(), by decide, (), trivial, (), trivial, (), by norm_num, reveal, rfl, _, hbytes, (), rfl,
    rfl⟩

theorem envelope_roundTrip (envelope : ProofV3CommitmentEnvelope) :
    envelope.val.canonicalBytes.length = 406 ∧
      commitmentEnvelopeFromBytes envelope.val.canonicalBytes = .ok envelope := by
  have henvelope := envelope.property
  simp only [EnvelopeFields.postInit, positiveU32, u32, u64, bind_eq_ok, raiseIf_eq_ok, not_or,
    exists_const] at henvelope
  obtain ⟨-, -, ⟨-, hcontext⟩, hdecode, hepoch⟩ := henvelope
  -- the frame as a list of fields
  set blocks : List Bytes := [asciiBytes "V3CE", LittleEndian.toBytes 2 2,
    packI envelope.val.contextTokenCount, packI envelope.val.decodeTokenCount,
    LittleEndian.toBytes 8 envelope.val.cacheEpoch, envelope.val.staticManifestDigest.bytes,
    envelope.val.executionProfileDigest.bytes, envelope.val.precommitContextDigest.bytes,
    envelope.val.promptTokenRoot.bytes, envelope.val.samplerConfigDigest.bytes,
    envelope.val.cacheLeaseDigest.bytes, envelope.val.requestDigest.bytes,
    envelope.val.outputTokenRoot.bytes, envelope.val.outputStreamDigest.bytes,
    envelope.val.executionRoot.bytes, envelope.val.prefillRoot.bytes,
    envelope.val.cacheTableRoot.bytes] with hblocks
  have hbytes : envelope.val.canonicalBytes = blocks.flatten := by
    simp only [EnvelopeFields.canonicalBytes, hblocks, List.flatten_cons, List.flatten_nil,
      List.append_nil, List.append_assoc]
  have hlength : blocks.flatten.length = 406 := by
    simp [hblocks, packI, LittleEndian.length_toBytes, asciiBytes]
  have hmagic : (blocks.flatten.drop 0).take 4 = asciiBytes "V3CE" :=
    take_drop_flatten (k := 0) rfl rfl rfl
  have hversion : (blocks.flatten.drop 4).take 2 = LittleEndian.toBytes 2 2 :=
    take_drop_flatten (k := 1) rfl rfl rfl
  have hcontextBytes : (blocks.flatten.drop 6).take 4 = packI envelope.val.contextTokenCount :=
    take_drop_flatten (k := 2) rfl rfl rfl
  have hdecodeBytes : (blocks.flatten.drop 10).take 4 = packI envelope.val.decodeTokenCount :=
    take_drop_flatten (k := 3) rfl rfl rfl
  have hepochBytes : (blocks.flatten.drop 14).take 8 =
      LittleEndian.toBytes 8 envelope.val.cacheEpoch := take_drop_flatten (k := 4) rfl rfl rfl
  have hnumber : ∀ {width value : ℕ}, value < 256 ^ width →
      LittleEndian.toNat (LittleEndian.toBytes width value) = value :=
    fun h => LittleEndian.toNat_toBytes h
  -- the digest number `k` stands at offset `22 + 32 * k`
  have hdigest : ∀ (k : ℕ) (digest : Digest), blocks[k + 5]? = some digest.bytes →
      readDigest blocks.flatten (22 + 32 * k) = .ok digest := by
    intro k digest hk
    have hoffset : (blocks.take (k + 5)).flatten.length = 22 + 32 * k := by
      have hlt : k < 12 := by
        have := (List.getElem?_eq_some_iff.mp hk).1
        simp only [hblocks, List.length_cons, List.length_nil] at this
        omega
      interval_cases k <;> simp [hblocks, packI, LittleEndian.length_toBytes, asciiBytes]
    rw [readDigest, take_drop_flatten hk hoffset digest.length_eq]
    exact fixedBytes32_eq_ok.mpr rfl
  rw [List.drop_zero] at hmagic
  refine ⟨by rw [hbytes, hlength], ?_⟩
  simp only [commitmentEnvelopeFromBytes, bind_eq_ok, raiseIf_eq_ok, pure_eq_ok, construct_eq_ok,
    hbytes, hlength, hmagic, hversion, hcontextBytes, hdecodeBytes, hepochBytes, packI,
    hnumber (show 2 < 256 ^ 2 by norm_num),
    hnumber (show envelope.val.contextTokenCount < 256 ^ 4 by omega),
    hnumber (show envelope.val.decodeTokenCount < 256 ^ 4 by omega),
    hnumber (show envelope.val.cacheEpoch < 256 ^ 8 by omega),
    hdigest 0 _ rfl, hdigest 1 _ rfl, hdigest 2 _ rfl, hdigest 3 _ rfl, hdigest 4 _ rfl,
    hdigest 5 _ rfl, hdigest 6 _ rfl, hdigest 7 _ rfl, hdigest 8 _ rfl, hdigest 9 _ rfl,
    hdigest 10 _ rfl, hdigest 11 _ rfl, Except.ok.injEq, exists_eq_left']
  refine ⟨(), by norm_num, (), by norm_num, (), by simp, envelope, rfl, (), ?_, rfl⟩
  exact not_not.mpr hbytes

/-! ## What is decoded was encoded -/

variable {encoded : Bytes}

theorem encode_of_precommit {context : PreExecutionRequestContext}
    (h : precommitContextFromBytes encoded = .ok context) :
    context.val.canonicalBytes = encoded := by
  simp only [precommitContextFromBytes, bind_eq_ok, raiseIf_eq_ok, pure_eq_ok, not_not] at h
  obtain ⟨-, -, -, -, -, -, _, -, result, -, -, hcanonical, rfl⟩ := h
  exact hcanonical

theorem encode_of_envelope {envelope : ProofV3CommitmentEnvelope}
    (h : commitmentEnvelopeFromBytes encoded = .ok envelope) :
    envelope.val.canonicalBytes = encoded := by
  simp only [commitmentEnvelopeFromBytes, bind_eq_ok, raiseIf_eq_ok, pure_eq_ok, not_not] at h
  obtain ⟨-, -, -, -, -, -, _, -, _, -, _, -, _, -, _, -, _, -, _, -, _, -, _, -, _, -, _, -, _, -,
    result, -, -, hcanonical, rfl⟩ := h
  exact hcanonical

theorem encode_of_decision {decision : PostCommitAuditDecision}
    (h : auditDecisionFromBytes encoded = .ok decision) :
    decision.val.canonicalBytes = encoded := by
  simp only [auditDecisionFromBytes, bind_eq_ok, raiseIf_eq_ok, pure_eq_ok, not_not] at h
  obtain ⟨-, -, -, -, -, -, -, -, _, -, _, -, -, -, _, -, result, -, -, hcanonical, rfl⟩ := h
  exact hcanonical

theorem encode_of_reveal {reveal : NonceReveal} (h : nonceRevealFromBytes encoded = .ok reveal) :
    reveal.val.canonicalBytes = .ok encoded := by
  simp only [nonceRevealFromBytes, bind_eq_ok, reject_eq_ok, pure_eq_ok, not_not] at h
  obtain ⟨-, -, -, -, -, -, _, -, -, -, _, -, result, -, canonical, hcanonical, -, rfl, rfl⟩ := h
  exact hcanonical

end Verathos.ProofV3
