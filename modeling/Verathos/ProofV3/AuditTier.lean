import Verathos.ProofV3.Request

/-!
# The audit tier

A translation of the tier draw and the audit decision of `challenge.py`. The draw hashes the nonce,
the profile and the precommit context; the decision compares it with the rate of the runtime policy
and records the transcript and the envelope.
-/

namespace Verathos.ProofV3

open PrefixCache (Constructed construct construct_eq_ok packI u32)

section Hash

variable (sha256 : Bytes → Digest)

/-- `_execution_transcript_digest_v3`. -/
def executionTranscriptDigest (validatorNonce : Digest) (profile : ExecutionSecurityProfile)
    (envelope : ProofV3CommitmentEnvelope) : Result Digest := do
  let profileDigest ← profile.val.digest sha256
  raiseIf (envelope.val.executionProfileDigest ≠ profileDigest)
    (.proofV3Error "commitment envelope is bound to a different execution profile")
  raiseIf (envelope.val.staticManifestDigest ≠ profile.val.staticManifestDigest)
    (.proofV3Error "commitment envelope is bound to a different static manifest")
  return sha256 (asciiBytes "VERATHOS/PROOF_V3/FOLDED_EXECUTION/TRANSCRIPT/SHA256" ++
    validatorNonce.bytes ++ profileDigest.bytes ++ (envelope.val.digest sha256).bytes ++
    envelope.val.canonicalBytes)

/-! ## The draw -/

def tierSeed (validatorNonce profileDigest precommitContextDigest : Digest) : Digest :=
  sha256 (asciiBytes "VERATHOS/PROOF_V3/AUDIT_TIER/SEED/SHA256" ++ validatorNonce.bytes ++
    profileDigest.bytes ++ precommitContextDigest.bytes)

/-- `candidate`, at a counter. -/
def tierCandidate (seed : Digest) (policy : RuntimePolicyFields) (rate counter : ℕ) : ℕ :=
  BigEndian.toNat (sha256 (asciiBytes "VERATHOS/PROOF_V3/AUDIT_TIER/DRAW/SHA256" ++
    policy.tierSelectionAbiId.encode ++ seed.bytes ++ [policy.requestKind.code] ++
    LittleEndian.toBytes 2 rate ++ packI counter)).bytes

/-- `ceiling`. -/
def tierCeiling : ℕ := 2 ^ 256 - 2 ^ 256 % 10000

def maxRejectionAttempts : ℕ := 4096

/-- `_audit_tier_draw_from_precommit_context_v3`. -/
def auditTierDrawFromPrecommitContext (validatorNonce : Digest)
    (profile : ExecutionSecurityProfile) (precommitContextDigest : Digest)
    (runtimePolicy : RuntimeHardAuditPolicy) (effectiveHardBps : ℕ) : Result ℕ := do
  u32 effectiveHardBps "audit-tier effective_hard_bps"
  raiseIf (effectiveHardBps > 10000)
    (.proofV3Error "audit-tier effective_hard_bps must not exceed 10000")
  let profileDigest ← profile.val.digest sha256
  let seed := tierSeed sha256 validatorNonce profileDigest precommitContextDigest
  let candidates := (List.range maxRejectionAttempts).map
    (tierCandidate sha256 seed runtimePolicy.val effectiveHardBps)
  match candidates.find? fun candidate => candidate < tierCeiling with
  | some candidate => return candidate % 10000
  | none => throw (.proofV3Error "unable to derive an unbiased postcommit audit-tier draw")

/-- `_audit_tier_draw_basis_point_v3`. -/
def auditTierDrawBasisPoint (validatorNonce : Digest) (profile : ExecutionSecurityProfile)
    (envelope : ProofV3CommitmentEnvelope) (runtimePolicy : RuntimeHardAuditPolicy)
    (effectiveHardBps : ℕ) : Result ℕ :=
  auditTierDrawFromPrecommitContext sha256 validatorNonce profile
    envelope.val.precommitContextDigest runtimePolicy effectiveHardBps

theorem auditTierDraw_lt {validatorNonce : Digest} {profile : ExecutionSecurityProfile}
    {precommitContextDigest : Digest} {runtimePolicy : RuntimeHardAuditPolicy}
    {effectiveHardBps draw : ℕ}
    (h : auditTierDrawFromPrecommitContext sha256 validatorNonce profile precommitContextDigest
      runtimePolicy effectiveHardBps = .ok draw) : draw < 10000 := by
  simp only [auditTierDrawFromPrecommitContext, bind_eq_ok] at h
  obtain ⟨-, -, -, -, profileDigest, -, h⟩ := h
  split at h
  · rw [pure_eq_ok] at h
    rw [← h]
    exact Nat.mod_lt _ (by norm_num)
  · simp [throw, throwThe, MonadExceptOf.throw] at h

/-! ## The decision -/

/-- The fields of `PostCommitAuditDecisionV3`. -/
structure AuditDecisionFields where
  tierSelectionAbiId : Identifier
  requestKind : RequestKind
  effectiveHardBps : ℕ
  drawBasisPoint : ℕ
  hardAuditSelected : Bool
  transcriptDigest : Digest
  commitmentEnvelopeDigest : Digest
deriving DecidableEq

def AuditDecisionFields.postInit (decision : AuditDecisionFields) : Result Unit := do
  raiseIf (decision.tierSelectionAbiId ≠ postcommitAuditTierAbi)
    (.proofV3Error "postcommit audit-tier ABI is not supported")
  u32 decision.effectiveHardBps "postcommit audit-tier effective_hard_bps"
  u32 decision.drawBasisPoint "postcommit audit-tier draw_basis_point"
  raiseIf (decision.effectiveHardBps > 10000)
    (.proofV3Error "postcommit audit-tier effective_hard_bps must not exceed 10000")
  raiseIf (decision.drawBasisPoint ≥ 10000)
    (.proofV3Error "postcommit audit-tier draw_basis_point must be below 10000")
  raiseIf (decision.hardAuditSelected ≠
      decide (decision.drawBasisPoint < decision.effectiveHardBps))
    (.proofV3Error "postcommit audit-tier result does not match its draw and rate")
  raiseIf (decision.requestKind = .canary ∧
      (decision.effectiveHardBps ≠ 10000 ∨ decision.hardAuditSelected = false))
    (.proofV3Error "postcommit canary audit tier must select the hard proof")

/-- `PostCommitAuditDecisionV3`. -/
abbrev PostCommitAuditDecision := Constructed AuditDecisionFields.postInit

/-- `derive_postcommit_audit_decision_v3`. -/
def derivePostcommitAuditDecision (validatorNonce : Digest) (profile : ExecutionSecurityProfile)
    (envelope : ProofV3CommitmentEnvelope) (runtimePolicy : RuntimeHardAuditPolicy) :
    Result PostCommitAuditDecision := do
  profile.val.relationSpec.val.auditPolicy.val.validateRuntime runtimePolicy.val
  let transcriptDigest ← executionTranscriptDigest sha256 validatorNonce profile envelope
  let effectiveHardBps := runtimePolicy.val.effectiveHardBps
  let draw ← auditTierDrawBasisPoint sha256 validatorNonce profile envelope runtimePolicy
    effectiveHardBps
  construct AuditDecisionFields.postInit {
    tierSelectionAbiId := runtimePolicy.val.tierSelectionAbiId
    requestKind := runtimePolicy.val.requestKind
    effectiveHardBps := effectiveHardBps
    drawBasisPoint := draw
    hardAuditSelected := decide (draw < effectiveHardBps)
    transcriptDigest := transcriptDigest
    commitmentEnvelopeDigest := envelope.val.digest sha256 }

end Hash

variable {sha256 : Bytes → Digest} {validatorNonce : Digest} {profile : ExecutionSecurityProfile}
  {envelope : ProofV3CommitmentEnvelope} {runtimePolicy : RuntimeHardAuditPolicy}

/-- What a derived decision says: the draw from the precommit context against the rate. -/
theorem derivePostcommitAuditDecision_spec {decision : PostCommitAuditDecision}
    (h : derivePostcommitAuditDecision sha256 validatorNonce profile envelope runtimePolicy =
      .ok decision) :
    auditTierDrawFromPrecommitContext sha256 validatorNonce profile
        envelope.val.precommitContextDigest runtimePolicy runtimePolicy.val.effectiveHardBps =
      .ok decision.val.drawBasisPoint ∧
    decision.val.hardAuditSelected =
      decide (decision.val.drawBasisPoint < runtimePolicy.val.effectiveHardBps) ∧
    decision.val.commitmentEnvelopeDigest = envelope.val.digest sha256 := by
  simp only [derivePostcommitAuditDecision, bind_eq_ok, construct_eq_ok] at h
  obtain ⟨-, -, transcriptDigest, -, draw, hdraw, hfields⟩ := h
  rw [hfields]
  exact ⟨hdraw, rfl, rfl⟩

/-- A decision is derived when the runtime policy is accepted, the transcript is, and the draw ends:
the constructor of the decision accepts what is derived. -/
theorem exists_derivePostcommitAuditDecision {transcriptDigest : Digest} {draw : ℕ}
    (hpolicy : profile.val.relationSpec.val.auditPolicy.val.validateRuntime runtimePolicy.val =
      .ok ())
    (htranscript : executionTranscriptDigest sha256 validatorNonce profile envelope =
      .ok transcriptDigest)
    (hdraw : auditTierDrawFromPrecommitContext sha256 validatorNonce profile
      envelope.val.precommitContextDigest runtimePolicy runtimePolicy.val.effectiveHardBps =
        .ok draw) :
    ∃ decision, derivePostcommitAuditDecision sha256 validatorNonce profile envelope
      runtimePolicy = .ok decision := by
  obtain ⟨habi, hcanary⟩ := validateRuntime_spec hpolicy
  have hrate := effectiveHardBps_le runtimePolicy
  have hlt := auditTierDraw_lt sha256 hdraw
  have hvalid : AuditDecisionFields.postInit {
      tierSelectionAbiId := runtimePolicy.val.tierSelectionAbiId
      requestKind := runtimePolicy.val.requestKind
      effectiveHardBps := runtimePolicy.val.effectiveHardBps
      drawBasisPoint := draw
      hardAuditSelected := decide (draw < runtimePolicy.val.effectiveHardBps)
      transcriptDigest := transcriptDigest
      commitmentEnvelopeDigest := envelope.val.digest sha256 } = .ok () := by
    simp only [AuditDecisionFields.postInit, u32, bind_eq_ok, raiseIf_eq_ok, exists_const]
    refine ⟨not_not.mpr habi, by omega, by omega, by omega, by omega, by simp, ?_⟩
    rintro ⟨hkind, hne | hlight⟩
    · exact hne (hcanary hkind)
    · -- at the full rate every draw is hard
      have hfull := hcanary hkind
      simp only [decide_eq_false_iff_not] at hlight
      omega
  exact ⟨⟨_, hvalid⟩, bind_eq_ok.mpr ⟨(), hpolicy, bind_eq_ok.mpr ⟨_, htranscript,
    bind_eq_ok.mpr ⟨draw, hdraw, construct_eq_ok.mpr rfl⟩⟩⟩⟩

end Verathos.ProofV3
