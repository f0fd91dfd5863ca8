import Verathos.ProofV3.Issue

/-!
# The paired tier

The tier is drawn twice: by `_issue_with_entropy` from the precommit context, before the request is
served, and by the audit decision from the accepted envelope. Both draws read the nonce, the profile,
the precommit context and the rate of the request, and nothing of the output, so they agree
(`pairedTier_agrees`).
-/

namespace Verathos.ProofV3

open Method
open PrefixCache (construct_eq_ok)

variable {functions : Functions} {config : SessionConfig} {nonce : Digest}
  {envelope envelope' : ProofV3CommitmentEnvelope}

/-! ## The draw of a bound envelope -/

/-- The draw of a session: it does not read an envelope. -/
def tierDraw (functions : Functions) (config : SessionConfig) (nonce : Digest) : Result ℕ := do
  let precommitDigest ← config.precommitContext.val.digest functions.sha256
  auditTierDrawFromPrecommitContext functions.sha256 nonce config.profile precommitDigest
    config.runtimePolicy config.runtimePolicy.val.effectiveHardBps

theorem EnvelopeBound.tierDraw_eq (hbound : EnvelopeBound functions config envelope) :
    tierDraw functions config nonce =
      auditTierDrawFromPrecommitContext functions.sha256 nonce config.profile
        envelope.val.precommitContextDigest config.runtimePolicy
        config.runtimePolicy.val.effectiveHardBps := by
  rw [tierDraw, hbound.precommit]
  rfl

theorem EnvelopeBound.exists_transcript (hbound : EnvelopeBound functions config envelope) :
    ∃ digest, executionTranscriptDigest functions.sha256 nonce config.profile envelope =
      .ok digest := by
  refine ⟨_, bind_eq_ok.mpr ⟨_, hbound.profile, bind_eq_ok.mpr ⟨(), raiseIf_eq_ok.mpr ?_,
    bind_eq_ok.mpr ⟨(), raiseIf_eq_ok.mpr ?_, rfl⟩⟩⟩⟩
  · exact not_not.mpr rfl
  · exact not_not.mpr hbound.staticManifest

theorem EnvelopeBound.decision_spec {decision : PostCommitAuditDecision}
    (hbound : EnvelopeBound functions config envelope)
    (h : Derives functions config nonce envelope decision) :
    tierDraw functions config nonce = .ok decision.val.drawBasisPoint ∧
      decision.val.hardAuditSelected =
        decide (decision.val.drawBasisPoint < config.runtimePolicy.val.effectiveHardBps) := by
  obtain ⟨hdraw, hhard, -⟩ := derivePostcommitAuditDecision_spec h
  exact ⟨hbound.tierDraw_eq.trans hdraw, hhard⟩

theorem EnvelopeBound.exists_decision {draw : ℕ}
    (hbound : EnvelopeBound functions config envelope)
    (hpolicy : config.profile.val.relationSpec.val.auditPolicy.val.validateRuntime
      config.runtimePolicy.val = .ok ())
    (hdraw : tierDraw functions config nonce = .ok draw) :
    ∃ decision, Derives functions config nonce envelope decision := by
  obtain ⟨transcriptDigest, htranscript⟩ := hbound.exists_transcript
  exact exists_derivePostcommitAuditDecision hpolicy htranscript (hbound.tierDraw_eq.symm.trans hdraw)

/-! ## The draw at issuance -/

section Issue

variable {sha256 : Bytes → Digest} {qualified : QualifiedExecutionProfile sha256}
  {request : RequestArguments} {leased : LeasedRequest} {runtimePolicy : RuntimeHardAuditPolicy}
  {budgets : SessionBudgets} {nonceContext firstNonce : Digest} {nonceSource : ℕ → Bytes}
  {cacheLeaseSource : Bytes} {expectedHardAudit : Option Bool} {contexts : IssueAttempt}
  {issued : IssuedSession} {publicContext : ValidatorExecutionRequestContext}

theorem fixed32Nonzero_eq_ok {value : Bytes} {name : String} {digest : Digest}
    (h : fixed32Nonzero value name = .ok digest) : digest.bytes = value := by
  unfold fixed32Nonzero at h
  split_ifs at h
  rw [← Except.ok.inj h]

theorem issueAttempts_spec {expected : Bool} {remaining attempt : ℕ}
    (h : issueAttempts sha256 qualified.val leased runtimePolicy nonceContext firstNonce nonceSource
      (some expected) remaining attempt = .ok contexts) :
    ∃ precommitDigest draw,
      contexts.precommitContext.val.digest sha256 = .ok precommitDigest ∧
      auditTierDrawFromPrecommitContext sha256 contexts.nonce qualified.val.profile precommitDigest
        runtimePolicy runtimePolicy.val.effectiveHardBps = .ok draw ∧
      decide (draw < runtimePolicy.val.effectiveHardBps) = expected := by
  induction remaining generalizing attempt with
  | zero => exact nomatch h
  | succ remaining ih =>
    rw [issueAttempts] at h
    obtain ⟨nonce, -, h⟩ := bind_eq_ok.mp h
    obtain ⟨found, hfound, h⟩ := bind_eq_ok.mp h
    obtain ⟨precommitDigest, hdigest, h⟩ := bind_eq_ok.mp h
    obtain ⟨draw, hdraw, h⟩ := bind_eq_ok.mp h
    split_ifs at h with htier
    · obtain rfl := pure_eq_ok.mp h
      simp only [attemptContexts, bind_eq_ok, pure_eq_ok] at hfound
      obtain ⟨_, -, _, -, rfl⟩ := hfound
      exact ⟨precommitDigest, draw, hdigest, hdraw, htier⟩
    · exact ih h

/-- A constructed session has the profile, the policy, the context and the nonce that it was
constructed with, and the profile accepts the policy. -/
theorem challengeSession_spec {precommitContext : PreExecutionRequestContext}
    (h : challengeSession sha256 qualified precommitContext nonce runtimePolicy budgets =
      .ok issued) :
    issued.nonce = nonce ∧ issued.config.profile = qualified.val.profile ∧
      issued.config.runtimePolicy = runtimePolicy ∧
      issued.config.precommitContext = precommitContext ∧
      qualified.val.profile.val.relationSpec.val.auditPolicy.val.validateRuntime
        runtimePolicy.val = .ok () := by
  simp only [challengeSession, bind_eq_ok, reject_eq_ok, pure_eq_ok] at h
  obtain ⟨-, -, nonce', hnonce, -, -, ⟨⟩, hpolicy, -, -, _, -, -, -, -, -, -, -, _, -, -, -, rfl⟩ := h
  exact ⟨Digest.ext (fixed32Nonzero_eq_ok hnonce), rfl, rfl, rfl, hpolicy⟩

/-- What `issue` gives: the profile accepts the runtime policy, and the draw of the session is the
requested tier. -/
theorem issueWithEntropy_spec {qualified : QualifiedExecutionProfile functions.sha256}
    (h : issueWithEntropy functions.sha256 qualified request runtimePolicy budgets nonceSource
      cacheLeaseSource expectedHardAudit = .ok (issued, publicContext)) :
    issued.config.profile.val.relationSpec.val.auditPolicy.val.validateRuntime
        issued.config.runtimePolicy.val = .ok () ∧
      ∀ expected, expectedHardAudit = some expected →
        ∃ draw, tierDraw functions issued.config issued.nonce = .ok draw ∧
          decide (draw < issued.config.runtimePolicy.val.effectiveHardBps) = expected := by
  simp only [issueWithEntropy, bind_eq_ok, reject_eq_ok, pure_eq_ok, Prod.mk.injEq] at h
  obtain ⟨-, -, firstNonce, -, lease, -, -, -, nonceContext, -, -, -, -, -, -, -, contexts,
    hattempts, issued', hsession, rfl, -⟩ := h
  obtain ⟨hnonce, hprofile, hpolicy, hcontext, hvalid⟩ := challengeSession_spec hsession
  refine ⟨by rwa [hprofile, hpolicy], ?_⟩
  rintro expected rfl
  obtain ⟨precommitDigest, draw, hdigest, hdraw, htier⟩ := issueAttempts_spec hattempts
  refine ⟨draw, ?_, by rwa [hpolicy]⟩
  rw [tierDraw, hcontext, hdigest, hnonce, hprofile, hpolicy]
  exact hdraw

end Issue

/-! ## Agreement -/

theorem Course.decided {history : List SessionEvent} {decision : PostCommitAuditDecision}
    (h : Course functions config nonce history) (hmem : .decided decision ∈ history) :
    ∃ envelope, EnvelopeBound functions config envelope ∧
      Derives functions config nonce envelope decision := by
  cases h with
  | issued => simp at hmem
  | accepted haccepted => simp at hmem
  | light haccepted hderives hlight =>
    obtain rfl : decision = _ := by simpa using hmem
    exact ⟨_, haccepted.bound, hderives⟩
  | hard hdecided =>
    obtain rfl : decision = _ := by simpa using hmem
    exact ⟨_, hdecided.bound, hdecided.derives⟩
  | revealed hdecided =>
    obtain rfl : decision = _ := by simpa using hmem
    exact ⟨_, hdecided.bound, hdecided.derives⟩
  | started hdecided =>
    obtain rfl : decision = _ := by simpa using hmem
    exact ⟨_, hdecided.bound, hdecided.derives⟩
  | verified hdecided =>
    obtain rfl : decision = _ := by simpa using hmem
    exact ⟨_, hdecided.bound, hdecided.derives⟩

theorem Valid.envelope_bound {t : TrackedSession} (h : Valid functions config nonce t)
    (henvelope : t.session.envelope = some envelope) : EnvelopeBound functions config envelope := by
  cases h with
  | awaiting => exact nomatch henvelope
  | accepted haccepted => exact Option.some.inj henvelope ▸ haccepted.bound
  | selected hdecided => exact Option.some.inj henvelope ▸ hdecided.bound
  | revealed hdecided => exact Option.some.inj henvelope ▸ hdecided.bound
  | verifying hdecided => exact Option.some.inj henvelope ▸ hdecided.bound
  | verified _ herased => exact nomatch herased.envelope.symm.trans henvelope
  | ended hfailed => exact nomatch hfailed.erased.envelope.symm.trans henvelope

/-- The tier agrees with the one that was asked for, and does not depend on the output.

For an issued session, in every run: the decision of the envelope that the session holds exists and
has the requested tier, and so has every decision that the session took. And with or without a
requested tier, two envelopes that are bound to the precommit context of the session have decisions
with the same draw and the same tier. -/
theorem pairedTier_agrees {functions : Functions}
    {qualified : QualifiedExecutionProfile functions.sha256} {request : RequestArguments}
    {runtimePolicy : RuntimeHardAuditPolicy} {budgets : SessionBudgets} {nonceSource : ℕ → Bytes}
    {cacheLeaseSource : Bytes} {expectedHardAudit : Option Bool} {issued : IssuedSession}
    {publicContext : ValidatorExecutionRequestContext}
    (h : issueWithEntropy functions.sha256 qualified request runtimePolicy budgets nonceSource
      cacheLeaseSource expectedHardAudit = .ok (issued, publicContext)) :
    (∀ expected, expectedHardAudit = some expected → ∀ calls,
      let t := (TrackedSession.issued issued.nonce).run functions issued.config calls
      (∀ envelope, t.session.envelope = some envelope → ∃ decision,
        Derives functions issued.config issued.nonce envelope decision ∧
          decision.val.hardAuditSelected = expected) ∧
      ∀ decision, .decided decision ∈ t.history → decision.val.hardAuditSelected = expected) ∧
    ∀ envelope envelope', EnvelopeBound functions issued.config envelope →
      EnvelopeBound functions issued.config envelope' →
      ∀ decision, Derives functions issued.config issued.nonce envelope decision →
        ∃ decision', Derives functions issued.config issued.nonce envelope' decision' ∧
          decision'.val.drawBasisPoint = decision.val.drawBasisPoint ∧
          decision'.val.hardAuditSelected = decision.val.hardAuditSelected := by
  obtain ⟨hpolicy, hpaired⟩ := issueWithEntropy_spec h
  constructor
  · intro expected hexpected calls t
    have hvalid : Valid functions issued.config issued.nonce t := valid_run calls .awaiting
    obtain ⟨draw, hdraw, htier⟩ := hpaired expected hexpected
    -- a decision has the draw that was made at issuance
    have hdecision {envelope : ProofV3CommitmentEnvelope} {decision : PostCommitAuditDecision}
        (hbound : EnvelopeBound functions issued.config envelope)
        (hderives : Derives functions issued.config issued.nonce envelope decision) :
        decision.val.hardAuditSelected = expected := by
      obtain ⟨hdraw', hhard⟩ := hbound.decision_spec hderives
      rw [hhard, ← Except.ok.inj (hdraw.symm.trans hdraw')]
      exact htier
    refine ⟨fun envelope henvelope => ?_, fun decision hmem => ?_⟩
    · have hbound := hvalid.envelope_bound henvelope
      obtain ⟨decision, hderives⟩ := hbound.exists_decision hpolicy hdraw
      exact ⟨decision, hderives, hdecision hbound hderives⟩
    · obtain ⟨envelope, hbound, hderives⟩ := hvalid.course.decided hmem
      exact hdecision hbound hderives
  · intro envelope envelope' hbound hbound' decision hderives
    obtain ⟨hdraw, hhard⟩ := hbound.decision_spec hderives
    obtain ⟨decision', hderives'⟩ := hbound'.exists_decision hpolicy hdraw
    obtain ⟨hdraw', hhard'⟩ := hbound'.decision_spec hderives'
    have hsame := Except.ok.inj (hdraw'.symm.trans hdraw)
    exact ⟨decision', hderives', hsame, by rw [hhard', hhard, hsame]⟩

/-- The functions of a session with a constant hash. -/
def constantFunctions : Functions where
  sha256 _ := constantDigest 1
  nfc := id
  verify _ _ := .ok none

/-- The small folded profile, qualified under the constant hash. -/
def smallQualifiedProfile : QualifiedExecutionProfile constantFunctions.sha256 :=
  ⟨{ profile := smallFoldedProfile
     expectedStaticManifestDigest := constantDigest 1
     expectedExecutionProfileDigest := constantDigest 1
     registration := .folded
     verifiedSigners := [[0]] }, by decide +kernel⟩

/-- A runtime policy of canary requests. -/
def canaryRuntimePolicy : RuntimeHardAuditPolicy :=
  ⟨{ requestKind := .canary
     effectiveOrganicHardBps := 1000
     effectiveCanaryHardBps := 10000
     effectiveProbationFailures := 1
     nonceSelectionAbiId := postcommitGlobalNonceAbi
     tierSelectionAbiId := postcommitAuditTierAbi
     selectionAbiId := stratifiedLayerHeadSelectionAbi }, by decide +kernel⟩

/-- A canary session that is issued for the hard tier takes hard decisions only. -/
theorem pairedTier_agrees_canary :
    ∃ issued publicContext,
      issueWithEntropy constantFunctions.sha256 smallQualifiedProfile
        ⟨constantDigest 1, constantDigest 2, constantDigest 3, [5], constantDigest 4⟩
        canaryRuntimePolicy ⟨1000, 1000, some 1000⟩ (fun _ => List.replicate 32 7)
        (List.replicate 32 9) (some true) = .ok (issued, publicContext) ∧
      ∀ calls decision, .decided decision ∈
          ((TrackedSession.issued issued.nonce).run constantFunctions issued.config calls).history →
        decision.val.hardAuditSelected = true := by
  have hissue : Accepts (issueWithEntropy constantFunctions.sha256 smallQualifiedProfile
      ⟨constantDigest 1, constantDigest 2, constantDigest 3, [5], constantDigest 4⟩
      canaryRuntimePolicy ⟨1000, 1000, some 1000⟩ (fun _ => List.replicate 32 7)
      (List.replicate 32 9) (some true)) := by decide +kernel
  obtain ⟨⟨issued, publicContext⟩, h⟩ := hissue
  exact ⟨issued, publicContext, h, fun calls => ((pairedTier_agrees h).1 true rfl calls).2⟩

end Verathos.ProofV3
