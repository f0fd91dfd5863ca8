import Verathos.ProofV3.Session

/-!
# How the calls on a session end

Every method of the challenge session is described by what it does to a session in the phase in
which it applies. Outside that phase it raises and the session stays as it was.

* `Erased s`: the session holds no secret. `Failed s`: it was ended by `_fail_locked`.
* `Acceptance` and `Selection` have the data of an accepted envelope and of a hard decision; the
  phases of a live session are `awaiting`, `Acceptance.session`, `Selection.session`,
  `Selection.revealed` and `Selection.verifying`.
-/

namespace Verathos.ProofV3

open Method
open PrefixCache (construct construct_eq_ok)

/-! ## Ended sessions -/

/-- The session holds no nonce, no binding, no decision and no envelope. -/
structure Session.Erased (s : Session) : Prop where
  nonce : s.nonce = none
  binding : s.binding = none
  auditDecision : s.auditDecision = none
  envelope : s.envelope = none

/-- The session was ended without a verified proof. -/
structure Session.Failed (s : Session) : Prop where
  erased : s.Erased
  state : s.state ∈ terminalStates
  not_verified : s.state ≠ .verified

theorem Session.failed_failLocked {s : Session} {state : SessionState}
    (hstate : state ∈ terminalStates) (hne : state ≠ .verified) :
    (s.failLocked state).Failed :=
  ⟨⟨rfl, rfl, rfl, rfl⟩, hstate, hne⟩

variable {functions : Functions} {config : SessionConfig} {s s' : Session} {e : PyError}

/-! ## Clauses that the methods share -/

section Clauses

variable {α : Type} {a : α} {error : PyError}

@[simp]
theorem returns_failWith : ¬ Returns (failWith error : SessionMethod α) s a s' := by
  simp [failWith]

@[simp]
theorem raises_failWith :
    Raises (failWith error : SessionMethod α) s e s' ↔ error = e ∧ s' = s.failLocked .failed := by
  simp [failWith, eq_comm]

@[simp]
theorem returns_failUnlessExpired :
    ¬ Returns (failUnlessExpired error : SessionMethod α) s a s' := by
  simp [failUnlessExpired]

theorem raises_failUnlessExpired :
    Raises (failUnlessExpired error : SessionMethod α) s e s' ↔
      error = e ∧ s' = if s.state ≠ .expired then s.failLocked .failed else s := by
  simp [failUnlessExpired, eq_comm]

theorem failed_of_failUnlessExpired (hs : s.state = .expired → s.Failed)
    (h : Raises (failUnlessExpired error : SessionMethod α) s e s') : s'.Failed := by
  obtain ⟨-, rfl⟩ := raises_failUnlessExpired.mp h
  split_ifs with hstate
  · exact Session.failed_failLocked (by decide) (by decide)
  · exact hs (not_not.mp hstate)

theorem failed_of_try {body : SessionMethod α}
    (hbody : ∀ e s₁, Raises body s e s₁ → s₁.state = .expired → s₁.Failed)
    (h : Raises (tryCatch body failUnlessExpired) s e s') : s'.Failed := by
  obtain ⟨error, s₁, hraises, hhandler⟩ := raises_tryCatch.mp h
  exact failed_of_failUnlessExpired (hbody error s₁ hraises) hhandler

end Clauses

variable {u : Unit}

@[simp]
theorem returns_requireArrival {received : ℤ} :
    Returns (requireArrivalBeforeDeadlineLocked received) s u s' ↔
      0 ≤ received ∧ (∃ deadline, s.deadlineMonotonicNs = some deadline ∧ received ≤ deadline) ∧
        s = s' := by
  cases hdeadline : s.deadlineMonotonicNs <;>
    simp [requireArrivalBeforeDeadlineLocked, monotonicNs, hdeadline, and_comm]

/-- A late arrival ends the session; only the check of the time keeps it. -/
theorem raises_requireArrival {received : ℤ}
    (h : Raises (requireArrivalBeforeDeadlineLocked received) s e s') :
    received < 0 ∧ s' = s ∨ s'.Failed := by
  simp only [requireArrivalBeforeDeadlineLocked, raises_bind, raises_call, returns_call,
    returns_get, raises_get, raises_ite, raises_modify, returns_modify, raises_throw, raises_pure,
    false_or, or_false, and_false] at h
  rcases h with ⟨htime, rfl⟩ | ⟨-, s₁, ⟨-, rfl⟩, t, s₂, ⟨rfl, rfl⟩, -, -, s₃, rfl, -, rfl⟩
  · refine .inl ⟨by_contra fun htime' => ?_, rfl⟩
    simp [monotonicNs, reject, raiseIf, htime'] at htime
  · exact .inr (Session.failed_failLocked (by decide) (by decide))

@[simp]
theorem returns_failOnOverflow {deadline : ℤ} {error : PyError} :
    Returns (failOnOverflow deadline error) s u s' ↔ deadline < 2 ^ 63 ∧ s = s' := by
  simp [failOnOverflow]

theorem failed_of_failOnOverflow {deadline : ℤ} {error : PyError}
    (h : Raises (failOnOverflow deadline error) s e s') : s'.Failed := by
  simp only [failOnOverflow, raises_ite, raises_failWith, raises_pure, and_false, or_false] at h
  obtain ⟨-, -, rfl⟩ := h
  exact Session.failed_failLocked (by decide) (by decide)

/-! ## Acceptance -/

/-- What a session holds when it has accepted an envelope. -/
structure Acceptance where
  envelope : ProofV3CommitmentEnvelope
  binding : EnvelopeBinding
  deadline : ℤ
  received : ℤ

/-- A session that has accepted an envelope. -/
def Acceptance.session (nonce : Digest) (acceptance : Acceptance) : Session where
  nonce := some nonce
  binding := some acceptance.binding
  envelope := some acceptance.envelope
  deadlineMonotonicNs := some acceptance.deadline
  precommitReceivedMonotonicNs := some acceptance.received
  state := .precommitAccepted

/-- A session that awaits its envelope. -/
def Session.awaiting (nonce : Digest) : Session where
  nonce := some nonce

section Accept

variable {encodedEnvelope : Bytes} {observedOutput : Option ObservedExecutionOutput}
  {lastVisible received : ℤ} {nonce : Digest}

theorem acceptPrecommitBytes_of_ne (hs : s.state ≠ .awaitingPrecommit) :
    ∃ e, Raises (acceptPrecommitBytes functions config encodedEnvelope observedOutput lastVisible
      received) s e s :=
  ⟨_, raises_bind.mpr (.inr ⟨s, s, returns_get.mpr ⟨rfl, rfl⟩, raises_bind.mpr
    (.inl (raises_check.mpr ⟨hs, rfl, rfl⟩))⟩)⟩

/-- The envelope is bound to the profile and to the precommit context of the session. -/
structure EnvelopeBound (functions : Functions) (config : SessionConfig)
    (envelope : ProofV3CommitmentEnvelope) : Prop where
  profile : config.profile.val.digest functions.sha256 = .ok envelope.val.executionProfileDigest
  staticManifest : envelope.val.staticManifestDigest = config.profile.val.staticManifestDigest
  precommit : config.precommitContext.val.digest functions.sha256 =
    .ok envelope.val.precommitContextDigest

theorem checkEnvelope_spec {envelope : ProofV3CommitmentEnvelope} {binding : EnvelopeBinding}
    (h : checkEnvelope functions config encodedEnvelope observedOutput = .ok (envelope, binding)) :
    commitmentEnvelopeFromBytes encodedEnvelope = .ok envelope ∧
      EnvelopeBound functions config envelope := by
  obtain ⟨decoded, hdecode, h⟩ := bind_eq_ok.mp h
  cases observedOutput with
  | none => exact nomatch h
  | some output =>
    simp only [bind_eq_ok, pure_eq_ok, Prod.mk.injEq] at h
    obtain ⟨-, -, outputBinding, -, binding', hvalidate, rfl, -⟩ := h
    obtain ⟨hprofile, hstatic, hprecommit⟩ := validateExecutionEnvelope_spec hvalidate
    exact ⟨hdecode, hprofile, hstatic, hprecommit⟩

theorem returns_acceptPrecommitBytes {u : Unit}
    (h : Returns (acceptPrecommitBytes functions config encodedEnvelope observedOutput lastVisible
      received) (.awaiting nonce) u s') :
    ∃ acceptance : Acceptance,
      commitmentEnvelopeFromBytes encodedEnvelope = .ok acceptance.envelope ∧
      EnvelopeBound functions config acceptance.envelope ∧ s' = acceptance.session nonce := by
  have hhandler (error : PyError) (t t' : Session) (result) :
      ¬ Returns (acceptPrecommitHandler error : SessionMethod
        (ProofV3CommitmentEnvelope × EnvelopeBinding)) t result t' := by
    unfold acceptPrecommitHandler
    split <;> simp
  simp only [acceptPrecommitBytes, acceptPrecommitBody, returns_bind, returns_get, returns_check,
    returns_modify, returns_tryCatch, returns_call, returns_requireArrival, hhandler, and_false,
    exists_false, or_false] at h
  obtain ⟨-, -, ⟨rfl, rfl⟩, -, -, ⟨-, rfl⟩, ⟨envelope, binding⟩, s₁, hbody, rfl⟩ := h
  obtain ⟨-, -, ⟨-, rfl⟩, -, -, ⟨-, rfl⟩, -, -, rfl, -, -, ⟨-, -, rfl⟩, -, -, ⟨-, rfl⟩, hcheck, rfl⟩ :=
    hbody
  obtain ⟨hdecode, hbound⟩ := checkEnvelope_spec hcheck
  exact ⟨⟨envelope, binding, _, received⟩, hdecode, hbound, rfl⟩

theorem raises_acceptPrecommitBytes
    (h : Raises (acceptPrecommitBytes functions config encodedEnvelope observedOutput lastVisible
      received) (.awaiting nonce) e s') : s'.Failed := by
  simp only [acceptPrecommitBytes, raises_bind, returns_get, raises_get, returns_check,
    raises_check, raises_modify, raises_tryCatch, false_or, and_false, exists_false, or_false] at h
  obtain ⟨-, -, ⟨rfl, rfl⟩, ⟨hne, -⟩ | ⟨-, -, ⟨-, rfl⟩, error, s₁, hbody, hhandler⟩⟩ := h
  · exact absurd rfl hne
  have hs₁ : s₁.state = .expired → s₁.Failed := by
    simp only [acceptPrecommitBody, raises_bind, returns_check, raises_check, raises_modify,
      returns_modify, raises_call, returns_call, returns_requireArrival, false_or] at hbody
    -- every check but that of the arrival keeps the state of the session
    rcases hbody with ⟨-, rfl⟩ | ⟨-, -, ⟨-, rfl⟩, ⟨-, -, rfl⟩ | ⟨-, -, ⟨-, rfl⟩, -, -, rfl, h⟩⟩
    · exact fun hexpired => by cases hexpired
    · exact fun hexpired => by cases hexpired
    · rcases h with harrival | ⟨-, -, ⟨-, -, rfl⟩, ⟨-, -, rfl⟩ | ⟨-, -, ⟨-, rfl⟩, -, rfl⟩⟩
      · rcases raises_requireArrival harrival with ⟨-, rfl⟩ | hfailed
        · exact fun hexpired => by cases hexpired
        · exact fun _ => hfailed
      · exact fun hexpired => by cases hexpired
      · exact fun hexpired => by cases hexpired
  unfold acceptPrecommitHandler at hhandler
  split at hhandler
  · exact failed_of_failUnlessExpired hs₁ hhandler
  · obtain ⟨-, rfl⟩ := raises_failWith.mp hhandler
    exact Session.failed_failLocked (by decide) (by decide)

end Accept

/-! ## The choice of the tier -/

/-- What a session holds when a hard decision was derived. -/
structure Selection extends Acceptance where
  decision : PostCommitAuditDecision
  selected : ℤ
  revealDeadline : ℤ

/-- A session in which a hard decision was derived. -/
def Selection.session (nonce : Digest) (selection : Selection) : Session :=
  { selection.toAcceptance.session nonce with
    auditDecision := some selection.decision
    tierSelectedMonotonicNs := some selection.selected
    deadlineMonotonicNs := some selection.revealDeadline
    state := .hardSelected }

section Select

variable {nonce : Digest} {selected : ℤ} {acceptance : Acceptance}
  {decision : PostCommitAuditDecision}

/-- The decision that is derived from an envelope. -/
def Derives (functions : Functions) (config : SessionConfig) (nonce : Digest)
    (envelope : ProofV3CommitmentEnvelope) (decision : PostCommitAuditDecision) : Prop :=
  derivePostcommitAuditDecision functions.sha256 nonce config.profile envelope
    config.runtimePolicy = .ok decision

theorem selectAuditTierLocked_of_ne (hs : s.state ≠ .precommitAccepted) :
    ∃ e, Raises (selectAuditTierLocked functions config selected) s e s :=
  ⟨_, raises_bind.mpr (.inr ⟨s, s, returns_get.mpr ⟨rfl, rfl⟩, raises_bind.mpr
    (.inl (raises_check.mpr ⟨hs, rfl, rfl⟩))⟩)⟩

theorem returns_setRevealDeadline {u : Unit}
    (h : Returns (setRevealDeadline config selected) s u s') :
    ∃ deadline, s' = { s with deadlineMonotonicNs := some deadline } := by
  unfold setRevealDeadline at h
  split at h
  · simp only [returns_bind, returns_get, returns_call, returns_failOnOverflow, returns_modify,
      returns_requireArrival] at h
    obtain ⟨-, -, ⟨rfl, rfl⟩, received, -, ⟨-, rfl⟩, -, -, ⟨-, rfl⟩, -, -, rfl, -, -, rfl⟩ := h
    exact ⟨_, rfl⟩
  · simp only [returns_bind, returns_failOnOverflow, returns_modify] at h
    obtain ⟨-, -, ⟨-, rfl⟩, rfl⟩ := h
    exact ⟨_, rfl⟩

theorem failed_of_setRevealDeadline {received : ℤ}
    (hreceived : s.precommitReceivedMonotonicNs = some received) (hselected : 0 ≤ selected)
    (h : Raises (setRevealDeadline config selected) s e s') : s'.Failed := by
  unfold setRevealDeadline at h
  split at h
  · simp only [raises_bind, raises_get, returns_get, raises_call, returns_call, raises_modify,
      returns_modify, returns_failOnOverflow, false_or] at h
    obtain ⟨_, _, ⟨rfl, rfl⟩, ⟨hnone, _⟩ | ⟨_, _, ⟨_, rfl⟩, h | ⟨_, _, ⟨_, rfl⟩, _, _, rfl, h⟩⟩⟩ := h
    · rw [hreceived] at hnone
      cases hnone
    · exact failed_of_failOnOverflow h
    · exact (raises_requireArrival h).resolve_left fun hlate => absurd hlate.1 (by omega)
  · simp only [raises_bind, raises_modify, and_false, exists_false, or_false] at h
    exact failed_of_failOnOverflow h

theorem returns_selectAuditTierLocked
    (h : Returns (selectAuditTierLocked functions config selected) (acceptance.session nonce)
      decision s') :
    Derives functions config nonce acceptance.envelope decision ∧
      (decision.val.hardAuditSelected = false ∧ s'.Failed ∨
        decision.val.hardAuditSelected = true ∧ ∃ revealDeadline,
          s' = Selection.session nonce ⟨acceptance, decision, selected, revealDeadline⟩) := by
  simp only [selectAuditTierLocked, selectAuditTierBody, returns_bind, returns_get, returns_check,
    returns_tryCatch, returns_call, returns_failUnlessExpired, returns_failWith, and_false,
    exists_false, or_false] at h
  obtain ⟨-, -, ⟨rfl, rfl⟩, -, -, ⟨-, rfl⟩, -, -, ⟨-, -, ⟨-, rfl⟩, -, -, ⟨-, rfl⟩, -, rfl⟩,
    envelope, -, ⟨henvelope, rfl⟩, nonce', -, ⟨hnonce, rfl⟩, decision', -, ⟨hderive, rfl⟩, h⟩ := h
  obtain rfl : acceptance.envelope = envelope := Except.ok.inj henvelope
  obtain rfl : nonce = nonce' := Except.ok.inj hnonce
  rcases returns_ite.mp h with ⟨hlight, h⟩ | ⟨hhard, h⟩
  · simp only [returns_bind, returns_modify, returns_pure] at h
    obtain ⟨-, -, rfl, rfl, rfl⟩ := h
    exact ⟨hderive, .inl ⟨hlight, Session.failed_failLocked (by decide) (by decide)⟩⟩
  · simp only [returns_bind, returns_modify, returns_pure] at h
    obtain ⟨_, _, rfl, _, s₁, hdeadline, _, _, rfl, rfl, rfl⟩ := h
    obtain ⟨deadline, rfl⟩ := returns_setRevealDeadline hdeadline
    exact ⟨hderive, .inr ⟨by simpa using hhard, deadline, rfl⟩⟩

theorem raises_selectAuditTierBody (h : Raises (selectAuditTierBody selected) s e s') : s' = s := by
  simp only [selectAuditTierBody, raises_bind, raises_call, returns_call, returns_get, raises_get,
    raises_check, false_or] at h
  obtain ⟨-, rfl⟩ | ⟨-, -, ⟨-, rfl⟩, -, -, ⟨rfl, rfl⟩, -, -, rfl⟩ := h <;> rfl

theorem returns_selectAuditTierBody {u : Unit}
    (h : Returns (selectAuditTierBody selected) s u s') : 0 ≤ selected ∧ s' = s := by
  simp only [selectAuditTierBody, returns_bind, returns_call, returns_get, returns_check,
    monotonicNs, reject_eq_ok, not_lt] at h
  obtain ⟨-, -, ⟨hselected, rfl⟩, -, -, ⟨rfl, rfl⟩, -, rfl⟩ := h
  exact ⟨hselected, rfl⟩

theorem raises_selectAuditTierLocked
    (h : Raises (selectAuditTierLocked functions config selected) (acceptance.session nonce)
      e s') : s'.Failed := by
  simp only [selectAuditTierLocked, raises_bind, returns_get, returns_check, raises_get,
    raises_check, returns_tryCatch, returns_failUnlessExpired, and_false,
    exists_false, or_false, false_or] at h
  obtain ⟨_, _, ⟨rfl, rfl⟩, ⟨hne, -⟩ | ⟨_, _, ⟨-, rfl⟩, h | ⟨_, _, hbody, h⟩⟩⟩ := h
  · exact absurd rfl hne
  · refine failed_of_try (fun error s₁ hraises => ?_) h
    rw [raises_selectAuditTierBody hraises]
    exact fun hexpired => by cases hexpired
  obtain ⟨hselected, rfl⟩ := returns_selectAuditTierBody hbody
  simp only [Acceptance.session, required, call_ok, returns_pure, raises_pure, false_or,
    raises_ite, raises_bind, raises_modify, returns_modify, or_false, and_false, exists_false,
    returns_failWith, raises_tryCatch, raises_failWith, returns_call] at h
  obtain ⟨_, _, ⟨rfl, rfl⟩, _, _, ⟨rfl, rfl⟩, ⟨_, _, _, -, rfl⟩ | ⟨_, _, ⟨_, rfl⟩, _, _, _, rfl, h⟩⟩ := h
  · exact Session.failed_failLocked (by decide) (by decide)
  · exact failed_of_setRevealDeadline rfl hselected h

end Select

/-! ## The reveal -/

/-- A session that has revealed its nonce. -/
def Selection.revealed (config : SessionConfig) (nonce : Digest) (selection : Selection)
    (revealedNs : ℤ) : Session :=
  { selection.session nonce with
    nonceRevealedMonotonicNs := some revealedNs
    deadlineMonotonicNs := some (revealedNs + config.hardProofArrivalBudgetNs)
    state := .nonceRevealed }

section Reveal

variable {nonce : Digest} {revealedNs : ℤ} {acceptance : Acceptance} {selection : Selection}
  {reveal : NonceReveal}

/-- A reveal of this nonce, with this decision. -/
structure RevealOf (nonce : Digest) (decision : PostCommitAuditDecision) (reveal : NonceReveal) :
    Prop where
  nonce : reveal.val.validatorNonce = nonce
  decision : reveal.val.auditDecision = decision

theorem nonceReveal_spec {envelope : ProofV3CommitmentEnvelope}
    {decision : PostCommitAuditDecision}
    (h : nonceReveal functions config envelope nonce decision = .ok reveal) :
    RevealOf nonce decision reveal := by
  simp only [nonceReveal, bind_eq_ok, construct_eq_ok] at h
  obtain ⟨_, -, hfields⟩ := h
  exact ⟨by rw [hfields], by rw [hfields]⟩

theorem revealNonceOnce_of_ne (haccepted : s.state ≠ .precommitAccepted)
    (hselected : s.state ≠ .hardSelected) :
    ∃ e, Raises (revealNonceOnce functions config revealedNs) s e s := by
  have hdecision : ∃ e, Raises (decisionToReveal functions config revealedNs) s e s :=
    ⟨_, raises_bind.mpr (.inr ⟨s, s, returns_get.mpr ⟨rfl, rfl⟩,
      raises_ite.mpr (.inr ⟨haccepted, raises_check.mpr ⟨.inl hselected, rfl, rfl⟩⟩)⟩)⟩
  obtain ⟨e, hdecision⟩ := hdecision
  exact ⟨e, raises_bind.mpr (.inl hdecision)⟩

theorem returns_revealSelected
    (h : Returns (revealSelected functions config revealedNs) (selection.session nonce) reveal s') :
    RevealOf nonce selection.decision reveal ∧ s' = selection.revealed config nonce revealedNs := by
  simp only [revealSelected, revealNonceBody, returns_bind, returns_tryCatch,
    returns_failUnlessExpired, returns_failWith, returns_get, returns_check, returns_call,
    returns_requireArrival, returns_failOnOverflow, returns_modify, returns_pure, and_false,
    exists_false, or_false] at h
  obtain ⟨_, _, ⟨_, _, ⟨-, -, rfl⟩, _, _, ⟨rfl, rfl⟩, -, rfl⟩, _, _, ⟨rfl, rfl⟩, envelope, _,
    ⟨henvelope, rfl⟩, nonce', _, ⟨hnonce, rfl⟩, decision, _, ⟨hdecision, rfl⟩, reveal', _,
    ⟨hreveal, rfl⟩, _, _, ⟨-, rfl⟩, _, _, rfl, rfl, rfl⟩ := h
  obtain rfl : nonce = nonce' := Except.ok.inj hnonce
  obtain rfl : selection.decision = decision := Except.ok.inj hdecision
  exact ⟨nonceReveal_spec hreveal, rfl⟩

theorem raises_revealSelected
    (h : Raises (revealSelected functions config revealedNs) (selection.session nonce) e s') :
    s'.Failed := by
  simp only [revealSelected, raises_bind, returns_tryCatch, returns_failUnlessExpired, and_false,
    exists_false, or_false] at h
  rcases h with h | ⟨_, _, hbody, h⟩
  · refine failed_of_try (fun error s₁ hraises hexpired => ?_) h
    simp only [revealNonceBody, raises_bind, raises_get, raises_check, returns_get,
      returns_requireArrival, false_or] at hraises
    rcases hraises with harrival | ⟨_, _, ⟨-, -, rfl⟩, _, _, ⟨rfl, rfl⟩, -, -, rfl⟩
    · exact (raises_requireArrival harrival).resolve_left fun hsame => by
        rw [hsame.2] at hexpired
        cases hexpired
    · cases hexpired
  simp only [revealNonceBody, returns_bind, returns_requireArrival, returns_get,
    returns_check] at hbody
  obtain ⟨_, _, ⟨-, -, rfl⟩, _, _, ⟨rfl, rfl⟩, -, rfl⟩ := hbody
  simp only [raises_get, returns_get, false_or] at h
  obtain ⟨_, _, ⟨rfl, rfl⟩, h⟩ := h
  -- the session holds what the three assertions require
  simp only [Selection.session, Acceptance.session, required, call_ok, returns_pure, raises_pure,
    returns_call, raises_modify, false_or, or_false, and_false, exists_false, raises_call,
    returns_failWith, raises_tryCatch, raises_failWith, returns_failOnOverflow] at h
  obtain ⟨_, _, ⟨rfl, rfl⟩, _, _, ⟨rfl, rfl⟩, _, _, ⟨rfl, rfl⟩, h⟩ := h
  rcases h with ⟨_, _, _, -, rfl⟩ | ⟨_, _, ⟨-, rfl⟩, h⟩
  · exact Session.failed_failLocked (by decide) (by decide)
  · exact failed_of_failOnOverflow h

theorem decisionToReveal_accepted :
    decisionToReveal functions config revealedNs (acceptance.session nonce) =
      (do
        let decision ← selectAuditTierLocked functions config revealedNs
        check (decision.val.hardAuditSelected = false)
          (verificationError "proof-v3 light decision does not reveal validator nonce"))
        (acceptance.session nonce) := rfl

theorem returns_decisionToReveal {u : Unit}
    (h : Returns (decisionToReveal functions config revealedNs) (acceptance.session nonce) u s') :
    ∃ selection : Selection, selection.toAcceptance = acceptance ∧
      Derives functions config nonce acceptance.envelope selection.decision ∧
      selection.decision.val.hardAuditSelected = true ∧ s' = selection.session nonce := by
  obtain ⟨decision, s₁, hselect, hcheck⟩ := returns_bind.mp (decisionToReveal_accepted.symm.trans h)
  obtain ⟨hhard, rfl⟩ := returns_check.mp hcheck
  obtain ⟨hderives, ⟨hlight, -⟩ | ⟨hhard, revealDeadline, rfl⟩⟩ :=
    returns_selectAuditTierLocked hselect
  · exact absurd hlight hhard
  · exact ⟨_, rfl, hderives, hhard, rfl⟩

theorem raises_decisionToReveal
    (h : Raises (decisionToReveal functions config revealedNs) (acceptance.session nonce) e s') :
    s'.Failed := by
  rcases raises_bind.mp (decisionToReveal_accepted.symm.trans h) with
    hselect | ⟨decision, s₁, hselect, hcheck⟩
  · exact raises_selectAuditTierLocked hselect
  · obtain ⟨hlight, -, rfl⟩ := raises_check.mp hcheck
    obtain ⟨-, ⟨-, hfailed⟩ | ⟨hhard, -⟩⟩ := returns_selectAuditTierLocked hselect
    · exact hfailed
    · exact absurd (hhard.symm.trans hlight) nofun

theorem returns_revealNonceOnce_selected
    (h : Returns (revealNonceOnce functions config revealedNs) (selection.session nonce)
      reveal s') :
    RevealOf nonce selection.decision reveal ∧ s' = selection.revealed config nonce revealedNs :=
  returns_revealSelected h

theorem raises_revealNonceOnce_selected
    (h : Raises (revealNonceOnce functions config revealedNs) (selection.session nonce) e s') :
    s'.Failed :=
  raises_revealSelected h

/-- A session with an accepted envelope selects the tier, and reveals its nonce for a hard one. -/
theorem returns_revealNonceOnce_accepted
    (h : Returns (revealNonceOnce functions config revealedNs) (acceptance.session nonce)
      reveal s') :
    ∃ selection : Selection, selection.toAcceptance = acceptance ∧
      Derives functions config nonce acceptance.envelope selection.decision ∧
      selection.decision.val.hardAuditSelected = true ∧
      RevealOf nonce selection.decision reveal ∧
      s' = selection.revealed config nonce revealedNs := by
  obtain ⟨_, s₁, hdecision, h⟩ := returns_bind.mp h
  obtain ⟨selection, hacceptance, hderives, hhard, rfl⟩ := returns_decisionToReveal hdecision
  exact ⟨selection, hacceptance, hderives, hhard, returns_revealSelected h⟩

theorem raises_revealNonceOnce_accepted
    (h : Raises (revealNonceOnce functions config revealedNs) (acceptance.session nonce) e s') :
    s'.Failed := by
  rcases raises_bind.mp h with hdecision | ⟨_, s₁, hdecision, h⟩
  · exact raises_decisionToReveal hdecision
  · obtain ⟨selection, -, -, -, rfl⟩ := returns_decisionToReveal hdecision
    exact raises_revealSelected h

end Reveal

/-! ## Verification -/

/-- A session in which a verification runs. -/
def Selection.verifying (config : SessionConfig) (nonce : Digest) (selection : Selection)
    (revealedNs : ℤ) : Session :=
  { selection.revealed config nonce revealedNs with
    state := .verifying }

section Verify

variable {nonce : Digest} {revealedNs received : ℤ} {selection : Selection}
  {verification : Verification} {encodedProof : Bytes}
  {requestContext : Option ValidatorExecutionRequestContext}
  {observedOutput : Option ObservedExecutionOutput}

theorem startVerification_of_ne (hs : s.state ≠ .nonceRevealed) :
    ∃ e, Raises (startVerification encodedProof received requestContext observedOutput) s e s := by
  by_cases hlight : s.state = .lightRevealed
  · exact ⟨_, raises_bind.mpr (.inr ⟨s, s, returns_get.mpr ⟨rfl, rfl⟩, raises_bind.mpr
      (.inl (raises_check.mpr ⟨hlight, rfl, rfl⟩))⟩)⟩
  · exact ⟨_, raises_bind.mpr (.inr ⟨s, s, returns_get.mpr ⟨rfl, rfl⟩, raises_bind.mpr
      (.inr ⟨(), s, returns_check.mpr ⟨hlight, rfl⟩, raises_bind.mpr
        (.inl (raises_check.mpr ⟨hs, rfl, rfl⟩))⟩)⟩)⟩

theorem returns_startVerification
    (h : Returns (startVerification encodedProof received requestContext observedOutput)
      (selection.revealed config nonce revealedNs) verification s') :
    (revealedNs ≤ received ∧ received ≤ revealedNs + config.hardProofArrivalBudgetNs) ∧
      verification.envelope = selection.envelope ∧ verification.nonce = nonce ∧
      verification.auditDecision = selection.decision ∧
      verification.encodedProof = encodedProof ∧
      s' = selection.verifying config nonce revealedNs := by
  simp only [startVerification, startVerificationBody, returns_bind, returns_tryCatch,
    returns_failUnlessExpired, returns_get, returns_check, returns_call, returns_requireArrival,
    returns_modify, returns_pure, and_false, exists_false, or_false] at h
  obtain ⟨_, _, ⟨rfl, rfl⟩, _, _, ⟨-, rfl⟩, _, _, ⟨-, rfl⟩, _, _, ⟨_, _, ⟨-, hlate, rfl⟩, _, _,
    ⟨rfl, rfl⟩, hearly, rfl⟩, envelope, _, ⟨henvelope, rfl⟩, binding, _, ⟨-, rfl⟩, nonce', _,
    ⟨hnonce, rfl⟩, decision, _, ⟨hdecision, rfl⟩, _, _, rfl, rfl, rfl⟩ := h
  obtain ⟨deadline, hdeadline, hlate⟩ := hlate
  obtain rfl := Option.some.inj hdeadline
  have hearly : ¬ received < revealedNs := by
    simpa [Selection.revealed] using hearly
  obtain rfl : selection.envelope = envelope := Except.ok.inj henvelope
  obtain rfl : nonce = nonce' := Except.ok.inj hnonce
  obtain rfl : selection.decision = decision := Except.ok.inj hdecision
  exact ⟨⟨by omega, hlate⟩, rfl, rfl, rfl, rfl, rfl⟩

/-- A revealed session that refuses a proof has ended. -/
theorem raises_startVerification
    (h : Raises (startVerification encodedProof received requestContext observedOutput)
      (selection.revealed config nonce revealedNs) e s') : s'.Failed := by
  simp only [startVerification, raises_bind, raises_get, returns_get, raises_check, returns_check,
    returns_tryCatch, returns_failUnlessExpired, and_false, exists_false, or_false, false_or] at h
  obtain ⟨_, _, ⟨rfl, rfl⟩, ⟨hlight, -⟩ | ⟨_, _, ⟨-, rfl⟩, ⟨hne, -⟩ | ⟨_, _, ⟨-, rfl⟩,
    h | ⟨_, _, hbody, h⟩⟩⟩⟩ := h
  · cases hlight
  · exact absurd rfl hne
  · refine failed_of_try (fun error s₁ hraises hexpired => ?_) h
    simp only [startVerificationBody, raises_bind, raises_get, raises_check, returns_get,
      returns_requireArrival, false_or] at hraises
    rcases hraises with harrival | ⟨_, _, ⟨-, -, rfl⟩, _, _, ⟨rfl, rfl⟩, -, -, rfl⟩
    · exact (raises_requireArrival harrival).resolve_left fun hsame => by
        rw [hsame.2] at hexpired
        cases hexpired
    · cases hexpired
  · -- what the session holds after a reveal is all that a verification captures
    simp [Selection.revealed, Selection.session, Acceptance.session, required] at h

theorem finishVerification_of_ne (hs : s.state ≠ .verifying) :
    ∃ e, Raises (finishVerification functions config verification) s e s := by
  unfold finishVerification
  cases functions.verify config verification with
  | error error => exact ⟨error, by simp [hs]⟩
  | ok digest => exact ⟨_, by simp [hs]; rfl⟩

theorem returns_finishVerification {u : Unit}
    (h : Returns (finishVerification functions config verification) s u s') :
    ∃ digest, functions.verify config verification = .ok digest ∧ s'.Erased ∧
      s'.state = .verified ∧ s'.verifiedCaptureChainDigest = digest := by
  unfold finishVerification at h
  split at h
  · simp at h
  · rename_i digest hverify
    simp only [returns_bind, returns_get, returns_check, returns_modify] at h
    obtain ⟨_, _, ⟨rfl, rfl⟩, _, _, ⟨-, rfl⟩, rfl⟩ := h
    exact ⟨digest, hverify, ⟨rfl, rfl, rfl, rfl⟩, rfl, rfl⟩

theorem raises_finishVerification (hs : s.state = .verifying)
    (h : Raises (finishVerification functions config verification) s e s') : s'.Failed := by
  unfold finishVerification at h
  split at h
  · simp only [raises_bind, raises_modify, returns_modify, raises_throw, false_or] at h
    obtain ⟨_, _, rfl, -, rfl⟩ := h
    rw [if_pos hs]
    exact Session.failed_failLocked (by decide) (by decide)
  · simp [hs] at h

end Verify

/-! ## Ends from outside -/

theorem returns_expire {now : ℤ} (h : Returns (expire now) s u s') :
    s' = s ∨ s.state ∉ terminalStates ∧ s'.Failed := by
  simp only [expire, returns_bind, returns_get, returns_ite, returns_pure, returns_call,
    returns_modify] at h
  obtain ⟨_, _, ⟨rfl, rfl⟩, ⟨-, -, rfl⟩ | ⟨hstate, _, _, ⟨-, rfl⟩, ⟨-, -, rfl⟩ | ⟨-, rfl⟩⟩⟩ := h
  · exact .inl rfl
  · exact .inl rfl
  · exact .inr ⟨hstate, Session.failed_failLocked (by decide) (by decide)⟩

theorem raises_expire {now : ℤ} (h : Raises (expire now) s e s') : s' = s := by
  simp only [expire, raises_bind, returns_get, raises_get, raises_ite, raises_pure, raises_call,
    raises_modify, returns_call, and_false, or_false, false_or, exists_false] at h
  obtain ⟨_, _, ⟨rfl, rfl⟩, -, -, rfl⟩ := h
  rfl

theorem returns_failClosed (h : Returns failClosed s u s') :
    s' = s ∨ s.state ∉ terminalStates ∧ s'.Failed := by
  rw [returns_modify.mp h]
  split_ifs with hstate
  · exact .inl rfl
  · exact .inr ⟨hstate, Session.failed_failLocked (by decide) (by decide)⟩

theorem returns_abort (h : Returns abort s u s') :
    s' = s ∨ s.state ∉ terminalStates ∧ s'.Failed := by
  rw [returns_modify.mp h]
  split_ifs with hstate
  · exact .inl rfl
  · exact .inr ⟨hstate, Session.failed_failLocked (by decide) (by decide)⟩

end Verathos.ProofV3
