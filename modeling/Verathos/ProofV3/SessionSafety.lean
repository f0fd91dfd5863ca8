import Verathos.ProofV3.SessionPhases

/-!
# Safety of the challenge session

The session under every sequence of its locked steps, with arbitrary arguments and times. A
verification that has started is in flight until it ends, and any other call may come in between.

* The history records what the calls returned, newest first.
* `Course` lists the histories that can arise, and `Valid` says which session goes with which
  history. Every call keeps `Valid` (`valid_step`), and no call changes an ended session
  (`step_of_terminal`).
-/

namespace Verathos.ProofV3

open Method

/-! ## Runs -/

/-- A locked step of a session. -/
inductive SessionCall where
  | acceptPrecommitBytes (encodedEnvelope : Bytes)
      (observedOutput : Option ObservedExecutionOutput)
      (lastVisibleTokenMonotonicNs receivedMonotonicNs : ℤ)
  | selectAuditTierOnce (selectedMonotonicNs : ℤ)
  | revealNonceOnce (revealedMonotonicNs : ℤ)
  | startVerification (encodedProof : Bytes) (receivedMonotonicNs : ℤ)
      (validatorRequestContext : Option ValidatorExecutionRequestContext)
      (observedOutput : Option ObservedExecutionOutput)
  /-- The end of the verification at a place among those in flight. -/
  | finishVerification (place : ℕ)
  | expire (nowMonotonicNs : ℤ)
  | failClosed
  | abort

/-- What a call returned. -/
inductive SessionEvent where
  | accepted (encodedEnvelope : Bytes)
  | decided (decision : PostCommitAuditDecision)
  | revealed (revealedNs : ℤ) (reveal : NonceReveal)
  | started (receivedNs : ℤ) (verification : Verification)
  | verified (verification : Verification)

/-- A session with its verifications in flight and its history. -/
structure TrackedSession where
  session : Session
  inFlight : List Verification := []
  history : List SessionEvent := []

/-- A session is issued with its nonce. -/
def TrackedSession.issued (nonce : Digest) : TrackedSession where
  session := .awaiting nonce

/-- How a call ends: its session stays, and what it returned is recorded. -/
def TrackedSession.record {α : Type} (t : TrackedSession) (method : SessionMethod α)
    (events : α → List SessionEvent) : TrackedSession :=
  match method t.session with
  | .ok value session =>
    { t with
      session
      history := events value ++ t.history }
  | .error _ session => { t with session }

/-- The events of a reveal: on an accepted envelope it derives its decision itself. -/
def revealEvents (state : SessionState) (revealedNs : ℤ) (reveal : NonceReveal) :
    List SessionEvent :=
  if state = .precommitAccepted then
    [.revealed revealedNs reveal, .decided reveal.val.auditDecision]
  else [.revealed revealedNs reveal]

section Runs

variable (functions : Functions) (config : SessionConfig)

/-- One step. -/
def TrackedSession.step (t : TrackedSession) : SessionCall → TrackedSession
  | .acceptPrecommitBytes encodedEnvelope observedOutput lastVisible received =>
    t.record
      (acceptPrecommitBytes functions config encodedEnvelope observedOutput lastVisible received)
      fun _ => [.accepted encodedEnvelope]
  | .selectAuditTierOnce selected =>
    t.record (selectAuditTierLocked functions config selected) fun decision => [.decided decision]
  | .revealNonceOnce revealed =>
    t.record (revealNonceOnce functions config revealed) (revealEvents t.session.state revealed)
  | .startVerification encodedProof received requestContext observedOutput =>
    match startVerification encodedProof received requestContext observedOutput t.session with
    | .ok verification session =>
      { t with
        session
        inFlight := t.inFlight ++ [verification]
        history := .started received verification :: t.history }
    | .error _ session => { t with session }
  | .finishVerification place =>
    match t.inFlight[place]? with
    | some verification =>
      { t.record (finishVerification functions config verification)
          (fun _ => [.verified verification]) with
        inFlight := t.inFlight.eraseIdx place }
    | none => t
  | .expire now => t.record (expire now) fun _ => []
  | .failClosed => t.record failClosed fun _ => []
  | .abort => t.record abort fun _ => []

/-- A sequence of steps. -/
def TrackedSession.run (t : TrackedSession) (calls : List SessionCall) : TrackedSession :=
  calls.foldl (fun t call => t.step functions config call) t

end Runs

variable {functions : Functions} {config : SessionConfig} {nonce : Digest} {t : TrackedSession}

theorem record_cases {α : Type} {motive : TrackedSession → Prop} {method : SessionMethod α}
    {events : α → List SessionEvent}
    (hreturns : ∀ value session, Returns method t.session value session →
      motive { t with
        session
        history := events value ++ t.history })
    (hraises : ∀ e session, Raises method t.session e session → motive { t with session }) :
    motive (t.record method events) := by
  unfold TrackedSession.record
  cases h : method t.session with
  | ok value session => exact hreturns value session h
  | error e session => exact hraises e session h

theorem record_of_raises {α : Type} {method : SessionMethod α} {events : α → List SessionEvent}
    (h : ∃ e, Raises method t.session e t.session) : t.record method events = t := by
  obtain ⟨e, h⟩ := h
  unfold TrackedSession.record
  rw [h]

/-! ## Ended sessions -/

variable (call : SessionCall)

theorem step_of_terminal (h : t.session.state ∈ terminalStates) :
    (t.step functions config call).session = t.session := by
  have hne {state : SessionState} (hstate : state ∉ terminalStates) : t.session.state ≠ state :=
    fun heq => hstate (heq ▸ h)
  cases call with
  | acceptPrecommitBytes encodedEnvelope observedOutput lastVisible received =>
    exact congrArg _ (record_of_raises (acceptPrecommitBytes_of_ne (hne (by decide))))
  | selectAuditTierOnce selected =>
    exact congrArg _ (record_of_raises (selectAuditTierLocked_of_ne (hne (by decide))))
  | revealNonceOnce revealed =>
    exact congrArg _ (record_of_raises
      (revealNonceOnce_of_ne (hne (by decide)) (hne (by decide))))
  | startVerification encodedProof received requestContext observedOutput =>
    have hrefused : ∃ e, Raises (startVerification encodedProof received requestContext
        observedOutput) t.session e t.session := startVerification_of_ne (hne (by decide))
    obtain ⟨e, hraises⟩ := hrefused
    simp only [TrackedSession.step]
    rw [hraises]
  | finishVerification place =>
    simp only [TrackedSession.step]
    split
    · rw [record_of_raises (finishVerification_of_ne (hne (by decide)))]
    · rfl
  | expire now =>
    refine record_cases (motive := fun t' => t'.session = t.session) (fun u session hr => ?_)
      (fun e session hr => ?_)
    · exact (returns_expire hr).resolve_right fun hlive => hlive.1 h
    · exact raises_expire hr
  | failClosed =>
    refine record_cases (motive := fun t' => t'.session = t.session) (fun u session hr => ?_)
      (fun e session hr => absurd hr raises_modify)
    exact (returns_failClosed hr).resolve_right fun hlive => hlive.1 h
  | abort =>
    refine record_cases (motive := fun t' => t'.session = t.session) (fun u session hr => ?_)
      (fun e session hr => absurd hr raises_modify)
    exact (returns_abort hr).resolve_right fun hlive => hlive.1 h

/-! ## Histories and sessions -/

/-- The bytes decode to the envelope, and it is bound to the profile and the precommit context. -/
structure AcceptedAs (functions : Functions) (config : SessionConfig) (encodedEnvelope : Bytes)
    (envelope : ProofV3CommitmentEnvelope) : Prop where
  decodes : commitmentEnvelopeFromBytes encodedEnvelope = .ok envelope
  bound : EnvelopeBound functions config envelope

/-- A hard decision that is derived from an accepted envelope. -/
structure DecidedHard (functions : Functions) (config : SessionConfig) (nonce : Digest)
    (encodedEnvelope : Bytes) (envelope : ProofV3CommitmentEnvelope)
    (decision : PostCommitAuditDecision) : Prop
    extends AcceptedAs functions config encodedEnvelope envelope where
  derives : Derives functions config nonce envelope decision
  hard : decision.val.hardAuditSelected = true

/-- A verification of a proof that arrived in time, for what the session holds. -/
structure StartedInTime (config : SessionConfig) (nonce : Digest)
    (envelope : ProofV3CommitmentEnvelope) (decision : PostCommitAuditDecision)
    (revealedNs receivedNs : ℤ) (verification : Verification) : Prop where
  early : revealedNs ≤ receivedNs
  late : receivedNs ≤ revealedNs + config.hardProofArrivalBudgetNs
  envelope : verification.envelope = envelope
  nonce : verification.nonce = nonce
  decision : verification.auditDecision = decision

/-- The histories of a session. -/
inductive Course (functions : Functions) (config : SessionConfig) (nonce : Digest) :
    List SessionEvent → Prop
  | issued : Course functions config nonce []
  | accepted {bytes : Bytes} {envelope : ProofV3CommitmentEnvelope}
      (haccepted : AcceptedAs functions config bytes envelope) :
      Course functions config nonce [.accepted bytes]
  | light {bytes : Bytes} {envelope : ProofV3CommitmentEnvelope}
      {decision : PostCommitAuditDecision}
      (haccepted : AcceptedAs functions config bytes envelope)
      (hderives : Derives functions config nonce envelope decision)
      (hlight : decision.val.hardAuditSelected = false) :
      Course functions config nonce [.decided decision, .accepted bytes]
  | hard {bytes : Bytes} {envelope : ProofV3CommitmentEnvelope}
      {decision : PostCommitAuditDecision}
      (hdecided : DecidedHard functions config nonce bytes envelope decision) :
      Course functions config nonce [.decided decision, .accepted bytes]
  | revealed {bytes : Bytes} {envelope : ProofV3CommitmentEnvelope}
      {decision : PostCommitAuditDecision} {revealedNs : ℤ} {reveal : NonceReveal}
      (hdecided : DecidedHard functions config nonce bytes envelope decision)
      (hreveal : RevealOf nonce decision reveal) :
      Course functions config nonce
        [.revealed revealedNs reveal, .decided decision, .accepted bytes]
  | started {bytes : Bytes} {envelope : ProofV3CommitmentEnvelope}
      {decision : PostCommitAuditDecision} {revealedNs receivedNs : ℤ} {reveal : NonceReveal}
      {verification : Verification}
      (hdecided : DecidedHard functions config nonce bytes envelope decision)
      (hreveal : RevealOf nonce decision reveal)
      (hstarted : StartedInTime config nonce envelope decision revealedNs receivedNs
        verification) :
      Course functions config nonce [.started receivedNs verification,
        .revealed revealedNs reveal, .decided decision, .accepted bytes]
  | verified {bytes : Bytes} {envelope : ProofV3CommitmentEnvelope}
      {decision : PostCommitAuditDecision} {revealedNs receivedNs : ℤ} {reveal : NonceReveal}
      {verification : Verification} {digest : Option Bytes}
      (hdecided : DecidedHard functions config nonce bytes envelope decision)
      (hreveal : RevealOf nonce decision reveal)
      (hstarted : StartedInTime config nonce envelope decision revealedNs receivedNs
        verification)
      (hverify : functions.verify config verification = .ok digest) :
      Course functions config nonce [.verified verification, .started receivedNs verification,
        .revealed revealedNs reveal, .decided decision, .accepted bytes]

/-- Which session goes with which history. -/
inductive Valid (functions : Functions) (config : SessionConfig) (nonce : Digest) :
    TrackedSession → Prop
  | awaiting : Valid functions config nonce ⟨.awaiting nonce, [], []⟩
  | accepted {bytes : Bytes} {acceptance : Acceptance}
      (haccepted : AcceptedAs functions config bytes acceptance.envelope) :
      Valid functions config nonce ⟨acceptance.session nonce, [], [.accepted bytes]⟩
  | selected {bytes : Bytes} {selection : Selection}
      (hdecided : DecidedHard functions config nonce bytes selection.envelope
        selection.decision) :
      Valid functions config nonce
        ⟨selection.session nonce, [], [.decided selection.decision, .accepted bytes]⟩
  | revealed {bytes : Bytes} {selection : Selection} {revealedNs : ℤ} {reveal : NonceReveal}
      (hdecided : DecidedHard functions config nonce bytes selection.envelope
        selection.decision)
      (hreveal : RevealOf nonce selection.decision reveal) :
      Valid functions config nonce ⟨selection.revealed config nonce revealedNs, [],
        [.revealed revealedNs reveal, .decided selection.decision, .accepted bytes]⟩
  | verifying {bytes : Bytes} {selection : Selection} {revealedNs receivedNs : ℤ}
      {reveal : NonceReveal} {verification : Verification}
      (hdecided : DecidedHard functions config nonce bytes selection.envelope
        selection.decision)
      (hreveal : RevealOf nonce selection.decision reveal)
      (hstarted : StartedInTime config nonce selection.envelope selection.decision revealedNs
        receivedNs verification) :
      Valid functions config nonce ⟨selection.verifying config nonce revealedNs, [verification],
        [.started receivedNs verification, .revealed revealedNs reveal,
          .decided selection.decision, .accepted bytes]⟩
  | verified {s : Session} {bytes : Bytes} {envelope : ProofV3CommitmentEnvelope}
      {decision : PostCommitAuditDecision} {revealedNs receivedNs : ℤ} {reveal : NonceReveal}
      {verification : Verification}
      (hstate : s.state = .verified) (herased : s.Erased)
      (hdecided : DecidedHard functions config nonce bytes envelope decision)
      (hreveal : RevealOf nonce decision reveal)
      (hstarted : StartedInTime config nonce envelope decision revealedNs receivedNs
        verification)
      (hverify : functions.verify config verification = .ok s.verifiedCaptureChainDigest) :
      Valid functions config nonce ⟨s, [],
        [.verified verification, .started receivedNs verification,
          .revealed revealedNs reveal, .decided decision, .accepted bytes]⟩
  | ended {s : Session} {inFlight : List Verification} {history : List SessionEvent}
      (hfailed : s.Failed) (hcourse : Course functions config nonce history) :
      Valid functions config nonce ⟨s, inFlight, history⟩

theorem Valid.course (h : Valid functions config nonce t) :
    Course functions config nonce t.history := by
  cases h with
  | awaiting => exact .issued
  | accepted haccepted => exact .accepted haccepted
  | selected hdecided => exact .hard hdecided
  | revealed hdecided hreveal => exact .revealed hdecided hreveal
  | verifying hdecided hreveal hstarted => exact .started hdecided hreveal hstarted
  | verified _ _ hdecided hreveal hstarted hverify =>
    exact .verified hdecided hreveal hstarted hverify
  | ended _ hcourse => exact hcourse

theorem Valid.end {s : Session} (h : Valid functions config nonce t) (hs : s.Failed) :
    Valid functions config nonce { t with session := s } :=
  .ended hs h.course

/-! ## Every call keeps a session valid -/

theorem valid_acceptPrecommitBytes {encodedEnvelope : Bytes}
    {observedOutput : Option ObservedExecutionOutput} {lastVisible received : ℤ}
    (h : Valid functions config nonce t) :
    Valid functions config nonce (t.step functions config
      (.acceptPrecommitBytes encodedEnvelope observedOutput lastVisible received)) := by
  by_cases hstate : t.session.state = .awaitingPrecommit
  · cases h with
    | awaiting =>
      refine record_cases (fun u session hreturns => ?_) (fun e session hraises => ?_)
      · obtain ⟨acceptance, hdecodes, hbound, rfl⟩ := returns_acceptPrecommitBytes hreturns
        exact .accepted ⟨hdecodes, hbound⟩
      · exact Valid.awaiting.end (raises_acceptPrecommitBytes hraises)
    | verified hverified => exact nomatch hverified.symm.trans hstate
    | ended hfailed => exact absurd (hstate ▸ hfailed.state) (by decide)
    | _ => exact nomatch hstate
  · rw [TrackedSession.step, record_of_raises (acceptPrecommitBytes_of_ne hstate)]
    exact h

theorem valid_selectAuditTierOnce {selected : ℤ} (h : Valid functions config nonce t) :
    Valid functions config nonce (t.step functions config (.selectAuditTierOnce selected)) := by
  by_cases hstate : t.session.state = .precommitAccepted
  · cases h with
    | accepted haccepted =>
      refine record_cases (fun decision session hreturns => ?_) (fun e session hraises => ?_)
      · obtain ⟨hderives, ⟨hlight, hfailed⟩ | ⟨hhard, deadline, rfl⟩⟩ :=
          returns_selectAuditTierLocked hreturns
        · exact .ended hfailed (.light haccepted hderives hlight)
        · exact .selected ⟨haccepted, hderives, hhard⟩
      · exact (Valid.accepted haccepted).end (raises_selectAuditTierLocked hraises)
    | verified hverified => exact nomatch hverified.symm.trans hstate
    | ended hfailed => exact absurd (hstate ▸ hfailed.state) (by decide)
    | _ => exact nomatch hstate
  · rw [TrackedSession.step, record_of_raises (selectAuditTierLocked_of_ne hstate)]
    exact h

theorem valid_revealNonceOnce {revealed : ℤ} (h : Valid functions config nonce t) :
    Valid functions config nonce (t.step functions config (.revealNonceOnce revealed)) := by
  by_cases haccepted : t.session.state = .precommitAccepted
  · cases h with
    | accepted hbytes =>
      refine record_cases (fun reveal session hreturns => ?_) (fun e session hraises => ?_)
      · obtain ⟨selection, rfl, hderives, hhard, hreveal, rfl⟩ :=
          returns_revealNonceOnce_accepted hreturns
        rw [revealEvents, if_pos haccepted, hreveal.decision]
        exact .revealed ⟨hbytes, hderives, hhard⟩ hreveal
      · exact (Valid.accepted hbytes).end (raises_revealNonceOnce_accepted hraises)
    | verified hverified => exact nomatch hverified.symm.trans haccepted
    | ended hfailed => exact absurd (haccepted ▸ hfailed.state) (by decide)
    | _ => exact nomatch haccepted
  by_cases hselected : t.session.state = .hardSelected
  · cases h with
    | selected hdecided =>
      refine record_cases (fun reveal session hreturns => ?_) (fun e session hraises => ?_)
      · obtain ⟨hreveal, rfl⟩ := returns_revealNonceOnce_selected hreturns
        rw [revealEvents, if_neg haccepted]
        exact .revealed hdecided hreveal
      · exact (Valid.selected hdecided).end (raises_revealNonceOnce_selected hraises)
    | verified hverified => exact nomatch hverified.symm.trans hselected
    | ended hfailed => exact absurd (hselected ▸ hfailed.state) (by decide)
    | _ => exact nomatch hselected
  · rw [TrackedSession.step, record_of_raises (revealNonceOnce_of_ne haccepted hselected)]
    exact h

theorem valid_startVerification {encodedProof : Bytes} {received : ℤ}
    {requestContext : Option ValidatorExecutionRequestContext}
    {observedOutput : Option ObservedExecutionOutput} (h : Valid functions config nonce t) :
    Valid functions config nonce (t.step functions config
      (.startVerification encodedProof received requestContext observedOutput)) := by
  simp only [TrackedSession.step]
  by_cases hstate : t.session.state = .nonceRevealed
  · cases h with
    | revealed hdecided hreveal =>
      split
      · rename_i verification session hreturns
        obtain ⟨⟨hearly, hlate⟩, henvelope, hnonce, hdecision, -, rfl⟩ :=
          returns_startVerification hreturns
        exact .verifying hdecided hreveal ⟨hearly, hlate, henvelope, hnonce, hdecision⟩
      · rename_i e session hraises
        exact (Valid.revealed hdecided hreveal).end (raises_startVerification hraises)
    | verified hverified => exact nomatch hverified.symm.trans hstate
    | ended hfailed => exact absurd (hstate ▸ hfailed.state) (by decide)
    | _ => exact nomatch hstate
  · have hrefused : ∃ e, Raises (startVerification encodedProof received requestContext
        observedOutput) t.session e t.session := startVerification_of_ne hstate
    obtain ⟨e, hraises⟩ := hrefused
    rw [hraises]
    exact h

theorem valid_finishVerification {place : ℕ} (h : Valid functions config nonce t) :
    Valid functions config nonce (t.step functions config (.finishVerification place)) := by
  simp only [TrackedSession.step]
  split
  swap
  · exact h
  rename_i verification hplace
  cases h with
  | @verifying bytes selection revealedNs receivedNs reveal started hdecided hreveal hstarted =>
    obtain ⟨rfl, rfl⟩ : place = 0 ∧ started = verification := by
      cases place <;> simp_all
    refine record_cases (motive := fun t' => Valid functions config nonce
      { t' with inFlight := [] }) (fun u session hreturns => ?_) (fun e session hraises => ?_)
    · obtain ⟨digest, hverify, herased, hstate, rfl⟩ := returns_finishVerification hreturns
      exact .verified hstate herased hdecided hreveal hstarted hverify
    · exact .ended (raises_finishVerification (by rfl) hraises)
        (.started hdecided hreveal hstarted)
  | ended hfailed hcourse =>
    rw [record_of_raises (finishVerification_of_ne fun hstate =>
      absurd (hstate ▸ hfailed.state) (by decide))]
    exact .ended hfailed hcourse
  | _ => exact nomatch hplace

theorem valid_of_ends {α : Type} {method : SessionMethod α}
    (hreturns : ∀ value session, Returns method t.session value session →
      session = t.session ∨ t.session.state ∉ terminalStates ∧ session.Failed)
    (hraises : ∀ e session, Raises method t.session e session → session = t.session)
    (h : Valid functions config nonce t) :
    Valid functions config nonce (t.record method fun _ => []) := by
  refine record_cases (fun value session hr => ?_) (fun e session hr => ?_)
  · rcases hreturns value session hr with rfl | ⟨-, hfailed⟩
    · exact h
    · exact h.end hfailed
  · rw [hraises e session hr]
    exact h

theorem valid_step (h : Valid functions config nonce t) :
    Valid functions config nonce (t.step functions config call) := by
  cases call with
  | acceptPrecommitBytes => exact valid_acceptPrecommitBytes h
  | selectAuditTierOnce => exact valid_selectAuditTierOnce h
  | revealNonceOnce => exact valid_revealNonceOnce h
  | startVerification => exact valid_startVerification h
  | finishVerification => exact valid_finishVerification h
  | expire =>
    exact valid_of_ends (fun _ _ => returns_expire) (fun _ _ => raises_expire) h
  | failClosed =>
    exact valid_of_ends (fun _ _ => returns_failClosed) (fun _ _ hr => absurd hr raises_modify) h
  | abort =>
    exact valid_of_ends (fun _ _ => returns_abort) (fun _ _ hr => absurd hr raises_modify) h

variable (calls : List SessionCall)

theorem valid_run (h : Valid functions config nonce t) :
    Valid functions config nonce (t.run functions config calls) := by
  induction calls generalizing t with
  | nil => exact h
  | cons call calls ih => exact ih (valid_step call h)

/-! ## Safety -/

/-- The nonce is returned at most once, and only after an envelope was accepted and a hard decision
was derived from it: what is older than a reveal has no other one, but has both of these. -/
def RevealsOnce (functions : Functions) (config : SessionConfig) (nonce : Digest)
    (history : List SessionEvent) : Prop :=
  ∀ revealedNs reveal older, .revealed revealedNs reveal :: older <:+ history →
    (∀ revealedNs' reveal', .revealed revealedNs' reveal' ∉ older) ∧
    ∃ bytes envelope decision, .accepted bytes ∈ older ∧ .decided decision ∈ older ∧
      DecidedHard functions config nonce bytes envelope decision ∧ RevealOf nonce decision reveal

/-- A verified session had one verification, of a proof received between the reveal and the end of
the hard budget, for the accepted envelope and its decision, and its verifier call succeeded. -/
def VerifiedInTime (functions : Functions) (config : SessionConfig) (nonce : Digest)
    (t : TrackedSession) : Prop :=
  t.session.state = .verified →
    ∃ bytes envelope decision revealedNs reveal receivedNs verification,
      t.history = [.verified verification, .started receivedNs verification,
        .revealed revealedNs reveal, .decided decision, .accepted bytes] ∧
      DecidedHard functions config nonce bytes envelope decision ∧
      StartedInTime config nonce envelope decision revealedNs receivedNs verification ∧
      functions.verify config verification = .ok t.session.verifiedCaptureChainDigest

theorem Course.revealsOnce {history : List SessionEvent}
    (h : Course functions config nonce history) :
    RevealsOnce functions config nonce history := by
  intro revealedNs reveal older hsuffix
  -- in each history the reveal stands right after the decision and the envelope
  have holder {bytes : Bytes} {envelope : ProofV3CommitmentEnvelope}
      {decision : PostCommitAuditDecision}
      (hdecided : DecidedHard functions config nonce bytes envelope decision)
      (hreveal : RevealOf nonce decision reveal)
      (heq : older = [.decided decision, .accepted bytes]) :
      (∀ revealedNs' reveal', .revealed revealedNs' reveal' ∉ older) ∧
        ∃ bytes envelope decision, .accepted bytes ∈ older ∧ .decided decision ∈ older ∧
          DecidedHard functions config nonce bytes envelope decision ∧
          RevealOf nonce decision reveal := by
    subst heq
    exact ⟨by simp, bytes, envelope, decision, by simp, by simp, hdecided, hreveal⟩
  cases h with
  | revealed hdecided hreveal =>
    simp only [List.suffix_cons_iff, List.suffix_nil, List.cons.injEq, SessionEvent.revealed.injEq,
      reduceCtorEq, false_and, or_false] at hsuffix
    obtain ⟨⟨-, rfl⟩, heq⟩ := hsuffix
    exact holder hdecided hreveal heq
  | started hdecided hreveal hstarted =>
    simp only [List.suffix_cons_iff, List.suffix_nil, List.cons.injEq, SessionEvent.revealed.injEq,
      reduceCtorEq, false_and, or_false, false_or] at hsuffix
    obtain ⟨⟨-, rfl⟩, heq⟩ := hsuffix
    exact holder hdecided hreveal heq
  | verified hdecided hreveal hstarted hverify =>
    simp only [List.suffix_cons_iff, List.suffix_nil, List.cons.injEq, SessionEvent.revealed.injEq,
      reduceCtorEq, false_and, or_false, false_or] at hsuffix
    obtain ⟨⟨-, rfl⟩, heq⟩ := hsuffix
    exact holder hdecided hreveal heq
  | _ => simp [List.suffix_cons_iff] at hsuffix

theorem Course.accepted_unique {history : List SessionEvent} {bytes bytes' : Bytes}
    (h : Course functions config nonce history) (hbytes : .accepted bytes ∈ history)
    (hbytes' : .accepted bytes' ∈ history) : bytes = bytes' := by
  cases h <;> simp_all

theorem Valid.accepted_of_envelope {envelope : ProofV3CommitmentEnvelope}
    (h : Valid functions config nonce t) (henvelope : t.session.envelope = some envelope) :
    ∃ bytes, .accepted bytes ∈ t.history ∧ commitmentEnvelopeFromBytes bytes = .ok envelope := by
  have hfound {bytes : Bytes} {envelope' : ProofV3CommitmentEnvelope}
      (hmem : .accepted bytes ∈ t.history) (haccepted : AcceptedAs functions config bytes envelope')
      (heq : some envelope' = some envelope) :
      ∃ bytes, .accepted bytes ∈ t.history ∧
        commitmentEnvelopeFromBytes bytes = .ok envelope := by
    obtain rfl := Option.some.inj heq
    exact ⟨bytes, hmem, haccepted.decodes⟩
  cases h with
  | awaiting => exact nomatch henvelope
  | accepted haccepted => exact hfound (by simp) haccepted henvelope
  | selected hdecided => exact hfound (by simp) hdecided.toAcceptedAs henvelope
  | revealed hdecided => exact hfound (by simp) hdecided.toAcceptedAs henvelope
  | verifying hdecided => exact hfound (by simp) hdecided.toAcceptedAs henvelope
  | verified _ herased => exact nomatch herased.envelope.symm.trans henvelope
  | ended hfailed => exact nomatch hfailed.erased.envelope.symm.trans henvelope

/-- A step only adds to the history. -/
theorem history_suffix_step : t.history <:+ (t.step functions config call).history := by
  have hrecord {α : Type} (method : SessionMethod α) (events : α → List SessionEvent) :
      t.history <:+ (t.record method events).history :=
    record_cases (motive := fun t' => t.history <:+ t'.history)
      (fun value _ _ => List.suffix_append (events value) t.history) fun _ _ _ => List.suffix_rfl
  cases call with
  | startVerification =>
    simp only [TrackedSession.step]
    split
    · exact List.suffix_cons _ _
    · exact List.suffix_rfl
  | finishVerification =>
    simp only [TrackedSession.step]
    split
    · exact hrecord _ _
    · exact List.suffix_rfl
  | _ => exact hrecord _ _

theorem history_suffix_run : t.history <:+ (t.run functions config calls).history := by
  induction calls generalizing t with
  | nil => exact List.suffix_rfl
  | cons call calls ih => exact (history_suffix_step call).trans ih

theorem run_of_terminal (h : t.session.state ∈ terminalStates) :
    (t.run functions config calls).session = t.session := by
  induction calls generalizing t with
  | nil => rfl
  | cons call calls ih =>
    have hstep : (t.step functions config call).session = t.session := step_of_terminal call h
    exact (ih (by rwa [hstep])).trans hstep

theorem Valid.envelope_unique {envelope envelope' : ProofV3CommitmentEnvelope}
    (h : Valid functions config nonce t) (calls : List SessionCall)
    (henvelope : t.session.envelope = some envelope)
    (henvelope' : (t.run functions config calls).session.envelope = some envelope') :
    envelope' = envelope := by
  obtain ⟨bytes, hmem, hdecodes⟩ := h.accepted_of_envelope henvelope
  obtain ⟨bytes', hmem', hdecodes'⟩ := (valid_run calls h).accepted_of_envelope henvelope'
  obtain rfl := (valid_run calls h).course.accepted_unique
    ((history_suffix_run calls).mem hmem) hmem'
  exact Except.ok.inj (hdecodes'.symm.trans hdecodes)

theorem Valid.verifiedInTime (h : Valid functions config nonce t) :
    VerifiedInTime functions config nonce t := by
  intro hstate
  cases h with
  | verified _ _ hdecided hreveal hstarted hverify =>
    exact ⟨_, _, _, _, _, _, _, rfl, hdecided, hstarted, hverify⟩
  | ended hfailed => exact absurd hstate hfailed.not_verified
  | _ => exact nomatch hstate

theorem Valid.erased_of_terminal (h : Valid functions config nonce t)
    (hstate : t.session.state ∈ terminalStates) : t.session.Erased := by
  cases h with
  | verified _ herased => exact herased
  | ended hfailed => exact hfailed.erased
  | _ => simp [terminalStates, Session.awaiting, Acceptance.session, Selection.session,
      Selection.revealed, Selection.verifying] at hstate

/-- The safety of a challenge session: after every run `calls` of its steps, and every further run
`more`, the nonce was returned at most once and after a hard decision, the accepted envelope is
still the same, a verified session was verified in time, and an ended session stays as it is and
holds no secret. -/
theorem challengeSession_safe (functions : Functions) (config : SessionConfig) (nonce : Digest)
    (calls more : List SessionCall) :
    let t := (TrackedSession.issued nonce).run functions config calls
    let t' := t.run functions config more
    RevealsOnce functions config nonce t.history ∧
      (∀ envelope envelope', t.session.envelope = some envelope →
        t'.session.envelope = some envelope' → envelope' = envelope) ∧
      VerifiedInTime functions config nonce t ∧
      (t.session.state ∈ terminalStates → t'.session = t.session ∧ t.session.Erased) := by
  intro t t'
  have hvalid : Valid functions config nonce t := valid_run calls .awaiting
  refine ⟨hvalid.course.revealsOnce, fun envelope envelope' => hvalid.envelope_unique more,
    hvalid.verifiedInTime, fun hstate => ?_⟩
  exact ⟨run_of_terminal more hstate, hvalid.erased_of_terminal hstate⟩

end Verathos.ProofV3
