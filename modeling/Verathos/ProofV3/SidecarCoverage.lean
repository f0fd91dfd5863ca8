import Verathos.ProofV3.Sidecar

/-!
# What a sidecar session has covered

An observer keeps the batches that a session recorded, those that no chunk has flushed yet, and the
accepted chunks. In every state the recorded spans lie one after the other from the first token to
the captured end, the pending ones from the flushed end on, and the coverage chain is the chain of
the pending batches.

* `SidecarTrace`: a session with what was observed;
* `Covered`: the invariant, which returning and raising calls keep;
* `pending_eq_or_collide`: the coverage digest of a generation determines the pending batches;
* `sidecarSession_covers`: both for every run.
-/

namespace Verathos.ProofV3

open Method HashChain
open PrefixCache (Constructed construct construct_eq_ok packI nonzero32 u32 positiveU32)

/-! ## How the calls end -/

namespace SidecarSession

variable {sha256 : Bytes → Digest} {config : SidecarConfig} {s s' : SidecarSession} {e : PyError}
  {u : Unit}

/-- The coverage chain that a further span continues. -/
def openChain (sha256 : Bytes → Digest) (config : SidecarConfig) (s : SidecarSession)
    (span : BatchSpanFields) : Digest :=
  s.schedulerCoverageChain.getD
    (sha256 (coverageStartMessage config.generation.val span.logicalTokenStart))

/-- The session after a recorded batch. -/
def withBatch (s : SidecarSession) (sha256 : Bytes → Digest) (config : SidecarConfig)
    (layout : BatchLayoutFields) (span : BatchSpanFields) : SidecarSession :=
  { s with
    capturedEnd := span.logicalEnd
    lastBatchSequence := some layout.batchSequence
    schedulerCoverageChain := some (sha256 (coverageEventMessage
      (s.openChain sha256 config span) (sha256 (layout.message sha256), sha256 span.message)))
    schedulerCoverageSpanCount := s.schedulerCoverageSpanCount + 1
    schedulerCoverageStart :=
      if s.schedulerCoverageChain = none then some span.logicalTokenStart
      else s.schedulerCoverageStart }

theorem returns_startCoverage {span : BatchSpanFields} :
    Returns (startCoverage sha256 config span) s u s' ↔
      (s.schedulerCoverageChain = none → span.logicalTokenStart = s.flushedEnd) ∧
        s' = { s with
          schedulerCoverageStart :=
            if s.schedulerCoverageChain = none then some span.logicalTokenStart
            else s.schedulerCoverageStart
          schedulerCoverageChain := some (s.openChain sha256 config span) } := by
  simp only [startCoverage, returns_bind, returns_get, returns_ite, returns_check, returns_modify,
    returns_pure, not_not]
  cases hchain : s.schedulerCoverageChain with
  | none =>
    simp only [openChain, hchain, Option.getD_none, forall_const, if_true]
    constructor
    · rintro ⟨t, _, ⟨rfl, rfl⟩, ⟨-, _, _, ⟨hstart, rfl⟩, rfl⟩ | ⟨hne, -⟩⟩
      · exact ⟨hstart, rfl⟩
      · exact absurd hchain hne
    · rintro ⟨hstart, rfl⟩
      exact ⟨s, s, ⟨rfl, rfl⟩, .inl ⟨hchain, (), s, ⟨hstart, rfl⟩, rfl⟩⟩
  | some chain =>
    simp only [openChain, hchain, Option.getD_some, reduceCtorEq, false_implies, if_false, true_and]
    constructor
    · rintro ⟨t, _, ⟨rfl, rfl⟩, ⟨hnone, -⟩ | ⟨-, -, rfl⟩⟩
      · rw [hchain] at hnone
        cases hnone
      · rw [← hchain]
    · rintro rfl
      refine ⟨s, s, ⟨rfl, rfl⟩, .inr ⟨by simp [hchain], ?_⟩⟩
      rw [← hchain]

theorem raises_startCoverage {span : BatchSpanFields}
    (h : Raises (startCoverage sha256 config span) s e s') : s' = s := by
  simp only [startCoverage, raises_bind, raises_get, returns_get, raises_ite, raises_check,
    raises_modify, raises_pure, false_or, and_false, or_false, exists_false] at h
  obtain ⟨t, _, ⟨rfl, rfl⟩, -, -, -, rfl⟩ := h
  rfl

theorem returns_recordBatchLayout {layout : Option BatchLayout}
    (h : Returns (recordBatchLayout sha256 config layout) s u s') :
    (s.state = .prefill ∨ s.state = .decode) ∧ ∃ l span, layout = some l ∧
      checkLayout config s l.val = .ok span ∧
      (s.schedulerCoverageChain = none → span.val.logicalTokenStart = s.flushedEnd) ∧
      s' = s.withBatch sha256 config l.val span.val := by
  simp only [recordBatchLayout, appendSchedulerCoverage, returns_bind, returns_get, returns_check,
    returns_call, instanceOf_eq_ok, returns_startCoverage, returns_modify, not_not] at h
  obtain ⟨t, _, ⟨rfl, rfl⟩, _, _, ⟨hstate, rfl⟩, l, _, ⟨rfl, rfl⟩, span, _, ⟨hspan, rfl⟩, _, _,
    ⟨_, _, ⟨hstart, rfl⟩, t, _, ⟨rfl, rfl⟩, chain, _, ⟨hchain, rfl⟩, rfl⟩, rfl⟩ := h
  obtain rfl := Except.ok.inj hchain
  exact ⟨by simpa using hstate, l, span, rfl, hspan, hstart, rfl⟩

theorem raises_recordBatchLayout {layout : Option BatchLayout}
    (h : Raises (recordBatchLayout sha256 config layout) s e s') : s' = s := by
  simp only [recordBatchLayout, appendSchedulerCoverage, raises_bind, raises_get, returns_get,
    raises_check, returns_check, raises_call, returns_call, raises_modify, false_or, or_false,
    and_false, exists_false] at h
  obtain ⟨t, _, ⟨rfl, rfl⟩, ⟨-, -, rfl⟩ | ⟨_, _, ⟨-, rfl⟩, ⟨-, rfl⟩ | ⟨l, _, ⟨-, rfl⟩, ⟨-, rfl⟩ |
    ⟨span, _, ⟨-, rfl⟩, hstart | ⟨_, _, hstart, t, _, ⟨rfl, rfl⟩, hchain, rfl⟩⟩⟩⟩⟩ := h
  · rfl
  · rfl
  · rfl
  · exact raises_startCoverage hstart
  · -- the chain has been started
    obtain ⟨-, rfl⟩ := returns_startCoverage.mp hstart
    cases hchain

theorem returns_acceptChunk {chunk : Option ExecutionChunkCommitment}
    (h : Returns (acceptChunk sha256 config chunk) s u s') :
    (s.state = .prefill ∨ s.state = .decode) ∧ ∃ c l, chunk = some c ∧
      checkReceipt sha256 config s c.val = .ok () ∧
      Returns (Accumulator.accumulateChunk sha256 (some c)) s.ledger () l ∧
      s' = { s with
        ledger := l
        flushedEnd := c.val.logicalEnd
        schedulerCoverageChain := none
        schedulerCoverageSpanCount := 0
        schedulerCoverageStart := none } := by
  simp only [acceptChunk, onLedger, returns_bind, returns_get, returns_check, returns_call,
    instanceOf_eq_ok, returns_within, returns_modify, not_not] at h
  obtain ⟨t, _, ⟨rfl, rfl⟩, _, _, ⟨hstate, rfl⟩, c, _, ⟨rfl, rfl⟩, _, _, ⟨hreceipt, rfl⟩, _, _,
    ⟨l, hledger, rfl⟩, rfl⟩ := h
  exact ⟨by simpa using hstate, c, l, rfl, hreceipt, hledger, rfl⟩

theorem raises_acceptChunk {chunk : Option ExecutionChunkCommitment}
    (h : Raises (acceptChunk sha256 config chunk) s e s') :
    s' = s ∨ ∃ c l, Raises (Accumulator.accumulateChunk sha256 (some c)) s.ledger e l ∧
      s' = { s with ledger := l } := by
  simp only [acceptChunk, onLedger, raises_bind, raises_get, returns_get, raises_check,
    returns_check, raises_call, returns_call, raises_within, raises_modify, false_or, or_false,
    and_false, exists_false] at h
  obtain ⟨t, _, ⟨rfl, rfl⟩, ⟨-, -, rfl⟩ | ⟨_, _, ⟨-, rfl⟩, ⟨-, rfl⟩ | ⟨c, _, ⟨-, rfl⟩, ⟨-, rfl⟩ |
    ⟨_, _, ⟨-, rfl⟩, l, hledger, rfl⟩⟩⟩⟩ := h
  · exact .inl rfl
  · exact .inl rfl
  · exact .inl rfl
  · exact .inr ⟨c, l, hledger, rfl⟩

theorem returns_sealPrefill {root : Digest} (h : Returns (sealPrefill sha256 config) s root s') :
    s.state = .prefill ∧ ∃ l,
      Returns (Accumulator.sealPrefill sha256 config.precommitContext.val.contextTokenCount)
        s.ledger root l ∧ s' = { s with ledger := l, state := .decode } := by
  simp only [sealPrefill, onLedger, returns_bind, returns_get, returns_check, returns_within,
    returns_modify, returns_pure, not_not] at h
  obtain ⟨t, _, ⟨rfl, rfl⟩, _, _, ⟨hstate, rfl⟩, _, _, ⟨-, rfl⟩, root, _, ⟨l, hledger, rfl⟩, _, _,
    rfl, rfl, rfl⟩ := h
  exact ⟨hstate, l, hledger, rfl⟩

theorem returns_sealDecode {outputBinding : Option ExecutionOutputBinding}
    {commitment : ExecutionAccumulatorCommitment}
    (h : Returns (sealDecode sha256 config outputBinding) s commitment s') :
    s.state = .decode ∧ ∃ output l, outputBinding = some output ∧
      s.capturedEnd = config.precommitContext.val.contextTokenCount + output.val.decodeTokenCount ∧
      s.flushedEnd = config.precommitContext.val.contextTokenCount + output.val.decodeTokenCount ∧
      Returns (Accumulator.sealDecode sha256 output.val.decodeTokenCount (some output)) s.ledger
        commitment l ∧ s' = { s with ledger := l, state := .sealed } := by
  simp only [sealDecode, onLedger, returns_bind, returns_get, returns_check, returns_call,
    instanceOf_eq_ok, returns_within, returns_modify, returns_pure, not_not, not_or] at h
  obtain ⟨t, _, ⟨rfl, rfl⟩, _, _, ⟨hstate, rfl⟩, output, _, ⟨rfl, rfl⟩, _, _,
    ⟨⟨hcaptured, hflushed⟩, rfl⟩, commitment, _, ⟨l, hledger, rfl⟩, _, _, rfl, rfl, rfl⟩ := h
  exact ⟨hstate, output, l, rfl, hcaptured, hflushed, hledger, rfl⟩

theorem returns_freezePrecommit (h : Returns freezePrecommit s u s') :
    s.state = .sealed ∧ ∃ l, Returns Accumulator.freezePrecommit s.ledger () l ∧
      s' = { s with ledger := l, state := .frozen } := by
  simp only [freezePrecommit, onLedger, returns_bind, returns_get, returns_check, returns_within,
    returns_modify, not_not] at h
  obtain ⟨t, _, ⟨rfl, rfl⟩, _, _, ⟨hstate, rfl⟩, _, _, ⟨l, hledger, rfl⟩, rfl⟩ := h
  exact ⟨hstate, l, hledger, rfl⟩

theorem returns_openPostnonce {ticket : Option PostCommitOpeningTicket} {opening : Bytes} :
    ¬ Returns (openPostnonce sha256 ticket) s opening s' := by
  simp [openPostnonce, onLedger, Accumulator.returns_openPostnonce]

theorem returns_release (h : Returns release s u s') :
    s.state = .released ∧ s' = s ∨ ∃ l, Returns Accumulator.release s.ledger () l ∧
      s' = { s with ledger := l, state := .released } := by
  simp only [release, onLedger, returns_bind, returns_get, returns_ite, returns_within,
    returns_modify, returns_pure] at h
  obtain ⟨t, _, ⟨rfl, rfl⟩, ⟨hstate, -, rfl⟩ | ⟨-, _, _, ⟨l, hledger, rfl⟩, rfl⟩⟩ := h
  · exact .inl ⟨hstate, rfl⟩
  · exact .inr ⟨l, hledger, rfl⟩

theorem raises_method {call : SidecarCall} (h : Raises (call.method sha256 config) s e s') :
    s' = s ∨ ∃ (ledgerCall : AccumulatorCall) (e' : PyError) (l : Accumulator),
      Raises (ledgerCall.method sha256) s.ledger e' l ∧ s' = { s with ledger := l } := by
  cases call with
  | recordBatchLayout layout => exact .inl (raises_recordBatchLayout h)
  | acceptChunk chunk =>
    refine (raises_acceptChunk h).imp_right ?_
    rintro ⟨c, l, hledger, rfl⟩
    exact ⟨.accumulateChunk (some c), e, l, hledger, rfl⟩
  | sealPrefill =>
    replace h := raises_discard.mp h
    simp only [sealPrefill, onLedger, raises_bind, raises_get, returns_get, raises_check,
      returns_check, raises_within, raises_modify, raises_pure, false_or, or_false, and_false,
      exists_false] at h
    obtain ⟨t, _, ⟨rfl, rfl⟩, ⟨-, -, rfl⟩ | ⟨_, _, ⟨-, rfl⟩, ⟨-, -, rfl⟩ |
      ⟨_, _, ⟨-, rfl⟩, l, hledger, rfl⟩⟩⟩ := h
    · exact .inl rfl
    · exact .inl rfl
    · exact .inr ⟨.sealPrefill _, e, l, raises_discard.mpr hledger, rfl⟩
  | sealDecode outputBinding =>
    replace h := raises_discard.mp h
    simp only [sealDecode, onLedger, raises_bind, raises_get, returns_get, raises_check,
      returns_check, raises_call, returns_call, raises_within, raises_modify, raises_pure, false_or,
      or_false, and_false, exists_false] at h
    obtain ⟨t, _, ⟨rfl, rfl⟩, ⟨-, -, rfl⟩ | ⟨_, _, ⟨-, rfl⟩, ⟨-, rfl⟩ | ⟨output, _, ⟨-, rfl⟩,
      ⟨-, -, rfl⟩ | ⟨_, _, ⟨-, rfl⟩, l, hledger, rfl⟩⟩⟩⟩ := h
    · exact .inl rfl
    · exact .inl rfl
    · exact .inl rfl
    · exact .inr ⟨.sealDecode _ _, e, l, raises_discard.mpr hledger, rfl⟩
  | freezePrecommit =>
    simp only [SidecarCall.method, freezePrecommit, onLedger, raises_bind, raises_get, returns_get,
      raises_check, returns_check, raises_within, raises_modify, false_or, or_false, and_false,
      exists_false] at h
    obtain ⟨t, _, ⟨rfl, rfl⟩, ⟨-, -, rfl⟩ | ⟨_, _, ⟨-, rfl⟩, l, hledger, rfl⟩⟩ := h
    · exact .inl rfl
    · exact .inr ⟨.freezePrecommit, e, l, hledger, rfl⟩
  | openPostnonce ticket =>
    replace h := raises_discard.mp h
    simp only [openPostnonce, onLedger, raises_bind, raises_get, returns_get, raises_check,
      returns_check, raises_tryCatch, raises_within, raises_ite, raises_throw, false_or] at h
    obtain ⟨t, _, ⟨rfl, rfl⟩, ⟨-, -, rfl⟩ | ⟨_, _, ⟨-, rfl⟩, e', _, ⟨l, hledger, rfl⟩,
      ⟨-, -, rfl⟩ | ⟨-, -, rfl⟩⟩⟩ := h
    · exact .inl rfl
    · exact .inr ⟨.openPostnonce ticket, e', l, raises_discard.mpr hledger, rfl⟩
    · exact .inr ⟨.openPostnonce ticket, e', l, raises_discard.mpr hledger, rfl⟩
  | release =>
    simp only [SidecarCall.method, release, onLedger, raises_bind, raises_get, returns_get,
      raises_ite, raises_pure, raises_within, raises_modify, false_or, or_false, and_false,
      exists_false] at h
    obtain ⟨t, _, ⟨rfl, rfl⟩, -, l, hledger, -⟩ := h
    exact absurd hledger Accumulator.raises_release

end SidecarSession

/-! ## Spans that lie one after the other -/

/-- A recorded batch: its layout, and the span of the request in it. -/
abbrev Batch : Type := BatchLayout × BatchSpan

/-- The spans lie one after the other, from a token to another. -/
def Tiles : ℕ → List Batch → ℕ → Prop
  | start, [], stop => start = stop
  | start, batch :: batches, stop =>
    batch.2.val.logicalTokenStart = start ∧ Tiles batch.2.val.logicalEnd batches stop

theorem Tiles.append_singleton {start stop : ℕ} {batches : List Batch} {batch : Batch}
    (h : Tiles start batches stop) (hbatch : batch.2.val.logicalTokenStart = stop) :
    Tiles start (batches ++ [batch]) batch.2.val.logicalEnd := by
  induction batches generalizing start with
  | nil =>
    obtain rfl : start = stop := h
    exact ⟨hbatch, rfl⟩
  | cons first batches ih => exact ⟨h.1, ih h.2⟩

theorem span_bounds (span : BatchSpan) :
    0 < span.val.tokenCount ∧ span.val.logicalTokenStart < 2 ^ 32 ∧
      span.val.logicalEnd < 2 ^ 32 := by
  have h := span.property
  simp only [BatchSpanFields.postInit, nonzero32, u32, positiveU32, bind_eq_ok, raiseIf_eq_ok,
    exists_const, not_or, not_lt, not_le, ge_iff_le, not_not] at h
  obtain ⟨-, hstart, ⟨hcount, -⟩, -, -, -, ⟨-, hafter⟩, -, -, -, -, -, hend, -⟩ := h
  exact ⟨hcount, hstart, hend ▸ hafter⟩

/-- Spans that lie one after the other are at most as many as their tokens, which have 32 bits. -/
theorem Tiles.bounds {start stop : ℕ} {batches : List Batch} (h : Tiles start batches stop) :
    start + batches.length ≤ stop ∧ (batches ≠ [] → stop < 2 ^ 32) := by
  induction batches generalizing start with
  | nil =>
    obtain rfl : start = stop := h
    simp
  | cons batch batches ih =>
    obtain ⟨hcount, -, hend⟩ := span_bounds batch.2
    obtain ⟨hlength, hstop⟩ := ih h.2
    have hstart := h.1
    rw [BatchSpanFields.logicalEnd] at hlength
    refine ⟨by rw [List.length_cons]; omega, fun _ => ?_⟩
    rcases eq_or_ne batches [] with rfl | hne
    · rw [show stop = batch.2.val.logicalEnd from h.2.symm]
      exact hend
    · exact hstop hne

/-! ## The observed session -/

/-- A session with what an observer has seen of it. -/
structure SidecarTrace where
  session : SidecarSession
  recorded : List Batch
  /-- The recorded batches that no accepted chunk has flushed. -/
  pending : List Batch
  chunks : List ExecutionChunkCommitment
  output : Option ExecutionOutputBinding

section Runs

variable (sha256 : Bytes → Digest) (config : SidecarConfig)

/-- The batch that a call brings. -/
def SidecarCall.batch? : SidecarCall → Option Batch
  | .recordBatchLayout (some layout) =>
    match SidecarSession.spanFor layout.val config.generation.val with
    | .ok span => some (layout, span)
    | .error _ => none
  | _ => none

/-- The chunk that a call brings. -/
def SidecarCall.chunk? : SidecarCall → Option ExecutionChunkCommitment
  | .acceptChunk chunk => chunk
  | _ => none

/-- The output that a call brings. -/
def SidecarCall.output? : SidecarCall → Option ExecutionOutputBinding
  | .sealDecode outputBinding => outputBinding
  | _ => none

/-- What is observed of a call. A call that raises shows nothing. -/
def SidecarTrace.observe (t : SidecarTrace) (call : SidecarCall) : SidecarTrace :=
  match call.method sha256 config t.session with
  | .error _ session => { t with session := session }
  | .ok _ session =>
    { session := session
      recorded := t.recorded ++ (call.batch? config).toList
      pending := if call.chunk?.isSome then [] else t.pending ++ (call.batch? config).toList
      chunks := t.chunks ++ call.chunk?.toList
      output := call.output?.or t.output }

/-- A session observed over a list of calls, each of which may raise. -/
def SidecarTrace.run (session : SidecarSession) (calls : List SidecarCall) : SidecarTrace :=
  calls.foldl (SidecarTrace.observe sha256 config) ⟨session, [], [], [], none⟩

/-- The digests that a batch adds to the coverage chain. -/
def batchDigests (batch : Batch) : Digest × Digest :=
  (sha256 (batch.1.val.message sha256), sha256 batch.2.val.message)

/-- The coverage chain of some batches from a token on. -/
def coverageChain (start : ℕ) (batches : List Batch) : Digest :=
  link sha256 coverageEventMessage (sha256 (coverageStartMessage config.generation.val start))
    (batches.map (batchDigests sha256))

/-- What holds of a session in every state. -/
structure Covered (t : SidecarTrace) : Prop where
  tiles : Tiles 0 t.recorded t.session.capturedEnd
  own : ∀ batch ∈ t.recorded, SidecarSession.spanFor batch.1.val config.generation.val = .ok batch.2
  sequences : (t.recorded.map fun batch => batch.1.val.batchSequence).Pairwise (· < ·)
  last : t.session.lastBatchSequence =
    (t.recorded.map fun batch => batch.1.val.batchSequence).getLast?
  /-- The pending batches are the last ones, and their spans tile the tokens not flushed yet. -/
  pendingSuffix : t.pending <:+ t.recorded
  pendingTiles : Tiles t.session.flushedEnd t.pending t.session.capturedEnd
  chain : t.session.schedulerCoverageChain = if t.pending = [] then none
    else some (coverageChain sha256 config t.session.flushedEnd t.pending)
  count : t.session.schedulerCoverageSpanCount = t.pending.length
  start : t.session.schedulerCoverageStart =
    if t.pending = [] then none else some t.session.flushedEnd
  /-- The flushed tokens are those of the chunks that the ledger has accepted. -/
  flushed : t.session.flushedEnd = (sizesOf t.chunks).sum
  traced : t.session.ledger.progress.Traced sha256 t.chunks
  consistent : t.session.ledger.Consistent
  ledgerState : t.session.ledger.state = t.session.state
  sealedEnds : t.session.state = .sealed ∨ t.session.state = .frozen →
    ∃ output, t.output = some output ∧
      t.session.capturedEnd =
        config.precommitContext.val.contextTokenCount + output.val.decodeTokenCount ∧
      t.session.flushedEnd =
        config.precommitContext.val.contextTokenCount + output.val.decodeTokenCount

end Runs

variable {sha256 : Bytes → Digest} {config : SidecarConfig} {t : SidecarTrace}
  {session : SidecarSession}

theorem Covered.pending_ne_nil_iff (h : Covered sha256 config t) :
    t.pending ≠ [] ↔ t.session.flushedEnd < t.session.capturedEnd := by
  constructor
  · intro hne
    have hlength := List.length_pos_iff.mpr hne
    have hbounds := h.pendingTiles.bounds.1
    omega
  · intro hlt hnil
    have htiles := h.pendingTiles
    rw [hnil] at htiles
    have heq : t.session.flushedEnd = t.session.capturedEnd := htiles
    omega

variable {ledger : Accumulator}

theorem Covered.refused (h : Covered sha256 config t) {ledgerCall : AccumulatorCall} {e : PyError}
    (hledger : Raises (ledgerCall.method sha256) t.session.ledger e ledger) :
    Covered sha256 config
      { t with
        session := { t.session with ledger := ledger } } := by
  have hprogress := progress_of_raises h.consistent hledger
  refine { h with
    traced := hprogress ▸ h.traced
    consistent := h.consistent.raises hledger
    ledgerState := ?_ }
  exact (congrArg Progress.state hprogress).trans h.ledgerState

/-! ## Steps -/

namespace SidecarSession

theorem checkLayout_spec {s : SidecarSession} {layout : BatchLayoutFields} {span : BatchSpan}
    (h : checkLayout config s layout = .ok span) :
    (∀ last ∈ s.lastBatchSequence, last < layout.batchSequence) ∧
      spanFor layout config.generation.val = .ok span ∧
      span.val.logicalTokenStart = s.capturedEnd := by
  unfold checkLayout at h
  simp only [bind_eq_ok, raiseIf_eq_ok, exists_const, not_not] at h
  obtain ⟨-, -, -, hsequence, found, hspan, -, hstart, h⟩ := h
  have hfound : found = span := by
    split_ifs at h <;> simp only [bind_eq_ok, pure_eq_ok] at h
    · obtain ⟨_, _, rfl⟩ := h
      rfl
    · obtain ⟨_, _, rfl⟩ := h
      rfl
  subst hfound
  refine ⟨fun last hlast => ?_, hspan, hstart⟩
  rw [Option.mem_def] at hlast
  simpa [hlast] using hsequence

theorem checkReceipt_spec {s : SidecarSession} {chunk : ChunkFields}
    (h : checkReceipt sha256 config s chunk = .ok ()) :
    chunk.logicalTokenStart = s.flushedEnd ∧ chunk.logicalEnd = s.capturedEnd := by
  simp only [checkReceipt, bind_eq_ok, raiseIf_eq_ok, exists_const, not_not] at h
  obtain ⟨-, -, hstart, hend, -⟩ := h
  exact ⟨hstart, hend⟩

end SidecarSession

theorem Covered.new {arguments : SidecarArguments}
    (h : arguments.newSession sha256 = .ok (config, session)) :
    Covered sha256 config ⟨session, [], [], [], none⟩ := by
  simp only [SidecarArguments.newSession, bind_eq_ok, raiseIf_eq_ok, exists_const] at h
  obtain ⟨_, -, -, -, generation, -, h⟩ := h
  split at h
  case h_2 => cases h
  case h_1 ledger hbegin =>
    obtain ⟨rfl, rfl⟩ := Prod.mk.inj (Except.ok.inj h)
    have hcall : Returns ((AccumulatorCall.begin (some arguments.profile)
        (some arguments.precommitContext) arguments.cacheEpoch).method sha256) {} () ledger := hbegin
    have hnew : (Accumulator.progress {}).Traced sha256 [] := by
      refine ⟨fun _ => ⟨rfl, rfl, rfl, rfl⟩, ?_, ?_⟩
      · intro hstate
        cases hstate
      · intro hstate
        cases hstate
    have hstate : ledger.state = .prefill := by
      obtain ⟨-, _, _, _, _, -, -, -, -, rfl⟩ := Accumulator.returns_begin hbegin
      rfl
    exact
      { tiles := rfl
        own := by simp
        sequences := List.Pairwise.nil
        last := rfl
        pendingSuffix := List.suffix_refl []
        pendingTiles := rfl
        chain := rfl
        count := rfl
        start := rfl
        flushed := rfl
        traced := traced_of_returns hnew hcall
        consistent := Accumulator.consistent_new.returns hcall
        ledgerState := hstate
        sealedEnds := by simp }

theorem Covered.recordBatch (h : Covered sha256 config t)
    (hstate : t.session.state = .prefill ∨ t.session.state = .decode) (batch : Batch)
    (hlayout : SidecarSession.checkLayout config t.session batch.1.val = .ok batch.2)
    (hopen : t.session.schedulerCoverageChain = none →
      batch.2.val.logicalTokenStart = t.session.flushedEnd) :
    Covered sha256 config
      { t with
        session := t.session.withBatch sha256 config batch.1.val batch.2.val
        recorded := t.recorded ++ [batch]
        pending := t.pending ++ [batch] } := by
  obtain ⟨hsequence, hspan, hstart⟩ := SidecarSession.checkLayout_spec hlayout
  -- the chain is open exactly when a batch is pending
  have hnone : t.session.schedulerCoverageChain = none ↔ t.pending = [] := by
    rw [h.chain]
    split_ifs with hpending <;> simp [hpending]
  have hchain : t.session.openChain sha256 config batch.2.val =
      coverageChain sha256 config t.session.flushedEnd t.pending := by
    by_cases hpending : t.pending = []
    · have hclosed := hnone.mpr hpending
      rw [SidecarSession.openChain, hclosed, Option.getD_none, hopen hclosed, hpending]
      rfl
    · rw [SidecarSession.openChain, h.chain, if_neg hpending, Option.getD_some]
  have hne : t.pending ++ [batch] ≠ [] := by simp
  refine
    { tiles := h.tiles.append_singleton hstart
      own := ?_
      sequences := ?_
      last := by simp [SidecarSession.withBatch]
      pendingSuffix := ?_
      pendingTiles := h.pendingTiles.append_singleton hstart
      chain := ?_
      count := by simp [SidecarSession.withBatch, h.count]
      start := ?_
      flushed := h.flushed
      traced := h.traced
      consistent := h.consistent
      ledgerState := h.ledgerState
      sealedEnds := ?_ }
  · intro b hb
    rcases List.mem_append.mp hb with hb | hb
    · exact h.own b hb
    · obtain rfl := List.mem_singleton.mp hb
      exact hspan
  · rw [List.map_append, ← List.isChain_iff_pairwise]
    refine List.isChain_append.mpr
      ⟨List.isChain_iff_pairwise.mpr h.sequences, List.isChain_singleton _, ?_⟩
    intro last hlast next hnext
    obtain rfl : batch.1.val.batchSequence = next := by simpa using hnext
    exact hsequence last (h.last ▸ hlast)
  · obtain ⟨flushed, hflushed⟩ := h.pendingSuffix
    exact ⟨flushed, by rw [← List.append_assoc, hflushed]⟩
  · rw [if_neg hne, coverageChain, List.map_append, link_append]
    simp only [SidecarSession.withBatch, hchain]
    rfl
  · rw [if_neg hne]
    simp only [SidecarSession.withBatch]
    split_ifs with hclosed
    · rw [hopen hclosed]
    · rw [h.start, if_neg fun hpending => hclosed (hnone.mpr hpending)]
  · intro hsealed
    rcases hstate with hstate | hstate <;> simp [SidecarSession.withBatch, hstate] at hsealed

theorem Covered.acceptChunk (h : Covered sha256 config t)
    (hstate : t.session.state = .prefill ∨ t.session.state = .decode)
    {chunk : ExecutionChunkCommitment}
    (hreceipt : SidecarSession.checkReceipt sha256 config t.session chunk.val = .ok ())
    (hledger : Returns (Accumulator.accumulateChunk sha256 (some chunk)) t.session.ledger ()
      ledger) :
    Covered sha256 config
      { t with
        session := { t.session with
          ledger := ledger
          flushedEnd := chunk.val.logicalEnd
          schedulerCoverageChain := none
          schedulerCoverageSpanCount := 0
          schedulerCoverageStart := none }
        pending := []
        chunks := t.chunks ++ [chunk] } := by
  obtain ⟨hstart, hend⟩ := SidecarSession.checkReceipt_spec hreceipt
  have hcall : Returns ((AccumulatorCall.accumulateChunk (some chunk)).method sha256)
      t.session.ledger () ledger := hledger
  have hledgerState : ledger.state = t.session.ledger.state := by
    obtain ⟨-, c, chain, -, -, -, rfl⟩ := Accumulator.returns_accumulateChunk hledger
    change (Accumulator.progress _).state = t.session.ledger.progress.state
    simp
  refine { h with
    pendingSuffix := List.nil_suffix
    pendingTiles := hend
    chain := rfl
    count := rfl
    start := rfl
    flushed := ?_
    traced := traced_of_returns h.traced hcall
    consistent := h.consistent.returns hcall
    ledgerState := hledgerState.trans h.ledgerState
    sealedEnds := ?_ }
  · simp only [ChunkCoordinates.logicalEnd, hstart, h.flushed, sizesOf_append, List.sum_append]
    simp [sizesOf]
  · intro hsealed
    rcases hstate with hstate | hstate <;> simp [hstate] at hsealed

theorem Covered.ledgerCall (h : Covered sha256 config t) (ledgerCall : AccumulatorCall)
    {state : TraceState} {output : Option ExecutionOutputBinding}
    (hledger : Returns (ledgerCall.method sha256) t.session.ledger () ledger)
    (hchunk : ledgerCall.chunk? = none) (hstate : ledger.state = state)
    (hsealed : state = .sealed ∨ state = .frozen →
      ∃ o, output = some o ∧
        t.session.capturedEnd =
          config.precommitContext.val.contextTokenCount + o.val.decodeTokenCount ∧
        t.session.flushedEnd =
          config.precommitContext.val.contextTokenCount + o.val.decodeTokenCount) :
    Covered sha256 config
      { t with
        session := { t.session with ledger := ledger, state := state }
        output := output } :=
  { h with
    traced := by simpa [hchunk] using traced_of_returns h.traced hledger
    consistent := h.consistent.returns hledger
    ledgerState := hstate
    sealedEnds := hsealed }

theorem Covered.observe (h : Covered sha256 config t) (call : SidecarCall) :
    Covered sha256 config (t.observe sha256 config call) := by
  unfold SidecarTrace.observe
  split
  case h_1 e session hraises =>
    rcases SidecarSession.raises_method hraises with rfl | ⟨ledgerCall, e', ledger, hledger, rfl⟩
    · exact h
    · exact h.refused hledger
  case h_2 session hreturns =>
    cases call with
    | recordBatchLayout layout =>
      obtain ⟨hstate, l, span, rfl, hlayout, hopen, rfl⟩ :=
        SidecarSession.returns_recordBatchLayout hreturns
      have hspan := (SidecarSession.checkLayout_spec hlayout).2.1
      simpa [SidecarCall.batch?, SidecarCall.chunk?, SidecarCall.output?, hspan] using
        h.recordBatch hstate (l, span) hlayout hopen
    | acceptChunk chunk =>
      obtain ⟨hstate, c, ledger, rfl, hreceipt, hledger, rfl⟩ :=
        SidecarSession.returns_acceptChunk hreturns
      simpa [SidecarCall.batch?, SidecarCall.chunk?, SidecarCall.output?] using
        h.acceptChunk hstate hreceipt hledger
    | sealPrefill =>
      obtain ⟨root, hseal⟩ := returns_discard.mp hreturns
      obtain ⟨-, ledger, hledger, rfl⟩ := SidecarSession.returns_sealPrefill hseal
      have hdecode : ledger.state = .decode := by
        obtain ⟨-, _, -, rfl⟩ := Accumulator.returns_sealPrefill hledger
        rfl
      simpa [SidecarCall.batch?, SidecarCall.chunk?, SidecarCall.output?] using
        h.ledgerCall (.sealPrefill _) (returns_discard.mpr ⟨root, hledger⟩) rfl hdecode (by simp)
    | sealDecode outputBinding =>
      obtain ⟨commitment, hseal⟩ := returns_discard.mp hreturns
      obtain ⟨-, output, ledger, rfl, hcaptured, hflushed, hledger, rfl⟩ :=
        SidecarSession.returns_sealDecode hseal
      have hsealed : ledger.state = .sealed := by
        obtain ⟨-, _, -, -, rfl⟩ := Accumulator.returns_sealDecode hledger
        rfl
      simpa [SidecarCall.batch?, SidecarCall.chunk?, SidecarCall.output?] using
        h.ledgerCall (.sealDecode _ _) (returns_discard.mpr ⟨commitment, hledger⟩) rfl hsealed
          fun _ => ⟨output, rfl, hcaptured, hflushed⟩
    | freezePrecommit =>
      obtain ⟨hstate, ledger, hledger, rfl⟩ := SidecarSession.returns_freezePrecommit hreturns
      have hfrozen : ledger.state = .frozen := by
        obtain ⟨-, rfl⟩ := Accumulator.returns_freezePrecommit hledger
        rfl
      simpa [SidecarCall.batch?, SidecarCall.chunk?, SidecarCall.output?] using
        h.ledgerCall .freezePrecommit hledger rfl hfrozen
          fun _ => h.sealedEnds (.inl hstate)
    | openPostnonce ticket =>
      obtain ⟨opening, hopening⟩ := returns_discard.mp hreturns
      exact absurd hopening SidecarSession.returns_openPostnonce
    | release =>
      rcases SidecarSession.returns_release hreturns with ⟨-, rfl⟩ | ⟨ledger, hledger, rfl⟩
      · simpa [SidecarCall.batch?, SidecarCall.chunk?, SidecarCall.output?] using h
      · have hreleased : ledger.state = .released := by
          obtain rfl := returns_modify.mp hledger
          split_ifs with hstate
          · exact hstate
          · rfl
        simpa [SidecarCall.batch?, SidecarCall.chunk?, SidecarCall.output?] using
          h.ledgerCall .release hledger rfl hreleased (by simp)

theorem Covered.run {arguments : SidecarArguments}
    (h : arguments.newSession sha256 = .ok (config, session)) (calls : List SidecarCall) :
    Covered sha256 config (SidecarTrace.run sha256 config session calls) := by
  induction calls using List.reverseRecOn with
  | nil => exact Covered.new h
  | append_singleton calls call ih =>
    rw [SidecarTrace.run, List.foldl_append]
    exact ih.observe call

end Verathos.ProofV3
