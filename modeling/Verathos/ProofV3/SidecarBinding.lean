import Verathos.ProofV3.Framing
import Verathos.ProofV3.SidecarCoverage

/-!
# Scheduler coverage digests

The digest that a chunk must carry is a hash of everything that is pending. The module shows that
each of the messages on the way determines what it holds: spans, layouts, the links of the chain and
the seal.

* `pending_eq_or_collide`: sessions with one pending coverage digest have the same pending batches,
  unless two of the messages that they hash collide;
* `sidecarSession_covers`: this, and what is covered, after every list of calls.
-/

namespace Verathos.ProofV3

open HashChain
open PrefixCache (Constructed construct construct_eq_ok packI nonzero32 u32 positiveU32)

/-! ## Messages -/

theorem phase_code_inj {a b : ChunkPhase} (h : a.code = b.code) : a = b := by
  cases a <;> cases b <;> first | rfl | exact absurd h (by decide)

theorem span_message_inj {a b : BatchSpan} (h : a.val.message = b.val.message) : a = b := by
  have ha := a.property
  have hb := b.property
  simp only [BatchSpanFields.postInit, nonzero32, u32, positiveU32, bind_eq_ok, raiseIf_eq_ok,
    exists_const, not_or, not_lt, not_le, ge_iff_le, not_not] at ha hb
  obtain ⟨-, hstart, ⟨-, hcount⟩, hrow, ⟨-, hrows⟩, hbefore, ⟨-, hafter⟩, hposition, -⟩ := ha
  obtain ⟨-, hstart', ⟨-, hcount'⟩, hrow', ⟨-, hrows'⟩, hbefore', ⟨-, hafter'⟩, hposition', -⟩ := hb
  -- the fields have fixed widths, and are read from the left
  obtain ⟨hgeneration, h⟩ := digest_append_inj (List.append_cancel_left h)
  obtain ⟨hphase, h⟩ := List.cons.inj h
  obtain ⟨hstart, h⟩ := packI_append_inj hstart hstart' h
  obtain ⟨hcount, h⟩ := packI_append_inj hcount hcount' h
  obtain ⟨hrow, h⟩ := packI_append_inj hrow hrow' h
  obtain ⟨hrows, h⟩ := packI_append_inj hrows hrows' h
  obtain ⟨hbefore, h⟩ := packI_append_inj hbefore hbefore' h
  obtain ⟨hafter, h⟩ := packI_append_inj hafter hafter' h
  have hposition := packI_inj hposition hposition' h
  rcases a with ⟨⟨⟩, _⟩
  rcases b with ⟨⟨⟩, _⟩
  simp only [Subtype.mk.injEq, BatchSpanFields.mk.injEq]
  exact ⟨hgeneration, phase_code_inj hphase, hstart, hcount, hrow, hrows, hbefore, hafter,
    hposition⟩

section Hashes

variable {sha256 : Bytes → Digest}

theorem digests_of_flatten {spans spans' : List BatchSpan}
    (hlength : spans.length = spans'.length)
    (h : (spans.map fun span => (sha256 span.val.message).bytes).flatten =
      (spans'.map fun span => (sha256 span.val.message).bytes).flatten) :
    (spans.map fun span => sha256 span.val.message) =
      spans'.map fun span => sha256 span.val.message := by
  induction spans generalizing spans' with
  | nil => rw [List.length_eq_zero_iff.mp hlength.symm]
  | cons span spans ih =>
    cases spans' with
    | nil => cases hlength
    | cons span' spans' =>
      obtain ⟨hspan, hrest⟩ := digest_append_inj h
      exact List.cons_eq_cons.mpr ⟨hspan, ih (Nat.succ.inj hlength) hrest⟩

theorem layout_message_inj {a b : BatchLayout} (h : a.val.message sha256 = b.val.message sha256) :
    a.val.batchSequence = b.val.batchSequence ∧ a.val.deviceRank = b.val.deviceRank ∧
      a.val.packedRowCount = b.val.packedRowCount ∧
      (a.val.spans.map fun span => sha256 span.val.message) =
        b.val.spans.map fun span => sha256 span.val.message := by
  have ha := a.property
  have hb := b.property
  simp only [BatchLayoutFields.postInit, u64, u32, positiveU32, maxSidecarBatchSpans, bind_eq_ok,
    raiseIf_eq_ok, exists_const, not_or, not_lt, not_le, ge_iff_le, gt_iff_lt] at ha hb
  obtain ⟨hsequence, hrank, ⟨-, hrows⟩, -, -, hlength, -⟩ := ha
  obtain ⟨hsequence', hrank', ⟨-, hrows'⟩, -, -, hlength', -⟩ := hb
  obtain ⟨hbytes, h⟩ := List.append_inj (List.append_cancel_left h) (by simp)
  have heq := LittleEndian.toBytes_inj (by omega) (by omega) hbytes
  obtain ⟨hrank, h⟩ := packI_append_inj hrank hrank' h
  obtain ⟨hrows, h⟩ := packI_append_inj hrows hrows' h
  obtain ⟨hcount, h⟩ := List.append_inj h (by simp)
  have hspans := LittleEndian.toBytes_inj (by omega) (by omega) hcount
  exact ⟨heq, hrank, hrows, digests_of_flatten hspans h⟩

/-- What is hashed for a batch. -/
def batchMessages (sha256 : Bytes → Digest) (batch : Batch) : List Bytes :=
  batch.1.val.message sha256 :: batch.2.val.message ::
    batch.1.val.spans.map fun span => span.val.message

/-- Batches with the same digests are equal, unless their messages collide. -/
theorem batch_eq_or_collide {a b : Batch} (h : batchDigests sha256 a = batchDigests sha256 b) :
    a = b ∨ Collide sha256 (batchMessages sha256 a) (batchMessages sha256 b) := by
  obtain ⟨hlayout, hspan⟩ := Prod.mk.inj h
  have hmem : ∀ c : Batch, c.1.val.message sha256 ∈ batchMessages sha256 c ∧
      c.2.val.message ∈ batchMessages sha256 c := by
    intro c
    simp [batchMessages]
  rcases eq_or_collide_of_mem (hmem a).1 (hmem b).1 hlayout with hlayout | hcollide
  case inr => exact .inr hcollide
  rcases eq_or_collide_of_mem (hmem a).2 (hmem b).2 hspan with hspan | hcollide
  case inr => exact .inr hcollide
  obtain ⟨hsequence, hrank, hrows, hspans⟩ := layout_message_inj hlayout
  have hmember : ∀ s ∈ a.1.val.spans, ∀ s' ∈ b.1.val.spans,
      sha256 s.val.message = sha256 s'.val.message →
        s = s' ∨ Collide sha256 (batchMessages sha256 a) (batchMessages sha256 b) := by
    intro s hs s' hs' heq
    refine (eq_or_collide_of_mem ?_ ?_ heq).imp_left span_message_inj
    · exact .tail _ (.tail _ (List.mem_map.mpr ⟨s, hs, rfl⟩))
    · exact .tail _ (.tail _ (List.mem_map.mpr ⟨s', hs', rfl⟩))
  rcases eq_or_of_map hmember hspans with hspans | hcollide
  case inr => exact .inr hcollide
  refine .inl (Prod.ext (Subtype.ext ?_) (span_message_inj hspan))
  rcases a with ⟨⟨⟨⟩, _⟩, _⟩
  rcases b with ⟨⟨⟨⟩, _⟩, _⟩
  simp only [BatchLayoutFields.mk.injEq]
  exact ⟨hsequence, hrank, hrows, hspans⟩

/-! ## Pending batches -/

/-- What a session hashes for the digest of its pending coverage. -/
def coverageMessages (sha256 : Bytes → Digest) (config : SidecarConfig) (t : SidecarTrace) :
    List Bytes :=
  coverageSealMessage (coverageChain sha256 config t.session.flushedEnd t.pending)
      t.session.flushedEnd t.session.capturedEnd t.pending.length ::
    coverageStartMessage config.generation.val t.session.flushedEnd ::
    (messages sha256 coverageEventMessage
        (sha256 (coverageStartMessage config.generation.val t.session.flushedEnd))
        (t.pending.map (batchDigests sha256)) ++
      t.pending.flatMap (batchMessages sha256))

theorem coverageEventMessage_inj {chain chain' : Digest} {batch batch' : Digest × Digest}
    (h : coverageEventMessage chain batch = coverageEventMessage chain' batch') :
    chain = chain' ∧ batch = batch' := by
  obtain ⟨hchain, h⟩ := digest_append_inj (List.append_cancel_left h)
  obtain ⟨hlayout, hspan⟩ := digest_append_inj h
  exact ⟨hchain, Prod.ext hlayout (Digest.ext hspan)⟩

theorem coverageSealMessage_inj {chain chain' : Digest} {start start' stop stop' count count' : ℕ}
    (hstart : start < 2 ^ 32) (hstart' : start' < 2 ^ 32) (hstop : stop < 2 ^ 32)
    (hstop' : stop' < 2 ^ 32) (hcount : count < 2 ^ 32) (hcount' : count' < 2 ^ 32)
    (h : coverageSealMessage chain start stop count =
      coverageSealMessage chain' start' stop' count') :
    chain = chain' ∧ start = start' ∧ stop = stop' ∧ count = count' := by
  obtain ⟨hchain, h⟩ := digest_append_inj (List.append_cancel_left h)
  obtain ⟨hstart, h⟩ := packI_append_inj hstart hstart' h
  obtain ⟨hstop, h⟩ := packI_append_inj hstop hstop' h
  exact ⟨hchain, hstart, hstop, packI_inj hcount hcount' h⟩

variable {config config' : SidecarConfig} {t t' : SidecarTrace} {digest : Digest}

theorem Covered.pendingDigest (h : Covered sha256 config t)
    (hdigest : t.session.pendingSchedulerCoverageDigest sha256 = .ok digest) :
    t.pending ≠ [] ∧
      digest = sha256 (coverageSealMessage
        (coverageChain sha256 config t.session.flushedEnd t.pending) t.session.flushedEnd
        t.session.capturedEnd t.pending.length) := by
  simp only [SidecarSession.pendingSchedulerCoverageDigest, bind_eq_ok, raiseIf_eq_ok,
    exists_const] at hdigest
  obtain ⟨hne, hdigest⟩ := hdigest
  have hpending : t.pending ≠ [] := by
    rw [h.pending_ne_nil_iff]
    have hbounds := h.pendingTiles.bounds.1
    omega
  rw [SidecarSession.pendingCoverageDigest, h.chain, h.start, h.count, if_neg hpending,
    if_neg hpending] at hdigest
  simp only [bind_eq_ok, raiseIf_eq_ok, exists_const, pure_eq_ok] at hdigest
  exact ⟨hpending, hdigest.2.symm⟩

theorem pending_eq_or_collide (h : Covered sha256 config t) (h' : Covered sha256 config' t')
    (hdigest : t.session.pendingSchedulerCoverageDigest sha256 = .ok digest)
    (hdigest' : t'.session.pendingSchedulerCoverageDigest sha256 = .ok digest) :
    t.pending = t'.pending ∨
      Collide sha256 (coverageMessages sha256 config t) (coverageMessages sha256 config' t') := by
  obtain ⟨hne, rfl⟩ := h.pendingDigest hdigest
  obtain ⟨hne', heq⟩ := h'.pendingDigest hdigest'
  obtain ⟨hlength, hstop⟩ := h.pendingTiles.bounds
  obtain ⟨hlength', hstop'⟩ := h'.pendingTiles.bounds
  replace hstop := hstop hne
  replace hstop' := hstop' hne'
  -- the seal
  have hseal : ∀ {c : SidecarConfig} {u : SidecarTrace},
      coverageSealMessage (coverageChain sha256 c u.session.flushedEnd u.pending)
        u.session.flushedEnd u.session.capturedEnd u.pending.length ∈
          coverageMessages sha256 c u := List.mem_cons_self
  rcases eq_or_collide_of_mem hseal hseal heq with hseal | hcollide
  case inr => exact .inr hcollide
  obtain ⟨hchain, -, -, hcount⟩ := coverageSealMessage_inj (by omega) (by omega) hstop hstop'
    (by omega) (by omega) hseal
  -- the links
  rcases eq_or_collide (fun _ _ _ _ => coverageEventMessage_inj) (by simpa using hcount)
    hchain with ⟨-, hdigests⟩ | hcollide
  case inr =>
    refine .inr (hcollide.mono ?_ ?_) <;> intro m hm <;>
      exact .tail _ (.tail _ (List.mem_append_left _ hm))
  -- the batches
  refine eq_or_of_map (fun b hb b' hb' hbatch => ?_) hdigests
  refine (batch_eq_or_collide hbatch).imp_right fun hcollide => hcollide.mono ?_ ?_ <;>
    intro m hm
  · exact .tail _ (.tail _ (List.mem_append_right _ (List.mem_flatMap.mpr ⟨b, hb, hm⟩)))
  · exact .tail _ (.tail _ (List.mem_append_right _ (List.mem_flatMap.mpr ⟨b', hb', hm⟩)))

/-! ## Runs -/

/-- After every list of calls, returning or raising, on two sessions: the first has covered what its
recorded batches cover, its chain is present exactly when there are captured tokens to flush, and a
pending coverage digest that both have determines the pending batches. -/
theorem sidecarSession_covers {arguments arguments' : SidecarArguments}
    {session session' : SidecarSession}
    (h : arguments.newSession sha256 = .ok (config, session))
    (h' : arguments'.newSession sha256 = .ok (config', session'))
    (calls calls' : List SidecarCall) :
    let t := SidecarTrace.run sha256 config session calls
    let t' := SidecarTrace.run sha256 config' session' calls'
    Covered sha256 config t ∧ t.session.flushedEnd ≤ t.session.capturedEnd ∧
      (t.session.schedulerCoverageChain ≠ none ↔ t.session.flushedEnd < t.session.capturedEnd) ∧
      ∀ digest, t.session.pendingSchedulerCoverageDigest sha256 = .ok digest →
        t'.session.pendingSchedulerCoverageDigest sha256 = .ok digest →
        t.pending = t'.pending ∨
          Collide sha256 (coverageMessages sha256 config t)
            (coverageMessages sha256 config' t') := by
  intro t t'
  have ht : Covered sha256 config t := Covered.run h calls
  have ht' : Covered sha256 config' t' := Covered.run h' calls'
  refine ⟨ht, ?_, ?_, fun digest => pending_eq_or_collide ht ht'⟩
  · have hbounds := ht.pendingTiles.bounds.1
    omega
  · rw [← ht.pending_ne_nil_iff, ht.chain]
    split_ifs with hpending <;> simp [hpending]

end Hashes

/-- The arguments of a small session. -/
def smallSidecar : SidecarArguments where
  profile := smallFoldedProfile
  precommitContext := smallPrecommitContext
  captureAbiDigest := constantDigest 2
  maxBatchSpans := 4
  maxPackedRows := 16
  binderIdentityDigest := constantDigest 3
  runtimeObservationDigest := constantDigest 4
  deviceRank := 0
  deviceHandleDigest := constantDigest 5
  cacheEpoch := 0

/-- The span of the first four tokens of the small session. -/
def smallBatchSpan : BatchSpan :=
  ⟨{ generationDigest := constantDigest 1
     phase := .prefill
     logicalTokenStart := 0
     tokenCount := 4
     packedRowStart := 0
     packedRowCount := 4
     sequenceLengthBefore := 0
     sequenceLengthAfter := 4
     positionStart := 0 }, by decide⟩

/-- A batch with this span alone. -/
def smallBatchLayout : BatchLayout :=
  ⟨⟨0, 0, 4, [smallBatchSpan]⟩, by
    simp only [BatchLayoutFields.postInit, bind_eq_ok, raiseIf_eq_ok, exists_const,
      StableSort.sortBy, List.map_singleton, List.mergeSort_singleton]
    exact ⟨(), rfl, (), rfl, (), rfl, by decide, by decide, by decide, by simp, by simp, rfl⟩⟩

/-- The small session with one batch. -/
theorem sidecarSession_covers_small :
    ∃ config session, smallSidecar.newSession constantHash = .ok (config, session) ∧
      Covered constantHash config (SidecarTrace.run constantHash config session
        [.recordBatchLayout (some smallBatchLayout), .recordBatchLayout none]) := by
  have hsession : (smallSidecar.newSession constantHash).isOk = true := by decide +kernel
  cases hcase : smallSidecar.newSession constantHash with
  | error e =>
    rw [hcase] at hsession
    cases hsession
  | ok p =>
    obtain ⟨config, session⟩ := p
    exact ⟨config, session, rfl, (sidecarSession_covers hcase hcase _ []).1⟩

end Verathos.ProofV3
