import Verathos.Lib.Intervals
import Verathos.ProofV3.AccumulatorAtomicity

/-!
# The chunk universe

A translation of `expected_execution_chunks_v3` of `challenge.py`, and its comparison with the
chunks that a sealed trace has accepted.

* `Progress`: the fields of the accumulator that decide which chunks are accepted. A refused call
  keeps them (`progress_of_raises`), and so does every accepted call that is not a chunk, a seal or
  `begin`.
* `Covered`: the accepted chunks of both phases lie one after the other, within the signed sizes,
  and their state roots are chained from the anchor of the validator.
* `sealedTrace_covers_iff`: what a sealed trace has accepted. The chunks are the expected ones
  exactly when every chunk but the last of its phase has the signed size, and the counts are not
  below the signed domain.
-/

namespace Verathos.ProofV3

open Method Blocks
open PrefixCache (Constructed construct construct_eq_ok packI nonzero32 u32 positiveU32)

/-! ## The expected chunks -/

def ChunkCoordinates.postInit (chunk : ChunkCoordinates) : Result Unit := do
  u32 chunk.chunkIndex "expected execution chunk_index"
  u32 chunk.logicalTokenStart "expected execution logical_token_start"
  positiveU32 chunk.tokenCount "expected execution token_count"
  raiseIf (chunk.logicalTokenStart + chunk.tokenCount > 2 ^ 32)
    (.proofV3Error "expected execution chunk token range overflows")

/-- `ExpectedExecutionChunkV3`. -/
abbrev ExpectedExecutionChunk := Constructed ChunkCoordinates.postInit

/-- The coordinates that the loop of `expected_execution_chunks_v3` gives for a phase, from the next
index on. -/
def phaseChunks (phase : ChunkPhase) (chunkIndex logicalStart tokenCount chunkSize : ℕ) :
    List ChunkCoordinates :=
  (List.range (blockCount chunkSize tokenCount)).map fun i =>
    { phase := phase
      chunkIndex := chunkIndex + i
      logicalTokenStart := logicalStart + i * chunkSize
      tokenCount := min chunkSize (tokenCount - i * chunkSize) }

/-- The coordinates of both phases. -/
def universeCoordinates (relation : RelationFields) (contextTokenCount decodeTokenCount : ℕ) :
    List ChunkCoordinates :=
  let prefillChunks := phaseChunks .prefill 0 0 contextTokenCount relation.prefillChunkTokens
  prefillChunks ++ phaseChunks .decode prefillChunks.length contextTokenCount decodeTokenCount
    relation.decodeChunkTokens

/-- `expected_execution_chunks_v3`. -/
def expectedExecutionChunks (sha256 : Bytes → Digest) (profile : ExecutionSecurityProfile)
    (envelope : ProofV3CommitmentEnvelope) : Result (List ExpectedExecutionChunk) := do
  profile.val.requireHardExecutionCapability
  let profileDigest ← profile.val.digest sha256
  raiseIf (envelope.val.executionProfileDigest ≠ profileDigest)
    (.proofV3Error "execution chunk universe has an unexpected profile")
  raiseIf (envelope.val.staticManifestDigest ≠ profile.val.staticManifestDigest)
    (.proofV3Error "execution chunk universe has an unexpected static manifest")
  let relation := profile.val.relationSpec.val
  let _ ← relation.validateExecutionCounts envelope.val.contextTokenCount
    envelope.val.decodeTokenCount
  (universeCoordinates relation envelope.val.contextTokenCount
    envelope.val.decodeTokenCount).mapM (construct ChunkCoordinates.postInit)

/-! ## Chunks one after the other -/

/-- Chunks of a phase with these sizes, from an index and a logical token on. -/
def consecutive (phase : ChunkPhase) : ℕ → ℕ → List ℕ → List ChunkCoordinates
  | _, _, [] => []
  | chunkIndex, start, size :: sizes =>
    ⟨phase, chunkIndex, start, size⟩ :: consecutive phase (chunkIndex + 1) (start + size) sizes

section Consecutive

variable {phase : ChunkPhase} {chunkIndex start : ℕ} {sizes sizes' : List ℕ}

@[simp]
theorem map_tokenCount_consecutive :
    (consecutive phase chunkIndex start sizes).map ChunkCoordinates.tokenCount = sizes := by
  induction sizes generalizing chunkIndex start with
  | nil => rfl
  | cons size sizes ih => rw [consecutive, List.map_cons, ih]

@[simp]
theorem length_consecutive : (consecutive phase chunkIndex start sizes).length = sizes.length := by
  induction sizes generalizing chunkIndex start with
  | nil => rfl
  | cons size sizes ih => rw [consecutive, List.length_cons, ih, List.length_cons]

theorem consecutive_append_singleton {size : ℕ} :
    consecutive phase chunkIndex start (sizes ++ [size]) =
      consecutive phase chunkIndex start sizes ++
        [⟨phase, chunkIndex + sizes.length, start + sizes.sum, size⟩] := by
  induction sizes generalizing chunkIndex start with
  | nil => simp [consecutive]
  | cons first sizes ih =>
    rw [List.cons_append, consecutive, consecutive, ih, List.cons_append, List.length_cons,
      List.sum_cons, Nat.add_right_comm chunkIndex, ← Nat.add_assoc start, Nat.add_assoc chunkIndex]

theorem consecutive_inj :
    consecutive phase chunkIndex start sizes = consecutive phase chunkIndex start sizes' ↔
      sizes = sizes' := by
  refine ⟨fun h => ?_, congrArg _⟩
  simpa using congrArg (List.map ChunkCoordinates.tokenCount) h

theorem flatMap_tokens_consecutive :
    ((consecutive phase chunkIndex start sizes).flatMap fun chunk =>
      List.range' chunk.logicalTokenStart chunk.tokenCount) = List.range' start sizes.sum := by
  induction sizes generalizing chunkIndex start with
  | nil => rfl
  | cons size sizes ih =>
    rw [consecutive, List.flatMap_cons, ih, List.sum_cons, List.range'_append_1]

theorem phaseChunks_eq {chunkSize tokenCount : ℕ} (hsize : 0 < chunkSize) :
    phaseChunks phase chunkIndex start tokenCount chunkSize =
      consecutive phase chunkIndex start (blockSizes chunkSize tokenCount) := by
  induction tokenCount using Nat.strong_induction_on generalizing chunkIndex start with
  | _ tokenCount ih =>
    rcases Nat.eq_zero_or_pos tokenCount with rfl | hcount
    · simp [phaseChunks, blockSizes_zero, consecutive, hsize]
    rcases le_or_gt tokenCount chunkSize with hle | hlt
    · simp [phaseChunks, blockCount_of_le hcount hle, blockSizes_of_le hcount hle, consecutive, hle]
    · obtain ⟨rest, rfl⟩ := Nat.exists_eq_add_of_le hlt.le
      rw [blockSizes_add hsize, consecutive, ← ih rest (by omega), phaseChunks,
        blockCount_add hsize, List.range_succ_eq_map, List.map_cons, List.map_map, phaseChunks]
      congr 1
      · simp
      · refine List.map_congr_left fun i _ => ?_
        simp only [Function.comp_apply, Nat.succ_eq_add_one, ChunkCoordinates.mk.injEq, true_and,
          Nat.add_mul, one_mul]
        omega

theorem phase_of_mem_consecutive {chunk : ChunkCoordinates}
    (h : chunk ∈ consecutive phase chunkIndex start sizes) : chunk.phase = phase := by
  induction sizes generalizing chunkIndex start with
  | nil => cases h
  | cons size sizes ih =>
    rcases List.mem_cons.mp h with rfl | h
    · rfl
    · exact ih h

theorem consecutive_append_inj {start' : ℕ} {decodeSizes decodeSizes' : List ℕ}
    (index : List ℕ → ℕ) :
    consecutive .prefill chunkIndex start sizes ++
          consecutive .decode (index sizes) start' decodeSizes =
        consecutive .prefill chunkIndex start sizes' ++
          consecutive .decode (index sizes') start' decodeSizes' ↔
      sizes = sizes' ∧ decodeSizes = decodeSizes' := by
  have hprefill : ∀ sizes decodeSizes i,
      (consecutive .prefill chunkIndex start sizes ++
          consecutive .decode i start' decodeSizes).filter
            (fun chunk => chunk.phase = .prefill) =
        consecutive .prefill chunkIndex start sizes := by
    intro sizes decodeSizes i
    rw [List.filter_append, List.filter_eq_self.mpr, List.filter_eq_nil_iff.mpr, List.append_nil]
    · intro chunk hchunk
      simp [phase_of_mem_consecutive hchunk]
    · intro chunk hchunk
      simp [phase_of_mem_consecutive hchunk]
  constructor
  · intro h
    have hsizes := congrArg (List.filter fun chunk => chunk.phase = .prefill) h
    rw [hprefill, hprefill, consecutive_inj] at hsizes
    subst hsizes
    rw [List.append_cancel_left_eq, consecutive_inj] at h
    exact ⟨rfl, h⟩
  · rintro ⟨rfl, rfl⟩
    rfl

end Consecutive

/-! ## Progress -/

/-- The fields of the accumulator that decide which chunks it accepts. -/
structure Progress where
  state : TraceState
  contextTokenCount : ℕ
  maxVerifiedDecodeTokens : ℕ
  precommitContext : Option PreExecutionRequestContext
  profile : Option ExecutionSecurityProfile
  initialExecutionStateAnchor : Option Digest
  nextChunkIndex : ℕ
  nextChunkTokenStart : ℕ
  lastChunkExitStateRoot : Option Digest

/-- The progress of an object. -/
def Accumulator.progress (s : Accumulator) : Progress where
  state := s.state
  contextTokenCount := s.contextTokenCount
  maxVerifiedDecodeTokens := s.maxVerifiedDecodeTokens
  precommitContext := s.precommitContext
  profile := s.profile
  initialExecutionStateAnchor := s.initialExecutionStateAnchor
  nextChunkIndex := s.nextChunkIndex
  nextChunkTokenStart := s.nextChunkTokenStart
  lastChunkExitStateRoot := s.lastChunkExitStateRoot

variable {sha256 : Bytes → Digest} {s s' : Accumulator} {e : PyError} {u : Unit}

section Updates

variable {mode : CaptureMode} {logicalEnd : ℕ} {chain root : Digest} {address : PageAddressFields}
  {chunk : ChunkFields}

@[simp]
theorem progress_inMode : (s.inMode mode).progress = s.progress := rfl

@[simp]
theorem progress_setMax : (s.setMaxLogicalTokenExclusive logicalEnd).progress = s.progress := rfl

@[simp]
theorem progress_appended : (s.appended sha256 chain root).progress = s.progress := rfl

@[simp]
theorem progress_withPage : (s.withPage address).progress = s.progress := rfl

@[simp]
theorem progress_withTableEvent :
    (s.withTableEvent sha256 address chain root).progress = s.progress := rfl

@[simp]
theorem progress_inBindingMode : (s.inBindingMode chunk).progress = s.progress := rfl

@[simp]
theorem progress_inGeneration : (s.inGeneration chunk).progress = s.progress := rfl

@[simp]
theorem progress_bound : (s.bound chunk).progress = s.progress := by simp [Accumulator.bound]

end Updates

open Accumulator in
theorem progress_of_raises {call : AccumulatorCall} (hs : s.Consistent)
    (h : Raises (call.method sha256) s e s') : s'.progress = s.progress := by
  cases call with
  | begin profile precommitContext cacheEpoch => rw [raises_begin h]
  | accumulateStage stageId tokenIndex stageRoot =>
    rcases raises_accumulateStage h with ⟨-, rfl⟩ | ⟨-, ⟨-, rfl⟩ | ⟨-, rfl⟩⟩ <;> simp
  | accumulateChunk chunk =>
    rcases raises_accumulateChunk h with
      ⟨-, rfl⟩ | ⟨-, ⟨-, rfl⟩ | ⟨c, -, ⟨-, -, rfl⟩ | ⟨-, -, -, rfl⟩ | ⟨-, ⟨-, rfl⟩ | ⟨-, rfl⟩⟩⟩⟩ <;>
      simp
  | accumulateKvPages address pageRoot =>
    rcases raises_accumulateKvPages (fun _ _ => hs.tableChain) h with
      ⟨-, rfl⟩ | ⟨-, ⟨-, rfl⟩ | ⟨a, -, ⟨-, rfl⟩ | ⟨_, _, -, -, ⟨-, rfl⟩ | ⟨-, rfl⟩⟩⟩⟩ <;>
      simp
  | sealPrefill contextTokenCount => rw [raises_sealPrefill (raises_discard.mp h)]
  | sealDecode decodeTokenCount outputBinding => rw [raises_sealDecode (raises_discard.mp h)]
  | freezePrecommit => rw [raises_freezePrecommit h]
  | openPostnonce ticket => rw [raises_openPostnonce (raises_discard.mp h)]
  | release => exact absurd h raises_release

/-! ## Covered chunks -/

/-- The coordinates of accepted chunks. -/
def coordinatesOf (chunks : List ExecutionChunkCommitment) : List ChunkCoordinates :=
  chunks.map fun chunk => chunk.val.toChunkCoordinates

/-- The sizes of accepted chunks. -/
def sizesOf (chunks : List ExecutionChunkCommitment) : List ℕ :=
  chunks.map fun chunk => chunk.val.tokenCount

/-- The state roots of the chunks are chained from a first one. -/
def Chained (anchor : Digest) (chunks : List ExecutionChunkCommitment) : Prop :=
  (∀ chunk ∈ chunks.head?, chunk.val.entryStateRoot = anchor) ∧
    chunks.IsChain fun chunk next => next.val.entryStateRoot = chunk.val.exitStateRoot

/-- The trace was begun with a profile and a context, and has the anchor of the context. -/
structure Progress.Origin (p : Progress) (sha256 : Bytes → Digest)
    (profile : ExecutionSecurityProfile) (context : PreExecutionRequestContext)
    (anchor : Digest) : Prop where
  profile_eq : p.profile = some profile
  context_eq : p.precommitContext = some context
  anchor_eq : p.initialExecutionStateAnchor = some anchor
  anchored : context.val.initialExecutionStateAnchor sha256 = .ok anchor
  maxDecode : p.maxVerifiedDecodeTokens = profile.val.maxVerifiedDecodeTokens
  begun : ∃ cacheEpoch digest, Accumulator.checkBegin sha256 profile context cacheEpoch = .ok digest

/-- The chunks of the two phases lie one after the other, and the next one has its place after
them. -/
structure Progress.Covered (p : Progress) (profile : ExecutionSecurityProfile) (anchor : Digest)
    (prefill decode : List ExecutionChunkCommitment) : Prop where
  index : p.nextChunkIndex = prefill.length + decode.length
  start : p.nextChunkTokenStart = (sizesOf prefill).sum + (sizesOf decode).sum
  prefillChunks : coordinatesOf prefill = consecutive .prefill 0 0 (sizesOf prefill)
  decodeChunks : coordinatesOf decode =
    consecutive .decode prefill.length (sizesOf prefill).sum (sizesOf decode)
  prefillSizes : ∀ n ∈ sizesOf prefill, n ≤ profile.val.relationSpec.val.prefillChunkTokens
  decodeSizes : ∀ n ∈ sizesOf decode, n ≤ profile.val.relationSpec.val.decodeChunkTokens
  chained : Chained anchor (prefill ++ decode)
  exit : p.lastChunkExitStateRoot =
    (prefill ++ decode).getLast?.map fun chunk => chunk.val.exitStateRoot

/-- What the progress says about the accepted chunks, before the trace is sealed. -/
def Progress.Traced (p : Progress) (sha256 : Bytes → Digest)
    (chunks : List ExecutionChunkCommitment) : Prop :=
  (p.state = .new → chunks = [] ∧ p.nextChunkIndex = 0 ∧ p.nextChunkTokenStart = 0 ∧
      p.lastChunkExitStateRoot = none) ∧
    (p.state = .prefill → ∃ profile context anchor, p.Origin sha256 profile context anchor ∧
      p.Covered profile anchor chunks []) ∧
    (p.state = .decode → ∃ profile context anchor, p.Origin sha256 profile context anchor ∧
      ∃ prefill decode, chunks = prefill ++ decode ∧ p.Covered profile anchor prefill decode ∧
        (sizesOf prefill).sum = p.contextTokenCount ∧
        p.contextTokenCount = context.val.contextTokenCount)

/-! ## Steps -/

variable {profile : ExecutionSecurityProfile}

theorem checkChunk_spec {chunk : ChunkFields} (hprofile : s.profile = some profile)
    (h : Accepts (s.checkChunk chunk)) :
    chunk.phase.state = s.state ∧ chunk.chunkIndex = s.nextChunkIndex ∧
      chunk.logicalTokenStart = s.nextChunkTokenStart ∧
      chunk.tokenCount ≤ Accumulator.chunkLimit profile.val.relationSpec.val chunk.phase := by
  obtain ⟨_, h⟩ := h
  simp only [Accumulator.checkChunk, bind_eq_ok, raiseIf_eq_ok, exists_const, not_not,
    hprofile, required, Except.ok.injEq, not_lt] at h
  obtain ⟨hphase, hindex, hstart, _, -, -, _, rfl, hlimit, -⟩ := h
  exact ⟨hphase, hindex, hstart, hlimit⟩

variable {anchor : Digest}

theorem checkEntryState_spec {chunk : ChunkFields}
    (hanchor : s.initialExecutionStateAnchor = some anchor) (h : Accepts (s.checkEntryState chunk))
    :
    chunk.entryStateRoot = s.lastChunkExitStateRoot.getD anchor := by
  obtain ⟨_, h⟩ := h
  unfold Accumulator.checkEntryState at h
  cases hexit : s.lastChunkExitStateRoot with
  | none => simpa [hexit, hanchor, required, raiseIf_eq_ok] using h
  | some exit => simpa [hexit] using h

variable {chunks : List ExecutionChunkCommitment} {chunk : ExecutionChunkCommitment}

theorem Chained.append (h : Chained anchor chunks)
    (hentry : chunk.val.entryStateRoot =
      (chunks.getLast?.map fun chunk => chunk.val.exitStateRoot).getD anchor) :
    Chained anchor (chunks ++ [chunk]) := by
  refine ⟨?_, List.isChain_append.mpr ⟨h.2, List.isChain_singleton chunk, ?_⟩⟩
  · rcases chunks with _ | ⟨first, rest⟩
    · simpa using hentry
    · simpa using h.1
  · intro last hlast next hnext
    rw [Option.mem_def.mp hlast] at hentry
    obtain rfl : chunk = next := by simpa using hnext
    exact hentry

@[simp]
theorem sizesOf_append {chunks' : List ExecutionChunkCommitment} :
    sizesOf (chunks ++ chunks') = sizesOf chunks ++ sizesOf chunks' := List.map_append

@[simp]
theorem coordinatesOf_append {chunks' : List ExecutionChunkCommitment} :
    coordinatesOf (chunks ++ chunks') = coordinatesOf chunks ++ coordinatesOf chunks' :=
  List.map_append

@[simp]
theorem length_sizesOf : (sizesOf chunks).length = chunks.length := List.length_map _

theorem coordinatesOf_append_singleton {phase : ChunkPhase} {chunkIndex start : ℕ}
    (h : coordinatesOf chunks = consecutive phase chunkIndex start (sizesOf chunks))
    (hphase : chunk.val.phase = phase) (hindex : chunk.val.chunkIndex = chunkIndex + chunks.length)
    (hstart : chunk.val.logicalTokenStart = start + (sizesOf chunks).sum) :
    coordinatesOf (chunks ++ [chunk]) =
      consecutive phase chunkIndex start (sizesOf (chunks ++ [chunk])) := by
  rw [coordinatesOf_append, sizesOf_append, h]
  change _ = consecutive phase chunkIndex start (sizesOf chunks ++ [chunk.val.tokenCount])
  rw [consecutive_append_singleton, length_sizesOf, ← hphase, ← hindex, ← hstart]
  rfl

/-- The chunk of a call. -/
def AccumulatorCall.chunk? : AccumulatorCall → Option ExecutionChunkCommitment
  | .accumulateChunk chunk => chunk
  | _ => none

/-- The progress after an accepted chunk. -/
def Progress.withChunk (p : Progress) (chunk : ChunkFields) : Progress :=
  { p with
    nextChunkIndex := p.nextChunkIndex + 1
    nextChunkTokenStart := chunk.logicalEnd
    lastChunkExitStateRoot := some chunk.exitStateRoot }

@[simp]
theorem progress_withChunk {chunk : ChunkFields} :
    (s.withChunk chunk).progress = s.progress.withChunk chunk := rfl

variable {p : Progress}

theorem Progress.Covered.prefill {prefill : List ExecutionChunkCommitment}
    (h : p.Covered profile anchor prefill [])
    (hphase : chunk.val.phase = .prefill) (hindex : chunk.val.chunkIndex = p.nextChunkIndex)
    (hstart : chunk.val.logicalTokenStart = p.nextChunkTokenStart)
    (hlimit : chunk.val.tokenCount ≤ profile.val.relationSpec.val.prefillChunkTokens)
    (hentry : chunk.val.entryStateRoot = p.lastChunkExitStateRoot.getD anchor) :
    (p.withChunk chunk.val).Covered profile anchor (prefill ++ [chunk]) [] where
  index := by simp [withChunk, h.index]
  start := by
    simp only [withChunk, ChunkCoordinates.logicalEnd, hstart, h.start, sizesOf_append]
    simp [sizesOf]
  prefillChunks := by
    refine coordinatesOf_append_singleton h.prefillChunks hphase ?_ ?_
    · rw [hindex, h.index]
      simp
    · rw [hstart, h.start]
      simp [sizesOf]
  decodeChunks := rfl
  prefillSizes := by
    intro n hn
    rw [sizesOf_append, List.mem_append] at hn
    rcases hn with hn | hn
    · exact h.prefillSizes n hn
    · obtain rfl : n = chunk.val.tokenCount := by simpa [sizesOf] using hn
      exact hlimit
  decodeSizes := by simp [sizesOf]
  chained := by
    have hchained := h.chained
    rw [List.append_nil] at hchained ⊢
    refine hchained.append ?_
    rw [hentry, h.exit, List.append_nil]
  exit := by simp [withChunk]

theorem Progress.Covered.decode {prefill decode : List ExecutionChunkCommitment}
    (h : p.Covered profile anchor prefill decode)
    (hphase : chunk.val.phase = .decode) (hindex : chunk.val.chunkIndex = p.nextChunkIndex)
    (hstart : chunk.val.logicalTokenStart = p.nextChunkTokenStart)
    (hlimit : chunk.val.tokenCount ≤ profile.val.relationSpec.val.decodeChunkTokens)
    (hentry : chunk.val.entryStateRoot = p.lastChunkExitStateRoot.getD anchor) :
    (p.withChunk chunk.val).Covered profile anchor prefill (decode ++ [chunk]) where
  index := by simp [withChunk, h.index, Nat.add_assoc]
  start := by
    simp only [withChunk, ChunkCoordinates.logicalEnd, hstart, h.start, sizesOf_append]
    simp [sizesOf, Nat.add_assoc]
  prefillChunks := h.prefillChunks
  decodeChunks := by
    refine coordinatesOf_append_singleton h.decodeChunks hphase ?_ ?_
    · rw [hindex, h.index]
    · rw [hstart, h.start]
  prefillSizes := h.prefillSizes
  decodeSizes := by
    intro n hn
    rw [sizesOf_append, List.mem_append] at hn
    rcases hn with hn | hn
    · exact h.decodeSizes n hn
    · obtain rfl : n = chunk.val.tokenCount := by simpa [sizesOf] using hn
      exact hlimit
  chained := by
    rw [← List.append_assoc]
    refine h.chained.append ?_
    rw [hentry, h.exit]
  exit := by simp [withChunk, ← List.append_assoc]

theorem traced_of_state {state : TraceState} (hp : p.state = state)
    (hstate : state ≠ .new ∧ state ≠ .prefill ∧ state ≠ .decode) : p.Traced sha256 chunks := by
  subst hp
  exact ⟨fun h => absurd h hstate.1, fun h => absurd h hstate.2.1, fun h => absurd h hstate.2.2⟩

variable {prefill decode : List ExecutionChunkCommitment}

theorem traced_withChunk (hs : s.progress.Traced sha256 chunks)
    (hadmits : s.Admits .chunks) (hchunk : Accepts (s.checkChunk chunk.val))
    (hentry : Accepts (s.checkEntryState chunk.val)) :
    (s.progress.withChunk chunk.val).Traced sha256 (chunks ++ [chunk]) := by
  obtain ⟨-, hprefill, hdecode⟩ := hs
  rcases hadmits.1 with hstate | hstate
  · obtain ⟨profile, context, anchor, horigin, hcovered⟩ := hprefill hstate
    obtain ⟨hphase, hindex, hstart, hlimit⟩ := checkChunk_spec horigin.profile_eq hchunk
    have hphase : chunk.val.phase = .prefill := by
      cases hcase : chunk.val.phase with
      | prefill => rfl
      | decode => simp [hcase, ChunkPhase.state, hstate] at hphase
    rw [hphase] at hlimit
    refine ⟨fun hnew => ?_, fun _ => ?_, fun hnew => ?_⟩
    · exact absurd (hstate.symm.trans hnew) (by decide)
    · exact ⟨profile, context, anchor, ⟨horigin.1, horigin.2, horigin.3, horigin.4, horigin.5,
        horigin.6⟩, hcovered.prefill hphase hindex hstart hlimit
          (checkEntryState_spec horigin.anchor_eq hentry)⟩
    · exact absurd (hstate.symm.trans hnew) (by decide)
  · obtain ⟨profile, context, anchor, horigin, prefill, decode, rfl, hcovered, hcontext⟩ :=
      hdecode hstate
    obtain ⟨hphase, hindex, hstart, hlimit⟩ := checkChunk_spec horigin.profile_eq hchunk
    have hphase : chunk.val.phase = .decode := by
      cases hcase : chunk.val.phase with
      | decode => rfl
      | prefill => simp [hcase, ChunkPhase.state, hstate] at hphase
    rw [hphase] at hlimit
    refine ⟨fun hnew => ?_, fun hnew => ?_, fun _ => ?_⟩
    · exact absurd (hstate.symm.trans hnew) (by decide)
    · exact absurd (hstate.symm.trans hnew) (by decide)
    · exact ⟨profile, context, anchor, ⟨horigin.1, horigin.2, horigin.3, horigin.4, horigin.5,
        horigin.6⟩, prefill, decode ++ [chunk], List.append_assoc _ _ _,
          hcovered.decode hphase hindex hstart hlimit
            (checkEntryState_spec horigin.anchor_eq hentry), hcontext⟩

variable {context : PreExecutionRequestContext}

theorem sealedPrefillRoot_spec {contextTokenCount : ℕ} {roots : Digest × Digest}
    (hcontext : s.precommitContext = some context)
    (h : s.sealedPrefillRoot sha256 contextTokenCount = .ok roots) :
    s.nextChunkTokenStart = contextTokenCount ∧
      contextTokenCount = context.val.contextTokenCount := by
  simp only [Accumulator.sealedPrefillRoot, bind_eq_ok, raiseIf_eq_ok, exists_const, hcontext,
    required, Except.ok.injEq, not_not, not_and_or, not_or] at h
  obtain ⟨_, -, -, _, rfl, heq, hmode, hcovered, -⟩ := h
  exact ⟨(hcovered.resolve_left fun hne => hne hmode).1, heq⟩

open Accumulator in
theorem traced_of_returns {call : AccumulatorCall} (hs : s.progress.Traced sha256 chunks)
    (h : Returns (call.method sha256) s u s') :
    s'.progress.Traced sha256 (chunks ++ call.chunk?.toList) := by
  cases call with
  | begin profile precommitContext cacheEpoch =>
    obtain ⟨hstate, p, c, context, anchor, rfl, rfl, hcontext, hanchor, rfl⟩ := returns_begin h
    obtain ⟨rfl, hindex, hstart, hexit⟩ := hs.1 hstate
    refine ⟨fun hnew => (nomatch hnew), fun _ => ?_, fun hnew => (nomatch hnew)⟩
    refine ⟨p, c, anchor, ⟨rfl, rfl, rfl, hanchor, rfl, cacheEpoch, context, hcontext⟩, ?_⟩
    change Progress.Covered _ p anchor [] []
    exact ⟨hindex, hstart, rfl, rfl, by simp [sizesOf], by simp [sizesOf],
      ⟨by simp, List.isChain_nil⟩, hexit⟩
  | accumulateStage stageId tokenIndex stageRoot =>
    obtain ⟨-, chain, recordDigest, rfl⟩ := returns_accumulateStage h
    simpa [AccumulatorCall.chunk?] using hs
  | accumulateChunk chunk =>
    obtain ⟨hadmits, c, chain, rfl, hchunk, hentry, rfl⟩ := returns_accumulateChunk h
    simpa [AccumulatorCall.chunk?] using traced_withChunk hs hadmits hchunk hentry
  | accumulateKvPages address pageRoot =>
    obtain ⟨-, a, rfl, _, _, _, _, rfl⟩ := returns_accumulateKvPages h
    simpa [AccumulatorCall.chunk?] using hs
  | sealPrefill contextTokenCount =>
    obtain ⟨root, hseal⟩ := returns_discard.mp h
    obtain ⟨hstate, context, hroot, rfl⟩ := returns_sealPrefill hseal
    obtain ⟨profile, precommit, anchor, horigin, hcovered⟩ := hs.2.1 hstate
    obtain ⟨hstart, hcount⟩ := sealedPrefillRoot_spec horigin.context_eq hroot
    refine ⟨fun hnew => (nomatch hnew), fun hnew => (nomatch hnew), fun _ => ?_⟩
    refine ⟨profile, precommit, anchor, ⟨horigin.1, horigin.2, horigin.3, horigin.4, horigin.5,
      horigin.6⟩, chunks, [], rfl, ⟨hcovered.index, hcovered.start, hcovered.prefillChunks, rfl,
        hcovered.prefillSizes, hcovered.decodeSizes, hcovered.chained, hcovered.exit⟩, ?_, hcount⟩
    have hsum := hcovered.start
    change s.nextChunkTokenStart = _ at hsum
    rw [hstart] at hsum
    exact hsum.symm
  | sealDecode decodeTokenCount outputBinding =>
    obtain ⟨_, hseal⟩ := returns_discard.mp h
    obtain ⟨-, _, -, -, rfl⟩ := returns_sealDecode hseal
    exact traced_of_state (rfl : _ = TraceState.sealed) (by decide)
  | freezePrecommit =>
    obtain ⟨-, rfl⟩ := returns_freezePrecommit h
    exact traced_of_state (rfl : _ = TraceState.frozen) (by decide)
  | openPostnonce ticket =>
    obtain ⟨_, hopen⟩ := returns_discard.mp h
    exact absurd hopen returns_openPostnonce
  | release =>
    obtain rfl := returns_modify.mp h
    split_ifs with hstate
    · simpa [AccumulatorCall.chunk?] using hs
    · exact traced_of_state (rfl : _ = TraceState.released) (by decide)

/-- The chunks that a run has accepted, in order. -/
def acceptedChunksFrom (sha256 : Bytes → Digest) (s : Accumulator) (calls : List AccumulatorCall) :
    List ExecutionChunkCommitment :=
  (acceptedFrom sha256 s calls).filterMap AccumulatorCall.chunk?

theorem traced_afterCallsFrom {calls : List AccumulatorCall} (hconsistent : s.Consistent)
    (hs : s.progress.Traced sha256 chunks) :
    (afterCallsFrom sha256 s calls).progress.Traced sha256
      (chunks ++ acceptedChunksFrom sha256 s calls) := by
  induction calls generalizing s chunks with
  | nil => simpa [acceptedChunksFrom, acceptedFrom, afterCallsFrom] using hs
  | cons call calls ih =>
    change (afterCallsFrom sha256 (after (call.method sha256) s) calls).progress.Traced sha256 _
    rcases returns_or_raises (call.method sha256) s with ⟨u, s', hreturns⟩ | ⟨e, s', hraises⟩
    · have h := ih (hconsistent.returns hreturns) (traced_of_returns hs hreturns)
      rw [after_of_returns hreturns, acceptedChunksFrom, acceptedFrom,
        show call.method sha256 s = .ok u s' from hreturns]
      cases hchunk : call.chunk? <;> simpa [acceptedChunksFrom, hchunk] using h
    · have h := ih (hconsistent.raises hraises) (progress_of_raises hconsistent hraises ▸ hs)
      rw [after_of_raises hraises, acceptedChunksFrom, acceptedFrom,
        show call.method sha256 s = .error e s' from hraises]
      exact h

/-! ## The signed domain -/

/-- The counts are not below the minima of the signed sequence domain. -/
def RelationFields.MeetsMinima (relation : RelationFields)
    (contextTokenCount decodeTokenCount : ℕ) : Prop :=
  ∀ context decode sequence,
    relation.sequenceDomain.validateDimensions relation.dimensions =
        .ok (context, decode, sequence) →
      context.minimum ≤ contextTokenCount ∧ decode.minimum ≤ decodeTokenCount

/-- Counts within the limits of a profile are in the signed domain, unless they are below it. -/
theorem validateExecutionCounts_iff {contextTokenCount decodeTokenCount : ℕ}
    (hpos : 0 < contextTokenCount)
    (hcontext : contextTokenCount ≤ profile.val.maxVerifiedContextTokens)
    (hdecode : decodeTokenCount ≤ profile.val.maxVerifiedDecodeTokens) :
    Accepts (profile.val.relationSpec.val.validateExecutionCounts contextTokenCount
        decodeTokenCount) ↔
      profile.val.relationSpec.val.MeetsMinima contextTokenCount decodeTokenCount := by
  have hprofile := profile.property
  simp only [ProfileFields.postInit, RelationFields.validateForLimits, bind_eq_ok, raiseIf_eq_ok,
    exists_const, Prod.exists] at hprofile
  obtain ⟨_, -, _, -, _, -, _, -, hsum, _, -, _, -, -, -, -, -, context, decode, sequence,
    hdimensions, hcontextMax, hdecodeMax, hsequenceMax⟩ := hprofile
  have hsequenceMin : sequence.minimum = context.minimum + decode.minimum := by
    unfold SequenceDomain.validateDimensions at hdimensions
    split at hdimensions
    · simp only [bind_eq_ok, raiseIf_eq_ok, exists_const, pure_eq_ok, not_not,
        Prod.mk.injEq] at hdimensions
      obtain ⟨-, hmin, -, rfl, rfl, rfl⟩ := hdimensions
      exact hmin
    · cases hdimensions
  simp only [RelationFields.validateExecutionCounts, SequenceDomain.bindCounts,
    RelationFields.MeetsMinima, Accepts, bind_eq_ok, hdimensions, Except.ok.injEq, positiveU32, u32,
    raiseIf_eq_ok, exists_const, pure_eq_ok, Prod.exists, Prod.mk.injEq]
  constructor
  · rintro ⟨_, c, d, q, ⟨rfl, rfl, rfl⟩, -, -, hc, hd, -⟩ c' d' q' ⟨rfl, rfl, rfl⟩
    exact ⟨by omega, by omega⟩
  · intro h
    obtain ⟨hcontextMin, hdecodeMin⟩ := h context decode sequence ⟨rfl, rfl, rfl⟩
    refine ⟨contextTokenCount + decodeTokenCount, context, decode, sequence, ⟨rfl, rfl, rfl⟩, ?_⟩
    refine ⟨by omega, by omega, by omega, by omega, by omega, by omega, rfl⟩

/-! ## Sealed traces -/

/-- The chunks that a run of a new object has accepted, in order. -/
def acceptedChunks (sha256 : Bytes → Digest) (calls : List AccumulatorCall) :
    List ExecutionChunkCommitment :=
  acceptedChunksFrom sha256 {} calls

/-- Every accepted chunk of the phase but the last has the signed size. -/
def FullChunks (profile : ExecutionSecurityProfile) (chunks : List ExecutionChunkCommitment)
    (phase : ChunkPhase) : Prop :=
  ∀ chunk ∈ (chunks.filter fun chunk => chunk.val.phase = phase).dropLast,
    chunk.val.tokenCount = Accumulator.chunkLimit profile.val.relationSpec.val phase

theorem mapM_construct_eq_ok {α : Type} {postInit : α → Result Unit} {items : List α}
    {objects : List (Constructed postInit)} :
    items.mapM (construct postInit) = .ok objects ↔ objects.map Subtype.val = items := by
  simp only [mapM_eq_ok, construct_eq_ok]
  rw [@eq_comm _ (objects.map _), ← List.forall₂_eq_eq_eq, List.forall₂_map_right_iff]
  simp only [@eq_comm α]

theorem coordinates_postInit (chunk : ExecutionChunkCommitment) :
    chunk.val.toChunkCoordinates.postInit = .ok () := by
  have h := chunk.property
  simp only [ChunkFields.postInit, u32, positiveU32, bind_eq_ok, raiseIf_eq_ok, exists_const] at h
  obtain ⟨hindex, hstart, hcount, hrange, -⟩ := h
  simp only [ChunkCoordinates.postInit, u32, positiveU32, bind_eq_ok, raiseIf_eq_ok, exists_const]
  exact ⟨hindex, hstart, hcount, hrange⟩

/-- When an accepted trace has its counts in the domain, the expected chunks are the universe of its
counts. -/
theorem expectedExecutionChunks_eq_iff {envelope : ProofV3CommitmentEnvelope}
    (hcapability : profile.val.requireHardExecutionCapability = .ok ())
    (hdigest : profile.val.digest sha256 = .ok envelope.val.executionProfileDigest)
    (hstatic : envelope.val.staticManifestDigest = profile.val.staticManifestDigest) :
    (∃ expected, expectedExecutionChunks sha256 profile envelope = .ok expected ∧
        expected.map Subtype.val = coordinatesOf chunks) ↔
      Accepts (profile.val.relationSpec.val.validateExecutionCounts
          envelope.val.contextTokenCount envelope.val.decodeTokenCount) ∧
        universeCoordinates profile.val.relationSpec.val envelope.val.contextTokenCount
          envelope.val.decodeTokenCount = coordinatesOf chunks := by
  simp only [expectedExecutionChunks, bind_eq_ok, hcapability, hdigest, raiseIf_eq_ok, hstatic,
    exists_const, Except.ok.injEq, exists_eq_left', ne_eq, not_true_eq_false, not_false_eq_true,
    true_and, mapM_construct_eq_ok]
  constructor
  · rintro ⟨expected, ⟨count, hcount, hexpected⟩, hcoordinates⟩
    exact ⟨⟨count, hcount⟩, hexpected.symm.trans hcoordinates⟩
  · rintro ⟨⟨count, hcount⟩, huniverse⟩
    refine ⟨chunks.map fun chunk => ⟨chunk.val.toChunkCoordinates, coordinates_postInit chunk⟩,
      ⟨count, hcount, ?_⟩, ?_⟩
    · rw [huniverse, List.map_map]
      rfl
    · rw [List.map_map]
      rfl

theorem phase_of_consecutive {phase : ChunkPhase} {chunkIndex start : ℕ} {sizes : List ℕ}
    (h : coordinatesOf chunks = consecutive phase chunkIndex start sizes) (hchunk : chunk ∈ chunks) :
    chunk.val.phase = phase := by
  have hmem : chunk.val.toChunkCoordinates ∈ coordinatesOf chunks :=
    List.mem_map_of_mem hchunk
  rw [h] at hmem
  exact phase_of_mem_consecutive hmem

theorem forall_dropLast_sizesOf {size : ℕ} :
    (∀ n ∈ (sizesOf chunks).dropLast, n = size) ↔
      ∀ chunk ∈ chunks.dropLast, chunk.val.tokenCount = size := by
  rw [sizesOf, ← List.map_dropLast, List.forall_mem_map]

/-- The chunks are full, exactly when all sizes of each phase but the last are the signed one. -/
theorem fullChunks_iff (h : p.Covered profile anchor prefill decode) :
    (∀ phase, FullChunks profile (prefill ++ decode) phase) ↔
      (∀ n ∈ (sizesOf prefill).dropLast,
          n = profile.val.relationSpec.val.prefillChunkTokens) ∧
        ∀ n ∈ (sizesOf decode).dropLast, n = profile.val.relationSpec.val.decodeChunkTokens := by
  have hprefill : (prefill ++ decode).filter (fun chunk => chunk.val.phase = .prefill) = prefill := by
    rw [List.filter_append, List.filter_eq_self.mpr, List.filter_eq_nil_iff.mpr, List.append_nil]
    · intro chunk hchunk
      simp [phase_of_consecutive h.decodeChunks hchunk]
    · intro chunk hchunk
      simp [phase_of_consecutive h.prefillChunks hchunk]
  have hdecode : (prefill ++ decode).filter (fun chunk => chunk.val.phase = .decode) = decode := by
    rw [List.filter_append, List.filter_eq_nil_iff.mpr, List.filter_eq_self.mpr, List.nil_append]
    · intro chunk hchunk
      simp [phase_of_consecutive h.decodeChunks hchunk]
    · intro chunk hchunk
      simp [phase_of_consecutive h.prefillChunks hchunk]
  rw [forall_dropLast_sizesOf, forall_dropLast_sizesOf]
  constructor
  · intro hfull
    have hfullPrefill := hfull .prefill
    have hfullDecode := hfull .decode
    rw [FullChunks, hprefill] at hfullPrefill
    rw [FullChunks, hdecode] at hfullDecode
    exact ⟨hfullPrefill, hfullDecode⟩
  · rintro ⟨hfullPrefill, hfullDecode⟩ phase
    cases phase with
    | prefill =>
      rw [FullChunks, hprefill]
      exact hfullPrefill
    | decode =>
      rw [FullChunks, hdecode]
      exact hfullDecode

theorem sizesOf_pos {n : ℕ} (h : n ∈ sizesOf chunks) : 0 < n := by
  obtain ⟨chunk, -, rfl⟩ := List.mem_map.mp h
  have hchunk := chunk.property
  simp only [ChunkFields.postInit, u32, positiveU32, bind_eq_ok, raiseIf_eq_ok,
    exists_const] at hchunk
  omega

theorem universeCoordinates_eq_iff (h : p.Covered profile anchor prefill decode) :
    universeCoordinates profile.val.relationSpec.val (sizesOf prefill).sum (sizesOf decode).sum =
        coordinatesOf (prefill ++ decode) ↔
      ∀ phase, FullChunks profile (prefill ++ decode) phase := by
  have hrelation := profile.val.relationSpec.property
  simp only [RelationFields.postInit, positiveU32, bind_eq_ok, raiseIf_eq_ok,
    exists_const] at hrelation
  have hprefill : 0 < profile.val.relationSpec.val.prefillChunkTokens := by omega
  have hdecode : 0 < profile.val.relationSpec.val.decodeChunkTokens := by omega
  rw [coordinatesOf_append, h.prefillChunks, h.decodeChunks, universeCoordinates,
    phaseChunks_eq hprefill, phaseChunks_eq hdecode, length_consecutive, ← length_sizesOf,
    consecutive_append_inj List.length, @eq_comm _ (blockSizes _ _),
    @eq_comm _ (blockSizes _ _), eq_blockSizes_iff hprefill, eq_blockSizes_iff hdecode,
    fullChunks_iff h]
  · exact fun n hn => ⟨sizesOf_pos hn, h.decodeSizes n hn⟩
  · exact fun n hn => ⟨sizesOf_pos hn, h.prefillSizes n hn⟩

theorem flatMap_tokens_covered (h : p.Covered profile anchor prefill decode) :
    ((prefill ++ decode).flatMap fun chunk =>
        List.range' chunk.val.logicalTokenStart chunk.val.tokenCount) =
      List.range ((sizesOf prefill).sum + (sizesOf decode).sum) := by
  have hmap : ((prefill ++ decode).flatMap fun chunk =>
      List.range' chunk.val.logicalTokenStart chunk.val.tokenCount) =
      (coordinatesOf (prefill ++ decode)).flatMap fun chunk =>
        List.range' chunk.logicalTokenStart chunk.tokenCount := by
    rw [coordinatesOf, List.flatMap_map]
  rw [hmap, coordinatesOf_append, h.prefillChunks, h.decodeChunks, List.flatMap_append,
    flatMap_tokens_consecutive, flatMap_tokens_consecutive, List.range_eq_range']
  simpa using List.range'_append_1 (s := 0) (m := (sizesOf prefill).sum)

theorem sealedCommitment_spec {decodeTokenCount : ℕ} {output : Option ExecutionOutputBinding}
    {observed : ExecutionOutputBinding} {commitment : ExecutionAccumulatorCommitment}
    (hcontext : s.precommitContext = some context)
    (hcheck : s.checkSealDecode decodeTokenCount output = .ok observed)
    (hcommitment : s.sealedCommitmentFor sha256 decodeTokenCount observed = .ok commitment) :
    decodeTokenCount ≤ s.maxVerifiedDecodeTokens ∧
      s.nextChunkTokenStart = s.contextTokenCount + decodeTokenCount ∧
      commitment.val.contextTokenCount = s.contextTokenCount ∧
      commitment.val.decodeTokenCount = decodeTokenCount ∧
      commitment.val.executionProfileDigest = context.val.executionProfileDigest ∧
      commitment.val.staticManifestDigest = context.val.staticManifestDigest := by
  simp only [Accumulator.checkSealDecode, bind_eq_ok, raiseIf_eq_ok, exists_const, not_not,
    not_lt] at hcheck
  obtain ⟨_, -, hlimit, _, -, -, hmode, hcovered, -⟩ := hcheck
  simp only [Accumulator.sealedCommitmentFor, bind_eq_ok, construct_eq_ok, hcontext, required,
    Except.ok.injEq] at hcommitment
  obtain ⟨_, -, _, -, _, -, _, rfl, _, -, _, -, _, -, hfields⟩ := hcommitment
  simp only [hmode, true_and, not_or, not_not] at hcovered
  rw [hfields]
  exact ⟨hlimit, hcovered.1, rfl, rfl, rfl, rfl⟩

theorem checkBegin_spec {cacheEpoch : ℕ} {digest : Digest}
    (h : Accumulator.checkBegin sha256 profile context cacheEpoch = .ok digest) :
    profile.val.requireHardExecutionCapability = .ok () ∧
      profile.val.digest sha256 = .ok context.val.executionProfileDigest ∧
      context.val.staticManifestDigest = profile.val.staticManifestDigest ∧
      context.val.contextTokenCount ≤ profile.val.maxVerifiedContextTokens := by
  simp only [Accumulator.checkBegin, bind_eq_ok, raiseIf_eq_ok, exists_const, not_not,
    not_lt] at h
  obtain ⟨_, hcapability, -, _, -, profileDigest, hdigest, hstatic, rfl, hlimit, -⟩ := h
  exact ⟨hcapability, hdigest, hstatic, hlimit⟩

/-- What a sealed trace has accepted, when `seal_decode` has returned a commitment: chunks whose
token ranges, in order, are the tokens of context and decode, and whose state roots are chained from
the anchor of the validator. They are the expected chunks exactly when every chunk but the last of
its phase has the signed size, and the counts are not below the signed domain. -/
theorem sealedTrace_covers_iff {sha256 : Bytes → Digest} {calls : List AccumulatorCall}
    {decodeTokenCount : ℕ} {output : Option ExecutionOutputBinding}
    {commitment : ExecutionAccumulatorCommitment} {s' : Accumulator}
    (h : Returns (Accumulator.sealDecode sha256 decodeTokenCount output) (afterCalls sha256 calls)
      commitment s') :
    ∃ profile context anchor, (afterCalls sha256 calls).profile = some profile ∧
      (afterCalls sha256 calls).precommitContext = some context ∧
      context.val.initialExecutionStateAnchor sha256 = .ok anchor ∧
      ((acceptedChunks sha256 calls).flatMap fun chunk =>
          List.range' chunk.val.logicalTokenStart chunk.val.tokenCount) =
        List.range (commitment.val.contextTokenCount + commitment.val.decodeTokenCount) ∧
      Chained anchor (acceptedChunks sha256 calls) ∧
      ((∃ expected, expectedExecutionChunks sha256 profile commitment = .ok expected ∧
          expected.map Subtype.val = coordinatesOf (acceptedChunks sha256 calls)) ↔
        (∀ phase, FullChunks profile (acceptedChunks sha256 calls) phase) ∧
          profile.val.relationSpec.val.MeetsMinima commitment.val.contextTokenCount
            commitment.val.decodeTokenCount) := by
  obtain ⟨hstate, output, hcheck, hcommitment, -⟩ := Accumulator.returns_sealDecode h
  have htraced : (afterCalls sha256 calls).progress.Traced sha256 (acceptedChunks sha256 calls) :=
    traced_afterCallsFrom Accumulator.consistent_new
      ⟨fun _ => ⟨rfl, rfl, rfl, rfl⟩, fun h => (nomatch h), fun h => (nomatch h)⟩
  obtain ⟨profile, context, anchor, horigin, prefill, decode, hchunks, hcovered, hprefill,
    hcontext⟩ := htraced.2.2 hstate
  obtain ⟨cacheEpoch, digest, hbegun⟩ := horigin.begun
  obtain ⟨hcapability, hdigest, hstatic, hcontextLimit⟩ := checkBegin_spec hbegun
  obtain ⟨hdecodeLimit, hstart, hcontextCount, hdecodeCount, hprofileDigest, hstaticDigest⟩ :=
    sealedCommitment_spec horigin.context_eq hcheck hcommitment
  -- the sizes of the two phases are the counts of the commitment
  change _ = (afterCalls sha256 calls).contextTokenCount at hprefill
  change (afterCalls sha256 calls).contextTokenCount = _ at hcontext
  have hsums := hcovered.start
  change (afterCalls sha256 calls).nextChunkTokenStart = _ at hsums
  have hprefillSum : (sizesOf prefill).sum = commitment.val.contextTokenCount :=
    hprefill.trans hcontextCount.symm
  have hdecodeSum : (sizesOf decode).sum = commitment.val.decodeTokenCount := by omega
  have hmaxDecode := horigin.maxDecode
  change (afterCalls sha256 calls).maxVerifiedDecodeTokens = _ at hmaxDecode
  have hcontextPos : 0 < commitment.val.contextTokenCount := by
    have henvelope := commitment.property
    simp only [EnvelopeFields.postInit, positiveU32, bind_eq_ok, raiseIf_eq_ok,
      exists_const] at henvelope
    obtain ⟨_, -, _, -, hpos, -⟩ := henvelope
    omega
  refine ⟨profile, context, anchor, horigin.profile_eq, horigin.context_eq, horigin.anchored, ?_⟩
  rw [hchunks]
  refine ⟨?_, hcovered.chained, ?_⟩
  · rw [flatMap_tokens_covered hcovered, hprefillSum, hdecodeSum]
  · rw [expectedExecutionChunks_eq_iff hcapability (hprofileDigest ▸ hdigest)
      (hstaticDigest.trans hstatic), ← hprefillSum, ← hdecodeSum,
      universeCoordinates_eq_iff hcovered, hprefillSum, hdecodeSum,
      validateExecutionCounts_iff hcontextPos (by omega) (by omega), and_comm]

/-- An output without tokens. -/
def emptyOutput : ExecutionOutputBinding :=
  ⟨{ outputTokenRoot := constantDigest 2
     outputStreamDigest := constantDigest 3
     decodeTokenCount := 0 }, by decide⟩

/-- The calls of a small trace of full chunks, up to the seal of its prefill. -/
def fullCalls : List AccumulatorCall :=
  [smallBegin, .accumulateChunk (some firstChunk),
    .accumulateChunk (some ⟨smallChunk .prefill 1 4 4 none, by decide⟩),
    .accumulateChunk (some ⟨smallChunk .prefill 2 8 2 none, by decide⟩), .sealPrefill 10]

/-- The calls of a small trace whose first two chunks are one token short. -/
def shortCalls : List AccumulatorCall :=
  [smallBegin, .accumulateChunk (some ⟨smallChunk .prefill 0 0 3 none, by decide⟩),
    .accumulateChunk (some ⟨smallChunk .prefill 1 3 3 none, by decide⟩),
    .accumulateChunk (some ⟨smallChunk .prefill 2 6 4 none, by decide⟩), .sealPrefill 10]

/-- The small trace of full chunks is sealed. -/
theorem sealedTrace_covers_iff_full :
    ∃ commitment s', Returns (Accumulator.sealDecode constantHash 0 (some emptyOutput))
        (afterCalls constantHash fullCalls) commitment s' ∧
      ∃ profile context anchor, (afterCalls constantHash fullCalls).profile = some profile ∧
        (afterCalls constantHash fullCalls).precommitContext = some context ∧
        context.val.initialExecutionStateAnchor constantHash = .ok anchor ∧
        Chained anchor (acceptedChunks constantHash fullCalls) := by
  have hsucceeds : succeeds (Accumulator.sealDecode constantHash 0 (some emptyOutput))
      (afterCalls constantHash fullCalls) = true := by decide +kernel
  obtain ⟨commitment, s', h⟩ := succeeds_iff.mp hsucceeds
  obtain ⟨profile, context, anchor, hprofile, hcontext, hanchor, -, hchained, -⟩ :=
    sealedTrace_covers_iff h
  exact ⟨commitment, s', h, profile, context, anchor, hprofile, hcontext, hanchor, hchained⟩

/-- Ten tokens in chunks of three, three and four are sealed, and the verifier expects chunks of
four, four and two. -/
theorem sealedTrace_short_chunks :
    ∃ commitment s', Returns (Accumulator.sealDecode constantHash 0 (some emptyOutput))
        (afterCalls constantHash shortCalls) commitment s' ∧
      coordinatesOf (acceptedChunks constantHash shortCalls) =
        [⟨.prefill, 0, 0, 3⟩, ⟨.prefill, 1, 3, 3⟩, ⟨.prefill, 2, 6, 4⟩] ∧
      (expectedExecutionChunks constantHash smallFoldedProfile commitment).toOption.map
          (List.map Subtype.val) =
        some [⟨.prefill, 0, 0, 4⟩, ⟨.prefill, 1, 4, 4⟩, ⟨.prefill, 2, 8, 2⟩] := by
  have hexpected : (match Accumulator.sealDecode constantHash 0 (some emptyOutput)
        (afterCalls constantHash shortCalls) with
      | .ok commitment _ =>
        (expectedExecutionChunks constantHash smallFoldedProfile commitment).toOption.map
          (List.map Subtype.val)
      | .error _ _ => none) =
        some [⟨.prefill, 0, 0, 4⟩, ⟨.prefill, 1, 4, 4⟩, ⟨.prefill, 2, 8, 2⟩] := by
    decide +kernel
  split at hexpected
  · rename_i commitment s' hreturns
    exact ⟨commitment, s', hreturns, by decide +kernel, hexpected⟩
  · cases hexpected

end Verathos.ProofV3
