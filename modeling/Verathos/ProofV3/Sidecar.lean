import Verathos.Lib.Chains
import Verathos.Lib.StableSort
import Verathos.ProofV3.ChunkCoverage

/-!
# Sidecar capture sessions

A translation of the batch spans, the batch layouts, the request generations and
`NativeSidecarCaptureSessionV3` of `sidecar.py`.

* The capture ABI, the binder identity and the runtime observation appear as what a session uses of
  them: their digests, two limits and a rank. Their validation against each other, which only
  refuses sessions, is left out.
* An argument of a class is an `Option`, as for the accumulator. The life cycle has the states of
  the accumulator, without `new`.

SHA-256 is a parameter.
-/

namespace Verathos.ProofV3

open Method
open PrefixCache (Constructed construct construct_eq_ok packI nonzero32 u32 positiveU32)

/-- `MAX_SIDECAR_BATCH_SPANS_V3`. -/
def maxSidecarBatchSpans : ℕ := 65535

/-- `MAX_SIDECAR_PACKED_ROWS_V3`. -/
def maxSidecarPackedRows : ℕ := 2 ^ 24

/-- A domain of the sidecar, without its common start and end. -/
def sidecarDomain (name : String) : Bytes :=
  asciiBytes ("VERATHOS/PROOF_V3/NATIVE_SIDECAR/" ++ name ++ "/SHA256")

/-! ## Spans -/

/-- The fields of `NativeSidecarBatchSpanV3`. -/
structure BatchSpanFields where
  generationDigest : Digest
  phase : ChunkPhase
  logicalTokenStart : ℕ
  tokenCount : ℕ
  packedRowStart : ℕ
  packedRowCount : ℕ
  sequenceLengthBefore : ℕ
  sequenceLengthAfter : ℕ
  positionStart : ℕ
deriving DecidableEq

/-- The logical token after the span. -/
def BatchSpanFields.logicalEnd (span : BatchSpanFields) : ℕ :=
  span.logicalTokenStart + span.tokenCount

def BatchSpanFields.postInit (span : BatchSpanFields) : Result Unit := do
  nonzero32 span.generationDigest "batch span generation_digest"
  u32 span.logicalTokenStart "batch span logical_token_start"
  positiveU32 span.tokenCount "batch span token_count"
  u32 span.packedRowStart "batch span packed_row_start"
  positiveU32 span.packedRowCount "batch span packed_row_count"
  u32 span.sequenceLengthBefore "batch span sequence_length_before"
  positiveU32 span.sequenceLengthAfter "batch span sequence_length_after"
  u32 span.positionStart "batch span position_start"
  raiseIf (span.packedRowCount ≠ span.tokenCount)
    (.proofV3Error "batch span packed rows must exactly match token rows")
  raiseIf (span.packedRowStart + span.packedRowCount > 2 ^ 32)
    (.proofV3Error "batch span packed-row range overflows")
  raiseIf (span.logicalEnd > 2 ^ 32)
    (.proofV3Error "batch span logical-token range overflows")
  raiseIf (span.sequenceLengthBefore ≠ span.logicalTokenStart)
    (.proofV3Error "batch span sequence length does not match logical start")
  raiseIf (span.sequenceLengthAfter ≠ span.logicalEnd)
    (.proofV3Error "batch span sequence length does not match logical end")
  raiseIf (span.positionStart ≠ span.logicalTokenStart)
    (.proofV3Error "batch span position does not match the logical coordinate")

/-- `NativeSidecarBatchSpanV3`. -/
abbrev BatchSpan := Constructed BatchSpanFields.postInit

def BatchSpanFields.canonicalBytes (span : BatchSpanFields) : Bytes :=
  span.generationDigest.bytes ++ (span.phase.code :: (packI span.logicalTokenStart ++
    (packI span.tokenCount ++ (packI span.packedRowStart ++ (packI span.packedRowCount ++
      (packI span.sequenceLengthBefore ++ (packI span.sequenceLengthAfter ++
        packI span.positionStart)))))))

/-- What `NativeSidecarBatchSpanV3.digest` hashes. -/
def BatchSpanFields.message (span : BatchSpanFields) : Bytes :=
  sidecarDomain "SPAN" ++ span.canonicalBytes

/-! ## Layouts -/

/-- The fields of `NativeSidecarBatchLayoutV3`. -/
structure BatchLayoutFields where
  batchSequence : ℕ
  deviceRank : ℕ
  packedRowCount : ℕ
  spans : List BatchSpan
deriving DecidableEq

/-- The loop of `NativeSidecarBatchLayoutV3.__post_init__` over the spans. -/
def checkPackedRows (packedRows : ℕ) : ℕ → List BatchSpan → Result Unit
  | _, [] => .ok ()
  | previousEnd, span :: spans => do
    raiseIf (span.val.packedRowStart < previousEnd)
      (.proofV3Error "native sidecar batch spans overlap")
    let rowEnd := span.val.packedRowStart + span.val.packedRowCount
    raiseIf (rowEnd > packedRows)
      (.proofV3Error "native sidecar span exceeds the packed batch rows")
    checkPackedRows packedRows rowEnd spans

def BatchLayoutFields.postInit (layout : BatchLayoutFields) : Result Unit := do
  u64 layout.batchSequence "batch_sequence"
  u32 layout.deviceRank "batch device_rank"
  positiveU32 layout.packedRowCount "batch packed_row_count"
  raiseIf (layout.packedRowCount > maxSidecarPackedRows)
    (.proofV3Error "batch packed_row_count exceeds the protocol limit")
  raiseIf (layout.spans = [])
    (.proofV3Error "native sidecar batch requires canonical spans")
  raiseIf (layout.spans.length > maxSidecarBatchSpans)
    (.proofV3Error "native sidecar batch has too many spans")
  let keys := layout.spans.map fun span =>
    toLex (span.val.packedRowStart, span.val.generationDigest.bytes)
  raiseIf (keys ≠ StableSort.sortBy id keys)
    (.proofV3Error "native sidecar batch spans must be canonically ordered")
  raiseIf (¬ (layout.spans.map fun span => span.val.generationDigest).Nodup)
    (.proofV3Error "native sidecar batch cannot duplicate a request generation")
  checkPackedRows layout.packedRowCount 0 layout.spans

/-- `NativeSidecarBatchLayoutV3`. -/
abbrev BatchLayout := Constructed BatchLayoutFields.postInit

section Hashes

variable (sha256 : Bytes → Digest)

def BatchLayoutFields.canonicalBytes (layout : BatchLayoutFields) : Bytes :=
  LittleEndian.toBytes 8 layout.batchSequence ++ (packI layout.deviceRank ++
    (packI layout.packedRowCount ++ (LittleEndian.toBytes 2 layout.spans.length ++
      (layout.spans.map fun span => (sha256 span.val.message).bytes).flatten)))

/-- What `NativeSidecarBatchLayoutV3.digest` hashes. -/
def BatchLayoutFields.message (layout : BatchLayoutFields) : Bytes :=
  sidecarDomain "LAYOUT" ++ layout.canonicalBytes sha256

/-! ## Generations -/

/-- The fields of `NativeSidecarRequestGenerationV3`. -/
structure RequestGenerationFields where
  generationDigest : Digest
  precommitContextDigest : Digest
  executionProfileDigest : Digest
  cacheLeaseDigest : Digest
  captureAbiDigest : Digest
  binderIdentityDigest : Digest
  runtimeObservationDigest : Digest
  deviceRank : ℕ

def RequestGenerationFields.postInit (generation : RequestGenerationFields) : Result Unit := do
  nonzero32 generation.generationDigest "generation_digest"
  nonzero32 generation.precommitContextDigest "precommit_context_digest"
  nonzero32 generation.executionProfileDigest "execution_profile_digest"
  nonzero32 generation.cacheLeaseDigest "cache_lease_digest"
  nonzero32 generation.captureAbiDigest "capture_abi_digest"
  nonzero32 generation.binderIdentityDigest "binder_identity_digest"
  nonzero32 generation.runtimeObservationDigest "runtime_observation_digest"
  u32 generation.deviceRank "device_rank"

/-- `NativeSidecarRequestGenerationV3`. -/
abbrev RequestGeneration := Constructed RequestGenerationFields.postInit

/-- The arguments of a session. -/
structure SidecarArguments where
  profile : ExecutionSecurityProfile
  precommitContext : PreExecutionRequestContext
  captureAbiDigest : Digest
  maxBatchSpans : ℕ
  maxPackedRows : ℕ
  binderIdentityDigest : Digest
  runtimeObservationDigest : Digest
  deviceRank : ℕ
  deviceHandleDigest : Digest
  cacheEpoch : ℕ

/-- `NativeSidecarRequestGenerationV3.derive`. -/
def SidecarArguments.deriveGeneration (arguments : SidecarArguments) : Result RequestGeneration := do
  nonzero32 arguments.deviceHandleDigest "device_handle_digest"
  u32 arguments.deviceRank "device_rank"
  let context := arguments.precommitContext.val
  let precommitDigest ← context.digest sha256
  construct RequestGenerationFields.postInit {
    generationDigest := sha256 (sidecarDomain "GENERATION" ++
      [arguments.deviceHandleDigest, precommitDigest, context.executionProfileDigest,
        context.cacheLeaseDigest, arguments.captureAbiDigest, arguments.binderIdentityDigest,
        arguments.runtimeObservationDigest].flatMap Digest.bytes ++ packI arguments.deviceRank)
    precommitContextDigest := precommitDigest
    executionProfileDigest := context.executionProfileDigest
    cacheLeaseDigest := context.cacheLeaseDigest
    captureAbiDigest := arguments.captureAbiDigest
    binderIdentityDigest := arguments.binderIdentityDigest
    runtimeObservationDigest := arguments.runtimeObservationDigest
    deviceRank := arguments.deviceRank }

/-! ## Coverage -/

/-- What starts a coverage chain. -/
def coverageStartMessage (generation : RequestGenerationFields) (logicalTokenStart : ℕ) : Bytes :=
  sidecarDomain "SCHEDULER_COVERAGE/INIT" ++ (generation.generationDigest.bytes ++
    (generation.captureAbiDigest.bytes ++ (generation.binderIdentityDigest.bytes ++
      (generation.runtimeObservationDigest.bytes ++ packI logicalTokenStart))))

/-- What a coverage chain hashes for the digests of a layout and a span. -/
def coverageEventMessage (chain : Digest) (batch : Digest × Digest) : Bytes :=
  sidecarDomain "SCHEDULER_COVERAGE/EVENT" ++
    (chain.bytes ++ (batch.1.bytes ++ batch.2.bytes))

/-- What `_pending_scheduler_coverage_digest` hashes. -/
def coverageSealMessage (chain : Digest) (start logicalTokenEnd spanCount : ℕ) : Bytes :=
  sidecarDomain "SCHEDULER_COVERAGE/SEAL" ++
    (chain.bytes ++ (packI start ++ (packI logicalTokenEnd ++ packI spanCount)))

/-! ## The session -/

/-- What a session keeps of its arguments. -/
structure SidecarConfig where
  profile : ExecutionSecurityProfile
  precommitContext : PreExecutionRequestContext
  generation : RequestGeneration
  deviceRank : ℕ
  maxBatchSpans : ℕ
  maxPackedRows : ℕ

/-- The fields of `NativeSidecarCaptureSessionV3` that change, with the values that `__init__`
assigns. -/
structure SidecarSession where
  state : TraceState := .prefill
  capturedEnd : ℕ := 0
  flushedEnd : ℕ := 0
  lastBatchSequence : Option ℕ := none
  schedulerCoverageChain : Option Digest := none
  schedulerCoverageSpanCount : ℕ := 0
  schedulerCoverageStart : Option ℕ := none
  ledger : Accumulator

/-- `NativeSidecarCaptureSessionV3.__init__`. -/
def SidecarArguments.newSession (arguments : SidecarArguments) :
    Result (SidecarConfig × SidecarSession) := do
  let profileDigest ← arguments.profile.val.digest sha256
  raiseIf (arguments.precommitContext.val.executionProfileDigest ≠ profileDigest)
    (.proofV3Error "precommit context has an unexpected execution profile")
  raiseIf (arguments.precommitContext.val.staticManifestDigest ≠
      arguments.profile.val.staticManifestDigest)
    (.proofV3Error "precommit context has an unexpected static manifest")
  let generation ← arguments.deriveGeneration sha256
  let config : SidecarConfig :=
    { profile := arguments.profile
      precommitContext := arguments.precommitContext
      generation := generation
      deviceRank := arguments.deviceRank
      maxBatchSpans := arguments.maxBatchSpans
      maxPackedRows := arguments.maxPackedRows }
  match Accumulator.begin sha256 (some arguments.profile) (some arguments.precommitContext)
      arguments.cacheEpoch {} with
  | .ok _ ledger => return (config, { ledger := ledger })
  | .error error _ => throw error

/-- A method of a session. -/
abbrev SidecarMethod := EStateM PyError SidecarSession

namespace SidecarSession

/-- A call of a method of the ledger. -/
def onLedger {α : Type} (method : AccumulatorMethod α) : SidecarMethod α :=
  within ledger (fun s ledger => { s with ledger := ledger }) method

variable (config : SidecarConfig)

def spanFor (layout : BatchLayoutFields) (generation : RequestGenerationFields) :
    Result BatchSpan :=
  match layout.spans.filter fun span => span.val.generationDigest = generation.generationDigest with
  | [span] => .ok span
  | _ => .error (.proofV3Error "scheduler batch does not contain exactly one request span")

/-- The checks of `record_batch_layout` on a layout, which give the span of the request. -/
def checkLayout (s : SidecarSession) (layout : BatchLayoutFields) : Result BatchSpan := do
  raiseIf (layout.deviceRank ≠ config.deviceRank)
    (.proofV3Error "native sidecar batch belongs to another device rank")
  raiseIf (layout.spans.length > config.maxBatchSpans)
    (.proofV3Error "native sidecar batch exceeds its signed span limit")
  raiseIf (layout.packedRowCount > config.maxPackedRows)
    (.proofV3Error "native sidecar batch exceeds its signed row limit")
  raiseIf (s.lastBatchSequence.any fun last => layout.batchSequence ≤ last)
    (.proofV3Error "native sidecar batch sequence is stale or reordered")
  let span ← spanFor layout config.generation.val
  raiseIf (span.val.phase.state ≠ s.state)
    (.proofV3Error "native sidecar span phase does not match its lifecycle")
  raiseIf (span.val.logicalTokenStart ≠ s.capturedEnd)
    (.proofV3Error "native sidecar spans must cover logical tokens contiguously")
  let contextCount := config.precommitContext.val.contextTokenCount
  if s.state = .prefill then
    raiseIf (span.val.logicalEnd > contextCount)
      (.proofV3Error "native sidecar prefill span exceeds validator prompt")
  else
    raiseIf (span.val.logicalEnd > contextCount + config.profile.val.maxVerifiedDecodeTokens)
      (.proofV3Error "native sidecar decode span exceeds signed profile limit")
  return span

/-- The start of a coverage chain in `_append_scheduler_coverage`. -/
def startCoverage (span : BatchSpanFields) : SidecarMethod Unit := do
  let s ← get
  if s.schedulerCoverageChain = none then do
    check (span.logicalTokenStart ≠ s.flushedEnd)
      (.proofV3Error
        "native sidecar scheduler coverage does not begin at the flush boundary")
    modify fun s =>
      { s with
        schedulerCoverageStart := some span.logicalTokenStart
        schedulerCoverageChain :=
          some (sha256 (coverageStartMessage config.generation.val span.logicalTokenStart)) }
  else pure ()

def appendSchedulerCoverage (layout : BatchLayoutFields) (span : BatchSpanFields) :
    SidecarMethod Unit := do
  startCoverage sha256 config span
  let s ← get
  let chain ← call (required s.schedulerCoverageChain)
  modify fun s =>
    { s with
      schedulerCoverageChain := some (sha256 (coverageEventMessage chain
        (sha256 (layout.message sha256), sha256 span.message)))
      schedulerCoverageSpanCount := s.schedulerCoverageSpanCount + 1 }

def recordBatchLayout (layout : Option BatchLayout) : SidecarMethod Unit := do
  let s ← get
  check (s.state ∉ [.prefill, .decode])
    (.proofV3Error "native sidecar cannot record a batch after sealing")
  let layout ← call (instanceOf layout "native sidecar batch layout has an unexpected type")
  let span ← call (checkLayout config s layout.val)
  appendSchedulerCoverage sha256 config layout.val span.val
  modify fun s =>
    { s with
      capturedEnd := span.val.logicalEnd
      lastBatchSequence := some layout.val.batchSequence }

/-- `_pending_scheduler_coverage_digest`. -/
def pendingCoverageDigest (s : SidecarSession) (logicalTokenEnd : ℕ) : Result Digest :=
  match s.schedulerCoverageChain, s.schedulerCoverageStart with
  | some chain, some start => do
    raiseIf (s.schedulerCoverageSpanCount = 0)
      (.proofV3Error "native sidecar chunk has no scheduler coverage")
    return sha256 (coverageSealMessage chain start logicalTokenEnd s.schedulerCoverageSpanCount)
  | _, _ => .error (.proofV3Error "native sidecar chunk has no scheduler coverage")

def pendingSchedulerCoverageDigest (s : SidecarSession) : Result Digest := do
  raiseIf (s.capturedEnd = s.flushedEnd)
    (.proofV3Error "native sidecar has no pending scheduler coverage")
  s.pendingCoverageDigest sha256 s.capturedEnd

/-- The checks of `accept_chunk` on a chunk. -/
def checkReceipt (s : SidecarSession) (chunk : ChunkFields) : Result Unit := do
  raiseIf (chunk.phase.state ≠ s.state)
    (.proofV3Error "native sidecar chunk phase does not match its lifecycle")
  raiseIf (chunk.cacheLeaseDigest ≠ config.generation.val.cacheLeaseDigest)
    (.proofV3Error "native sidecar chunk has an unexpected cache lease")
  raiseIf (chunk.logicalTokenStart ≠ s.flushedEnd)
    (.proofV3Error "native sidecar chunks must flush logical tokens contiguously")
  raiseIf (chunk.logicalEnd ≠ s.capturedEnd)
    (.proofV3Error "native sidecar chunk must exactly cover pending scheduler spans")
  raiseIf (chunk.sidecarGenerationDigest ≠ some config.generation.val.generationDigest)
    (.proofV3Error "native sidecar chunk has an unexpected request generation")
  let coverage ← s.pendingCoverageDigest sha256 chunk.logicalEnd
  raiseIf (chunk.schedulerCoverageDigest ≠ some coverage)
    (.proofV3Error "native sidecar chunk has an unexpected scheduler coverage digest")

def acceptChunk (chunk : Option ExecutionChunkCommitment) : SidecarMethod Unit := do
  let s ← get
  check (s.state ∉ [.prefill, .decode])
    (.proofV3Error "native sidecar cannot accept a chunk after sealing")
  let chunk ← call (instanceOf chunk "native sidecar chunk has an unexpected type")
  call (checkReceipt sha256 config s chunk.val)
  onLedger (Accumulator.accumulateChunk sha256 (some chunk))
  modify fun s =>
    { s with
      flushedEnd := chunk.val.logicalEnd
      schedulerCoverageChain := none
      schedulerCoverageSpanCount := 0
      schedulerCoverageStart := none }

def sealPrefill : SidecarMethod Digest := do
  let s ← get
  check (s.state ≠ .prefill) (.proofV3Error "native sidecar prefill is not active")
  let contextCount := config.precommitContext.val.contextTokenCount
  check (s.capturedEnd ≠ contextCount ∨ s.flushedEnd ≠ contextCount)
    (.proofV3Error "native sidecar prefill does not cover the validator prompt")
  let root ← onLedger (Accumulator.sealPrefill sha256 contextCount)
  modify fun s => { s with state := .decode }
  return root

def sealDecode (outputBinding : Option ExecutionOutputBinding) :
    SidecarMethod ExecutionAccumulatorCommitment := do
  let s ← get
  check (s.state ≠ .decode) (.proofV3Error "native sidecar decode is not active")
  let output ← call (instanceOf outputBinding "output binding has an unexpected type")
  let expectedEnd :=
    config.precommitContext.val.contextTokenCount + output.val.decodeTokenCount
  check (s.capturedEnd ≠ expectedEnd ∨ s.flushedEnd ≠ expectedEnd)
    (.proofV3Error "native sidecar decode does not cover the observed output")
  let commitment ← onLedger
    (Accumulator.sealDecode sha256 output.val.decodeTokenCount (some output))
  modify fun s => { s with state := .sealed }
  return commitment

def freezePrecommit : SidecarMethod Unit := do
  let s ← get
  check (s.state ≠ .sealed) (.proofV3Error "native sidecar must seal before freezing")
  onLedger Accumulator.freezePrecommit
  modify fun s => { s with state := .frozen }

/-- The error of the ledger that `open_postnonce` replaces, a `ProofV3UnavailableError`. -/
def noOpenings : PyError :=
  .proofV3Error "root-only accumulator has no retained post-nonce witness openings"

def openPostnonce (ticket : Option PostCommitOpeningTicket) : SidecarMethod Bytes := do
  let s ← get
  check (s.state ≠ .frozen) (.proofV3Error "native sidecar must freeze before opening")
  tryCatch (onLedger (Accumulator.openPostnonce sha256 ticket)) fun error =>
    if error = noOpenings then
      throw (.proofV3Error "sidecar control ledger has no native retained witness openings")
    else throw error

def release : SidecarMethod Unit := do
  let s ← get
  if s.state = .released then pure ()
  else do
    onLedger Accumulator.release
    modify fun s => { s with state := .released }

end SidecarSession

/-- A call on a session. -/
inductive SidecarCall where
  | recordBatchLayout (layout : Option BatchLayout)
  | acceptChunk (chunk : Option ExecutionChunkCommitment)
  | sealPrefill
  | sealDecode (outputBinding : Option ExecutionOutputBinding)
  | freezePrecommit
  | openPostnonce (ticket : Option PostCommitOpeningTicket)
  | release

/-- The method that is called, without its value. -/
def SidecarCall.method (config : SidecarConfig) : SidecarCall → SidecarMethod Unit
  | .recordBatchLayout layout => SidecarSession.recordBatchLayout sha256 config layout
  | .acceptChunk chunk => SidecarSession.acceptChunk sha256 config chunk
  | .sealPrefill => do
    let _ ← SidecarSession.sealPrefill sha256 config
  | .sealDecode outputBinding => do
    let _ ← SidecarSession.sealDecode sha256 config outputBinding
  | .freezePrecommit => SidecarSession.freezePrecommit
  | .openPostnonce ticket => do
    let _ ← SidecarSession.openPostnonce sha256 ticket
  | .release => SidecarSession.release

end Hashes

end Verathos.ProofV3
