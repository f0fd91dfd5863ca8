import Verathos.Lib.OrderedDict
import Verathos.ProofV3.Session

/-!
# The root-only trace accumulator

A translation of `accumulator.py`: the receipts that a trace absorbs, and
`RootOnlyExecutionTraceAccumulatorV3` with its life cycle.

* An argument of a class is an `Option`: `none` stands for a value of another type. A number that is
  not an integer, or is negative, is refused where one that is too large is.
* Consecutive checks that write nothing are one function with a `Result`. What a method writes
  between its checks is a method of its own.
* The dictionaries under the keys of logical tables are functions, because nothing iterates over
  them.

SHA-256 is a parameter.
-/

namespace Verathos.ProofV3

open Method
open PrefixCache (Constructed construct construct_eq_ok packI nonzero32 u32 positiveU32)

def maxRootOnlyExecutionRecords : ℕ := 2 ^ 24

/-- The class of an argument: `if not isinstance(value, …): raise ProofV3Error(message)`. -/
def instanceOf {α : Type} (value : Option α) (message : String) : Result α :=
  match value with
  | some value => .ok value
  | none => .error (.proofV3Error message)

@[simp]
theorem instanceOf_eq_ok {α : Type} {value : Option α} {message : String} {a : α} :
    instanceOf value message = .ok a ↔ value = some a := by
  cases value <;> simp [instanceOf]

/-- `_hash`, with the domain after its common start. -/
def traceHash (sha256 : Bytes → Digest) (domain : String) (parts : List Bytes) : Digest :=
  sha256 (asciiBytes ("VERATHOS/PROOF_V3/ROOT_ONLY/" ++ domain ++ "/SHA256") ++ parts.flatten)

/-! ## Pages of logical caches -/

/-- `_CACHE_KIND_CODES`. -/
inductive CacheKind where
  | key
  | value
  | state
deriving DecidableEq

/-- `_CACHE_KIND_CODES[cache_kind]`. -/
def CacheKind.code : CacheKind → UInt8
  | .key => 1
  | .value => 2
  | .state => 3

/-- `_CACHE_ACCESS_CODES`. -/
inductive CacheAccess where
  | write
  | read
  | snapshot
deriving DecidableEq

/-- `_CACHE_ACCESS_CODES[access_kind]`. -/
def CacheAccess.code : CacheAccess → UInt8
  | .write => 1
  | .read => 2
  | .snapshot => 3

/-- The fields of `LogicalKVPageAddressV3`. -/
structure PageAddressFields where
  layerIndex : ℕ
  cacheLeaseDigest : Digest
  cacheTableId : Identifier
  cacheKind : CacheKind
  accessKind : CacheAccess
  pageStart : ℕ
  pageTokenCount : ℕ
  sequenceLength : ℕ
  cacheVersion : ℕ
  headIndex : ℕ
  channelStart : ℕ
  channelCount : ℕ

def PageAddressFields.postInit (address : PageAddressFields) : Result Unit := do
  u32 address.layerIndex "layer_index"
  nonzero32 address.cacheLeaseDigest "cache_lease_digest"
  u32 address.pageStart "page_start"
  positiveU32 address.pageTokenCount "page_token_count"
  positiveU32 address.sequenceLength "sequence_length"
  u64 address.cacheVersion "cache_version"
  u32 address.headIndex "head_index"
  u32 address.channelStart "channel_start"
  positiveU32 address.channelCount "channel_count"
  raiseIf (address.pageStart + address.pageTokenCount > 2 ^ 32)
    (.proofV3Error "logical cache page token range overflows")
  raiseIf (address.pageStart + address.pageTokenCount > address.sequenceLength)
    (.proofV3Error "logical cache page exceeds its sequence length")
  raiseIf (address.channelStart + address.channelCount > 2 ^ 32)
    (.proofV3Error "logical cache page channel range overflows")

/-- `LogicalKVPageAddressV3`. -/
abbrev LogicalKVPageAddress := Constructed PageAddressFields.postInit

def PageAddressFields.canonicalBytes (address : PageAddressFields) : Bytes :=
  address.cacheLeaseDigest.bytes ++ address.cacheTableId.encode ++
    [address.cacheKind.code, address.accessKind.code] ++ packI address.layerIndex ++
    packI address.pageStart ++ packI address.pageTokenCount ++ packI address.sequenceLength ++
    packI address.headIndex ++ packI address.channelStart ++ packI address.channelCount ++
    LittleEndian.toBytes 8 address.cacheVersion

/-- A logical table, `(layer_index, table_id)`. -/
abbrev TableKey : Type := ℕ × Identifier

/-- `version_key`. -/
def PageAddressFields.tableKey (address : PageAddressFields) : TableKey :=
  (address.layerIndex, address.cacheTableId)

/-- The entries that the loop of `begin` stores for a cache family. -/
def LayerCacheRelation.tableBindings (family : LayerCacheRelation) :
    List (Identifier × ℕ × CacheKind) :=
  match family.tables with
  | .attentionKv keyTensorId valueTensorId =>
    [(keyTensorId, family.layerIndex, .key), (valueTensorId, family.layerIndex, .value)]
  | .gdnState first rest => (first :: rest).map fun tableId => (tableId, family.layerIndex, .state)

/-- `bindings`, as `begin` fills it. -/
def CacheRelationFields.tableBindings (cache : CacheRelationFields) :
    OrderedDict Identifier (ℕ × CacheKind) :=
  OrderedDict.ofList (cache.layerCaches.flatMap LayerCacheRelation.tableBindings)

/-! ## Chunks -/

/-- `_CHUNK_PHASE_CODES`, which is `_PHASE_CODES` of `challenge.py`. -/
inductive ChunkPhase where
  | prefill
  | decode
deriving DecidableEq

/-- `_CHUNK_PHASE_CODES[phase]`. -/
def ChunkPhase.code : ChunkPhase → UInt8
  | .prefill => 1
  | .decode => 2

/-- The coordinates of a chunk of execution. -/
structure ChunkCoordinates where
  phase : ChunkPhase
  chunkIndex : ℕ
  logicalTokenStart : ℕ
  tokenCount : ℕ
deriving DecidableEq

/-- The logical token after the chunk. -/
def ChunkCoordinates.logicalEnd (chunk : ChunkCoordinates) : ℕ :=
  chunk.logicalTokenStart + chunk.tokenCount

/-- The fields of `ExecutionChunkCommitmentV3`. -/
structure ChunkFields extends ChunkCoordinates where
  cacheLeaseDigest : Digest
  entryStateRoot : Digest
  exitStateRoot : Digest
  linearTableRoot : Digest
  bridgeTableRoot : Digest
  transitionTableRoot : Digest
  cacheTableRoot : Digest
  sidecarGenerationDigest : Option Digest := none
  schedulerCoverageDigest : Option Digest := none
deriving DecidableEq

/-- The roots of a chunk with their names. -/
def ChunkFields.namedRoots (chunk : ChunkFields) : List (Digest × String) :=
  [(chunk.entryStateRoot, "execution chunk entry_state_root"),
    (chunk.exitStateRoot, "execution chunk exit_state_root"),
    (chunk.linearTableRoot, "execution chunk linear_table_root"),
    (chunk.bridgeTableRoot, "execution chunk bridge_table_root"),
    (chunk.transitionTableRoot, "execution chunk transition_table_root"),
    (chunk.cacheTableRoot, "execution chunk cache_table_root")]

def ChunkFields.postInit (chunk : ChunkFields) : Result Unit := do
  u32 chunk.chunkIndex "execution chunk_index"
  u32 chunk.logicalTokenStart "execution chunk logical_token_start"
  positiveU32 chunk.tokenCount "execution chunk token_count"
  raiseIf (chunk.logicalTokenStart + chunk.tokenCount > 2 ^ 32)
    (.proofV3Error "execution chunk logical token range overflows")
  nonzero32 chunk.cacheLeaseDigest "execution chunk cache_lease_digest"
  chunk.namedRoots.forM fun root => nonzero32 root.1 root.2
  raiseIf (chunk.sidecarGenerationDigest.isNone ≠ chunk.schedulerCoverageDigest.isNone)
    (.proofV3Error
      "execution chunk must include both generation and scheduler coverage digests")
  chunk.sidecarGenerationDigest.forM fun digest =>
    nonzero32 digest "execution chunk sidecar_generation_digest"
  chunk.schedulerCoverageDigest.forM fun digest =>
    nonzero32 digest "execution chunk scheduler_coverage_digest"

/-- `ExecutionChunkCommitmentV3`. -/
abbrev ExecutionChunkCommitment := Constructed ChunkFields.postInit

def ChunkFields.hasSidecarSchedulerBinding (chunk : ChunkFields) : Bool :=
  chunk.sidecarGenerationDigest.isSome

/-- `sidecar_binding` of `ExecutionChunkCommitmentV3.canonical_bytes`. -/
def ChunkFields.sidecarBinding (chunk : ChunkFields) : Bytes :=
  match chunk.sidecarGenerationDigest, chunk.schedulerCoverageDigest with
  | some generation, some coverage => 1 :: generation.bytes ++ coverage.bytes
  | _, _ => [0]

def ChunkFields.canonicalBytes (chunk : ChunkFields) : Bytes :=
  chunk.phase.code :: packI chunk.chunkIndex ++ packI chunk.logicalTokenStart ++
    packI chunk.tokenCount ++ chunk.cacheLeaseDigest.bytes ++ chunk.entryStateRoot.bytes ++
    chunk.exitStateRoot.bytes ++ chunk.linearTableRoot.bytes ++ chunk.bridgeTableRoot.bytes ++
    chunk.transitionTableRoot.bytes ++ chunk.cacheTableRoot.bytes ++ chunk.sidecarBinding

def ChunkFields.digest (sha256 : Bytes → Digest) (chunk : ChunkFields) : Digest :=
  traceHash sha256 "CHUNK" [chunk.canonicalBytes]

/-! ## Commitments and tickets -/

/-- `ExecutionAccumulatorCommitmentV3`. It has the fields of an envelope, and its constructor is the
one of the envelope. -/
abbrev ExecutionAccumulatorCommitment := Constructed EnvelopeFields.postInit

/-- `ExecutionAccumulatorCommitmentV3.bind`. -/
def bindCommitment (sha256 : Bytes → Digest) (commitment : ExecutionAccumulatorCommitment)
    (profile : ExecutionSecurityProfile) : Result ProofV3CommitmentEnvelope := do
  raiseIf (profile.val.staticManifestDigest ≠ commitment.val.staticManifestDigest)
    (.proofV3Error "sealed accumulator has an unexpected static manifest")
  let profileDigest ← profile.val.digest sha256
  raiseIf (profileDigest ≠ commitment.val.executionProfileDigest)
    (.proofV3Error "sealed accumulator has an unexpected execution profile")
  return commitment

/-- The fields of `PostCommitOpeningTicketV3`. -/
structure OpeningTicketFields where
  proofChallengeId : Digest
  precommitContextDigest : Digest
  executionProfileDigest : Digest
  cacheLeaseDigest : Digest
  commitmentEnvelopeDigest : Digest
  validatorNonce : Digest

def OpeningTicketFields.postInit (ticket : OpeningTicketFields) : Result Unit := do
  nonzero32 ticket.cacheLeaseDigest "cache_lease_digest"
  nonzero32 ticket.validatorNonce "validator_nonce"

/-- `PostCommitOpeningTicketV3`. -/
abbrev PostCommitOpeningTicket := Constructed OpeningTicketFields.postInit

/-! ## The accumulator -/

/-- `_state`. -/
inductive TraceState where
  | new
  | prefill
  | decode
  | sealed
  | frozen
  | released
deriving DecidableEq

/-- The text of a state. -/
def TraceState.text : TraceState → String
  | .new => "new"
  | .prefill => "prefill"
  | .decode => "decode"
  | .sealed => "sealed"
  | .frozen => "frozen"
  | .released => "released"

/-- The state in which chunks of a phase are accepted. -/
def ChunkPhase.state : ChunkPhase → TraceState
  | .prefill => .prefill
  | .decode => .decode

inductive CaptureMode where
  | records
  | chunks
deriving DecidableEq

/-- The fields of `RootOnlyExecutionTraceAccumulatorV3`, with the values that `__init__` assigns. -/
structure Accumulator where
  state : TraceState := .new
  context : Option Digest := none
  prefillChain : Option Digest := none
  decodeChain : Option Digest := none
  prefillRoot : Option Digest := none
  sealedCommitment : Option ExecutionAccumulatorCommitment := none
  prefillRecordCount : ℕ := 0
  decodeRecordCount : ℕ := 0
  cacheEpoch : ℕ := 0
  contextTokenCount : ℕ := 0
  maxVerifiedContextTokens : ℕ := 0
  maxVerifiedDecodeTokens : ℕ := 0
  precommitContext : Option PreExecutionRequestContext := none
  prefillMaxLogicalTokenExclusive : ℕ := 0
  decodeMaxLogicalTokenExclusive : ℕ := 0
  cacheTableBindings : OrderedDict Identifier (ℕ × CacheKind) := .empty
  cachePageTokenCount : ℕ := 0
  cacheMaxTokens : ℕ := 0
  cacheLatestVersions : TableKey → Option ℕ := fun _ => none
  cacheFinalLengths : TableKey → Option ℕ := fun _ => none
  cacheWrittenTables : Finset TableKey := ∅
  cacheTableChains : TableKey → Option Digest := fun _ => none
  profile : Option ExecutionSecurityProfile := none
  captureMode : Option CaptureMode := none
  nextChunkIndex : ℕ := 0
  nextChunkTokenStart : ℕ := 0
  initialExecutionStateAnchor : Option Digest := none
  lastChunkExitStateRoot : Option Digest := none
  lastChunkCacheTableRoot : Option Digest := none
  chunkSidecarBindingMode : Option Bool := none
  chunkSidecarGenerationDigest : Option Digest := none

/-- A method of the accumulator. -/
abbrev AccumulatorMethod := EStateM PyError Accumulator

namespace Accumulator

def requireState (expected : List TraceState) : AccumulatorMethod Unit := do
  let s ← get
  check (s.state ∉ expected)
    (.proofV3Error ("root-only accumulator is in '" ++ s.state.text ++ "' state, expected " ++
      ", ".intercalate (expected.map TraceState.text)))

def requireCaptureMode (mode : CaptureMode) : AccumulatorMethod Unit :=
  fixField Accumulator.captureMode (fun s => { s with captureMode := some mode }) (some mode)
    (.proofV3Error "root-only accumulator cannot mix chunk receipts with per-record capture")

section Methods

variable (sha256 : Bytes → Digest)

def append (recordDigest : Digest) : AccumulatorMethod Unit := do
  let s ← get
  match s.state with
  | .prefill => do
    check (s.prefillRecordCount ≥ maxRootOnlyExecutionRecords)
      (.proofV3Error "prefill root-only record count is out of range")
    let chain ← call (required s.prefillChain)
    modify fun s =>
      { s with
        prefillChain :=
          some (traceHash sha256 "PREFILL_EVENT" [chain.bytes, recordDigest.bytes])
        prefillRecordCount := s.prefillRecordCount + 1 }
  | .decode => do
    check (s.decodeRecordCount ≥ maxRootOnlyExecutionRecords)
      (.proofV3Error "decode root-only record count is out of range")
    let chain ← call (required s.decodeChain)
    modify fun s =>
      { s with
        decodeChain :=
          some (traceHash sha256 "DECODE_EVENT" [chain.bytes, recordDigest.bytes])
        decodeRecordCount := s.decodeRecordCount + 1 }
  | _ => throw (.proofV3Error "execution records must be appended before sealing")

/-! ### `begin` -/

/-- The checks of `begin` on its three arguments, which give the context. -/
def checkBegin (profile : ExecutionSecurityProfile)
    (precommitContext : PreExecutionRequestContext) (cacheEpoch : ℕ) : Result Digest := do
  profile.val.requireHardExecutionCapability
  raiseIf (profile.val.relationSpec.val.recursiveAccumulatorAbiId ≠ recursiveChunkAccumulatorAbi)
    (.proofV3Error "root-only accumulator has an unsupported chunk ABI")
  u64 cacheEpoch "cache_epoch"
  let profileDigest ← profile.val.digest sha256
  raiseIf (precommitContext.val.staticManifestDigest ≠ profile.val.staticManifestDigest)
    (.proofV3Error "precommit context has an unexpected static manifest")
  raiseIf (precommitContext.val.executionProfileDigest ≠ profileDigest)
    (.proofV3Error "precommit context has an unexpected execution profile")
  raiseIf (precommitContext.val.contextTokenCount > profile.val.maxVerifiedContextTokens)
    (.proofV3Error "context length exceeds signed profile limit")
  let precommitDigest ← precommitContext.val.digest sha256
  return traceHash sha256 "CONTEXT"
    [profileDigest.bytes, precommitDigest.bytes, LittleEndian.toBytes 8 cacheEpoch]

/-- The chains that `begin` starts, one for each table of the bindings. -/
def initialChains (context : Digest) (bindings : OrderedDict Identifier (ℕ × CacheKind))
    (key : TableKey) : Option Digest :=
  match bindings.get key.2 with
  | some (layerIndex, _) =>
    if layerIndex = key.1 then
      some (traceHash sha256 "CACHE_TABLE_INIT"
        [context.bytes, packI layerIndex, key.2.text])
    else none
  | none => none

def begin (profile : Option ExecutionSecurityProfile)
    (precommitContext : Option PreExecutionRequestContext) (cacheEpoch : ℕ) :
    AccumulatorMethod Unit := do
  requireState [.new]
  let profile ← call (instanceOf profile "profile has an unexpected type")
  let precommitContext ← call
    (instanceOf precommitContext "precommit context has an unexpected type")
  let context ← call (checkBegin sha256 profile precommitContext cacheEpoch)
  modify fun s =>
    { s with
      context := some context
      prefillChain := some (traceHash sha256 "PREFILL_INIT" [context.bytes])
      cacheEpoch := cacheEpoch
      maxVerifiedContextTokens := profile.val.maxVerifiedContextTokens
      maxVerifiedDecodeTokens := profile.val.maxVerifiedDecodeTokens
      precommitContext := some precommitContext }
  let anchor ← call (precommitContext.val.initialExecutionStateAnchor sha256)
  modify fun s => { s with initialExecutionStateAnchor := some anchor, profile := some profile }
  let cache := profile.val.relationSpec.val.cache.val
  check (cache.tableBindings.entries = [])
    (.proofV3Error "signed cache relation has no logical tables")
  modify fun s =>
    { s with
      cacheTableBindings := cache.tableBindings
      cachePageTokenCount := cache.pageTokenCount
      cacheMaxTokens := cache.maxCacheTokens
      cacheLatestVersions := fun _ => none
      cacheFinalLengths := fun _ => none
      cacheWrittenTables := ∅
      cacheTableChains := initialChains sha256 context cache.tableBindings
      state := .prefill }

/-! ### Records -/

/-- The check of the last logical token of a record against the limits of the profile. -/
def checkRange (s : Accumulator) (logicalEnd : ℕ) (what : String) : Result Unit :=
  if s.state = .prefill then
    raiseIf (logicalEnd > s.maxVerifiedContextTokens)
      (.proofV3Error ("prefill " ++ what ++ " exceeds signed profile limit"))
  else
    raiseIf (logicalEnd > s.maxVerifiedContextTokens + s.maxVerifiedDecodeTokens)
      (.proofV3Error ("decode " ++ what ++ " exceeds signed profile limit"))

/-- The last logical token of the phase so far. -/
def maxLogicalTokenExclusive (s : Accumulator) : ℕ :=
  if s.state = .prefill then s.prefillMaxLogicalTokenExclusive
  else s.decodeMaxLogicalTokenExclusive

/-- The assignment of the last logical token of the phase. -/
def setMaxLogicalTokenExclusive (s : Accumulator) (logicalEnd : ℕ) : Accumulator :=
  { s with
    prefillMaxLogicalTokenExclusive :=
      if s.state = .prefill then logicalEnd else s.prefillMaxLogicalTokenExclusive
    decodeMaxLogicalTokenExclusive :=
      if s.state = .prefill then s.decodeMaxLogicalTokenExclusive else logicalEnd }

/-- The checks of `accumulate_stage` on its arguments, which give the parts of the record. -/
def stageRecord (s : Accumulator) (stageId : Bytes) (tokenIndex : ℕ) (stageRoot : Bytes) :
    Result (List Bytes) := do
  let stage ← identifier stageId "stage_id"
  u32 tokenIndex "token_index"
  let root ← fixedBytes32 stageRoot "stage_root"
  raiseIf (s.state = .decode ∧ tokenIndex < s.contextTokenCount)
    (.proofV3Error "decode stage index precedes the prompt boundary")
  s.checkRange (tokenIndex + 1) "stage index"
  return [packI tokenIndex, stage.encode, root.bytes]

def accumulateStage (stageId : Bytes) (tokenIndex : ℕ) (stageRoot : Bytes) :
    AccumulatorMethod Unit := do
  requireState [.prefill, .decode]
  requireCaptureMode .records
  let s ← get
  let record ← call (s.stageRecord stageId tokenIndex stageRoot)
  modify fun s =>
    s.setMaxLogicalTokenExclusive (max s.maxLogicalTokenExclusive (tokenIndex + 1))
  append sha256 (traceHash sha256 "STAGE" record)

/-- The checks of `accumulate_kv_pages` before it writes, which give the root. -/
def pageRoot (s : Accumulator) (address : PageAddressFields) (root : Bytes) : Result Digest := do
  let precommitContext ← required s.precommitContext
  raiseIf (address.cacheLeaseDigest ≠ precommitContext.val.cacheLeaseDigest)
    (.proofV3Error "logical K/V page has an unexpected cache lease")
  let expectedTable ← instanceOf (s.cacheTableBindings.get address.cacheTableId)
    "logical cache page has an undeclared cache table"
  raiseIf (expectedTable ≠ (address.layerIndex, address.cacheKind))
    (.proofV3Error "logical cache page does not match its signed table")
  raiseIf (address.pageTokenCount > s.cachePageTokenCount)
    (.proofV3Error "logical cache page exceeds the signed page size")
  raiseIf (address.pageStart % s.cachePageTokenCount ≠ 0)
    (.proofV3Error "logical cache page start is not canonically aligned")
  raiseIf (address.sequenceLength > s.cacheMaxTokens)
    (.proofV3Error "logical cache page exceeds the signed cache capacity")
  let root ← fixedBytes32 root "page_root"
  raiseIf ((s.cacheLatestVersions address.tableKey).any fun prior => address.cacheVersion < prior)
    (.proofV3Error "logical cache page version regresses")
  raiseIf (address.accessKind ≠ .write ∧ address.tableKey ∉ s.cacheWrittenTables)
    (.proofV3Error "logical cache read has no prior signed table write")
  return root

/-- The chain of a table after a page. -/
def tableEvent (chain : Digest) (address : PageAddressFields) (root : Digest) : Digest :=
  traceHash sha256 "CACHE_TABLE_EVENT" [chain.bytes, address.canonicalBytes, root.bytes]

/-- The version of a table after a page, and its length after a write. -/
def withPage (s : Accumulator) (address : PageAddressFields) : Accumulator :=
  let key := address.tableKey
  { s with
    cacheLatestVersions := Function.update s.cacheLatestVersions key
      (some (max address.cacheVersion ((s.cacheLatestVersions key).getD 0)))
    cacheWrittenTables :=
      if address.accessKind = .write then insert key s.cacheWrittenTables
      else s.cacheWrittenTables
    cacheFinalLengths :=
      if address.accessKind = .write then
        Function.update s.cacheFinalLengths key
          (some (max address.sequenceLength ((s.cacheFinalLengths key).getD 0)))
      else s.cacheFinalLengths }

/-- The assignment of the chain of a table. -/
def withTableEvent (s : Accumulator) (address : PageAddressFields) (chain root : Digest) :
    Accumulator :=
  { s with
    cacheTableChains := Function.update s.cacheTableChains address.tableKey
      (some (tableEvent sha256 chain address root)) }

/-- `self._cache_table_chains[version_key]`. -/
def tableChain (s : Accumulator) (key : TableKey) : Result Digest :=
  match s.cacheTableChains key with
  | some chain => .ok chain
  | none => .error (.builtin "KeyError")

def accumulateKvPages (address : Option LogicalKVPageAddress) (root : Bytes) :
    AccumulatorMethod Unit := do
  requireState [.prefill, .decode]
  requireCaptureMode .records
  let address ← call
    (instanceOf address "logical K/V page address has an unexpected type")
  let s ← get
  let root ← call (s.pageRoot address.val root)
  modify fun s => s.withPage address.val
  let chain ← call (s.tableChain address.val.tableKey)
  modify fun s => s.withTableEvent sha256 address.val chain root
  call (s.checkRange address.val.sequenceLength "K/V range")
  modify fun s =>
    s.setMaxLogicalTokenExclusive (max s.maxLogicalTokenExclusive address.val.sequenceLength)
  append sha256 (traceHash sha256 "CACHE_PAGE" [address.val.canonicalBytes, root.bytes])

/-! ### Chunks -/

/-- The check of `accumulate_chunk` that fixes whether chunks are bound to a sidecar. -/
def requireSidecarBindingMode (chunk : ChunkFields) : AccumulatorMethod Unit :=
  fixField Accumulator.chunkSidecarBindingMode
    (fun s => { s with chunkSidecarBindingMode := some chunk.hasSidecarSchedulerBinding })
    (some chunk.hasSidecarSchedulerBinding)
    (.proofV3Error "execution chunks cannot mix sidecar-bound and unbound receipts")

/-- The check of `accumulate_chunk` that fixes the generation of the sidecar of bound chunks. -/
def requireSidecarGeneration (chunk : ChunkFields) : AccumulatorMethod Unit :=
  if chunk.hasSidecarSchedulerBinding then
    fixField Accumulator.chunkSidecarGenerationDigest
      (fun s => { s with chunkSidecarGenerationDigest := chunk.sidecarGenerationDigest })
      chunk.sidecarGenerationDigest
      (.proofV3Error "execution chunks cannot mix sidecar request generations")
  else pure ()

/-- The signed size of a chunk of a phase. -/
def chunkLimit (relation : RelationFields) : ChunkPhase → ℕ
  | .prefill => relation.prefillChunkTokens
  | .decode => relation.decodeChunkTokens

/-- The checks of `accumulate_chunk` on the coordinates of a chunk. -/
def checkChunk (s : Accumulator) (chunk : ChunkFields) : Result Unit := do
  raiseIf (chunk.phase.state ≠ s.state)
    (.proofV3Error "execution chunk phase does not match the lifecycle")
  raiseIf (chunk.chunkIndex ≠ s.nextChunkIndex)
    (.proofV3Error "execution chunks must have contiguous indices")
  raiseIf (chunk.logicalTokenStart ≠ s.nextChunkTokenStart)
    (.proofV3Error "execution chunks must have contiguous token ranges")
  let precommitContext ← required s.precommitContext
  raiseIf (chunk.cacheLeaseDigest ≠ precommitContext.val.cacheLeaseDigest)
    (.proofV3Error "execution chunk has an unexpected cache lease")
  let profile ← required s.profile
  raiseIf (chunk.tokenCount > chunkLimit profile.val.relationSpec.val chunk.phase)
    (.proofV3Error "execution chunk exceeds the signed chunk limit")
  match chunk.phase with
  | .prefill =>
    raiseIf (chunk.logicalEnd > precommitContext.val.contextTokenCount)
      (.proofV3Error "prefill chunk exceeds the validator prompt boundary")
  | .decode => do
    raiseIf (chunk.logicalTokenStart < s.contextTokenCount)
      (.proofV3Error "decode chunk precedes the prompt boundary")
    raiseIf (chunk.logicalEnd > s.contextTokenCount + s.maxVerifiedDecodeTokens)
      (.proofV3Error "decode chunk exceeds the signed profile limit")

/-- The checks of `accumulate_chunk` on the state roots. -/
def checkEntryState (s : Accumulator) (chunk : ChunkFields) : Result Unit :=
  match s.lastChunkExitStateRoot with
  | none => do
    let anchor ← required s.initialExecutionStateAnchor
    raiseIf (chunk.entryStateRoot ≠ anchor)
      (.proofV3Error "first prefill chunk entry state is not anchored to validator context")
  | some exitStateRoot =>
    raiseIf (chunk.entryStateRoot ≠ exitStateRoot)
      (.proofV3Error "execution chunk state roots are discontinuous")

/-- `accumulate_chunk`, after its checks of the sidecar binding. -/
def absorbChunk (chunk : ChunkFields) : AccumulatorMethod Unit := do
  let s ← get
  call (s.checkChunk chunk)
  -- the phase of the chunk is the state
  modify fun s => s.setMaxLogicalTokenExclusive chunk.logicalEnd
  call (s.checkEntryState chunk)
  append sha256 (chunk.digest sha256)
  modify fun s =>
    { s with
      nextChunkIndex := s.nextChunkIndex + 1
      nextChunkTokenStart := chunk.logicalEnd
      lastChunkExitStateRoot := some chunk.exitStateRoot
      lastChunkCacheTableRoot := some chunk.cacheTableRoot }

def accumulateChunk (chunk : Option ExecutionChunkCommitment) : AccumulatorMethod Unit := do
  requireState [.prefill, .decode]
  requireCaptureMode .chunks
  let chunk ← call (instanceOf chunk "execution chunk has an unexpected type")
  requireSidecarBindingMode chunk.val
  requireSidecarGeneration chunk.val
  absorbChunk sha256 chunk.val

/-! ### Seals -/

/-- The error of a seal after a capture of single records, a `ProofV3UnavailableError`. -/
def coverageError : PyError :=
  .proofV3Error
    "per-record capture has no signed complete coverage rule; bounded chunks are required"

/-- The checks of `seal_prefill`, which give the root. -/
def sealedPrefillRoot (s : Accumulator) (contextTokenCount : ℕ) : Result (Digest × Digest) := do
  positiveU32 contextTokenCount "context_token_count"
  raiseIf (contextTokenCount > s.maxVerifiedContextTokens)
    (.proofV3Error "context length exceeds signed profile limit")
  let precommitContext ← required s.precommitContext
  raiseIf (contextTokenCount ≠ precommitContext.val.contextTokenCount)
    (.proofV3Error "context length differs from validator precommit context")
  raiseIf (s.captureMode ≠ some .chunks) coverageError
  raiseIf (s.captureMode = some .chunks ∧ (s.nextChunkTokenStart ≠ contextTokenCount ∨
      s.prefillMaxLogicalTokenExclusive ≠ contextTokenCount))
    (.proofV3Error "prefill chunks do not cover the validator prompt contiguously")
  raiseIf (s.prefillMaxLogicalTokenExclusive > contextTokenCount)
    (.proofV3Error "prefill record index exceeds declared context length")
  raiseIf (s.prefillRecordCount = 0)
    (.proofV3Error "prefill root cannot be sealed without records")
  let context ← required s.context
  let prefillChain ← required s.prefillChain
  return (context, traceHash sha256 "PREFILL_SEAL"
    [context.bytes, packI contextTokenCount, LittleEndian.toBytes 8 s.prefillRecordCount,
      prefillChain.bytes])

def sealPrefill (contextTokenCount : ℕ) : AccumulatorMethod Digest := do
  requireState [.prefill]
  let s ← get
  let (context, prefillRoot) ← call (s.sealedPrefillRoot sha256 contextTokenCount)
  modify fun s =>
    { s with
      prefillRoot := some prefillRoot
      contextTokenCount := contextTokenCount
      decodeMaxLogicalTokenExclusive :=
        if s.captureMode = some .chunks then contextTokenCount
        else s.decodeMaxLogicalTokenExclusive
      decodeChain := some (traceHash sha256 "DECODE_INIT" [context.bytes, prefillRoot.bytes])
      state := .decode }
  return prefillRoot

/-- The bytes of a table in `_seal_cache_table_root`. -/
def tableEntry (s : Accumulator) (tableId : Identifier) (layerIndex : ℕ) (cacheKind : CacheKind) :
    Result Bytes := do
  let key := (layerIndex, tableId)
  let chain ← s.tableChain key
  return tableId.encode ++ packI layerIndex ++ [cacheKind.code] ++
    packI ((s.cacheFinalLengths key).getD 0) ++
    LittleEndian.toBytes 8 ((s.cacheLatestVersions key).getD 0) ++
    [if key ∈ s.cacheWrittenTables then 1 else 0] ++ chain.bytes

def sealCacheTableRoot (s : Accumulator) : Result Digest := do
  let context ← required s.context
  if s.captureMode = some .chunks then
    let cacheTableRoot ← instanceOf s.lastChunkCacheTableRoot
      "chunk trace has no final cache-table root"
    return traceHash sha256 "CHUNK_CACHE_TABLES"
      [context.bytes, packI s.nextChunkIndex, cacheTableRoot.bytes]
  else
    let tables := s.cacheTableBindings.entries.mergeSort fun a b => a.1.text ≤ b.1.text
    let entries ← tables.mapM fun (tableId, layerIndex, cacheKind) =>
      s.tableEntry tableId layerIndex cacheKind
    return traceHash sha256 "CACHE_TABLES"
      [context.bytes, packI s.cacheTableBindings.entries.length, entries.flatten]

/-- The checks of `seal_decode`, which give the observed output. -/
def checkSealDecode (s : Accumulator) (decodeTokenCount : ℕ)
    (outputBinding : Option ExecutionOutputBinding) : Result ExecutionOutputBinding := do
  u32 decodeTokenCount "decode_token_count"
  raiseIf (decodeTokenCount > s.maxVerifiedDecodeTokens)
    (.proofV3Error "decode length exceeds signed profile limit")
  let outputBinding ← instanceOf outputBinding "output binding has an unexpected type"
  raiseIf (decodeTokenCount ≠ outputBinding.val.decodeTokenCount)
    (.proofV3Error "decode length differs from output token binding")
  raiseIf (s.captureMode ≠ some .chunks) coverageError
  let sequenceLength := s.contextTokenCount + decodeTokenCount
  raiseIf (s.captureMode = some .chunks ∧ (s.nextChunkTokenStart ≠ sequenceLength ∨
      s.decodeMaxLogicalTokenExclusive ≠ sequenceLength))
    (.proofV3Error "decode chunks do not cover the observed output contiguously")
  raiseIf (s.decodeMaxLogicalTokenExclusive > sequenceLength)
    (.proofV3Error "decode record index exceeds declared sequence length")
  if decodeTokenCount = 0 then
    raiseIf (s.decodeRecordCount ≠ 0 ∨ s.decodeMaxLogicalTokenExclusive > s.contextTokenCount)
      (.proofV3Error "empty decode output must not contain decode-stage records")
  else
    raiseIf (s.decodeRecordCount = 0)
      (.proofV3Error "decode root cannot be sealed without records")
  return outputBinding

/-- `execution_root` of `seal_decode`. -/
def executionRoot (s : Accumulator) (context prefillRoot decodeChain : Digest)
    (decodeTokenCount : ℕ) : Digest :=
  let decodeRoot := traceHash sha256 "DECODE_SEAL"
    [context.bytes, packI decodeTokenCount, LittleEndian.toBytes 8 s.decodeRecordCount,
      decodeChain.bytes]
  traceHash sha256 "EXECUTION"
    [context.bytes, prefillRoot.bytes, decodeRoot.bytes,
      LittleEndian.toBytes 8 s.prefillRecordCount, LittleEndian.toBytes 8 s.decodeRecordCount]

/-- The commitment that `seal_decode` builds. -/
def sealedCommitmentFor (s : Accumulator) (decodeTokenCount : ℕ)
    (outputBinding : ExecutionOutputBinding) : Result ExecutionAccumulatorCommitment := do
  let context ← required s.context
  let prefillRoot ← required s.prefillRoot
  let decodeChain ← required s.decodeChain
  let precommitContext ← required s.precommitContext
  let requestBinding ← bindOutput sha256 precommitContext outputBinding
  let cacheTableRoot ← s.sealCacheTableRoot sha256
  let precommitDigest ← precommitContext.val.digest sha256
  construct EnvelopeFields.postInit {
    staticManifestDigest := precommitContext.val.staticManifestDigest
    executionProfileDigest := precommitContext.val.executionProfileDigest
    precommitContextDigest := precommitDigest
    promptTokenRoot := precommitContext.val.promptTokenRoot
    samplerConfigDigest := precommitContext.val.samplerConfigDigest
    cacheLeaseDigest := precommitContext.val.cacheLeaseDigest
    requestDigest := requestBinding.requestDigest
    outputTokenRoot := outputBinding.val.outputTokenRoot
    outputStreamDigest := outputBinding.val.outputStreamDigest
    executionRoot := s.executionRoot sha256 context prefillRoot decodeChain decodeTokenCount
    prefillRoot := prefillRoot
    cacheTableRoot := cacheTableRoot
    contextTokenCount := s.contextTokenCount
    decodeTokenCount := decodeTokenCount
    cacheEpoch := s.cacheEpoch }

def sealDecode (decodeTokenCount : ℕ) (outputBinding : Option ExecutionOutputBinding) :
    AccumulatorMethod ExecutionAccumulatorCommitment := do
  requireState [.decode]
  let s ← get
  let outputBinding ← call (s.checkSealDecode decodeTokenCount outputBinding)
  let commitment ← call (s.sealedCommitmentFor sha256 decodeTokenCount outputBinding)
  modify fun s => { s with sealedCommitment := some commitment, state := .sealed }
  return commitment

/-! ### After the seals -/

def freezePrecommit : AccumulatorMethod Unit := do
  requireState [.sealed]
  modify fun s => { s with state := .frozen }

/-- The checks of `open_postnonce` on a ticket. -/
def checkTicket (s : Accumulator) (ticket : Option PostCommitOpeningTicket) : Result Unit := do
  let ticket ← instanceOf ticket "postcommit opening ticket has an unexpected type"
  let commitment ← required s.sealedCommitment
  let precommitContext ← required s.precommitContext
  raiseIf (ticket.val.proofChallengeId ≠ precommitContext.val.proofChallengeId)
    (.proofV3Error "postcommit opening ticket has an unexpected challenge")
  raiseIf (ticket.val.precommitContextDigest ≠ commitment.val.precommitContextDigest)
    (.proofV3Error "postcommit opening ticket has an unexpected precommit")
  raiseIf (ticket.val.executionProfileDigest ≠ commitment.val.executionProfileDigest)
    (.proofV3Error "postcommit opening ticket has an unexpected profile")
  raiseIf (ticket.val.cacheLeaseDigest ≠ commitment.val.cacheLeaseDigest)
    (.proofV3Error "postcommit opening ticket has an unexpected cache lease")
  let profile ← required s.profile
  let envelope ← bindCommitment sha256 commitment profile
  raiseIf (ticket.val.commitmentEnvelopeDigest ≠ envelope.val.digest sha256)
    (.proofV3Error "postcommit opening ticket has an unexpected envelope")

/-- `open_postnonce`, whose last error is a `ProofV3UnavailableError`. -/
def openPostnonce (ticket : Option PostCommitOpeningTicket) : AccumulatorMethod Bytes := do
  requireState [.frozen]
  let s ← get
  call (s.checkTicket sha256 ticket)
  throw (.proofV3Error "root-only accumulator has no retained post-nonce witness openings")

def release : AccumulatorMethod Unit :=
  modify fun s => if s.state = .released then s else { state := .released }

end Methods

end Accumulator

end Verathos.ProofV3
