import Mathlib.Data.List.Sort
import Mathlib.Data.Prod.Lex
import Mathlib.Data.String.Basic
import Verathos.Lib.Texts
import Verathos.Lib.StableSort
import Verathos.Receipts.Defs

/-!
# The canary scheduler

A translation of `CanaryScheduler` of `canary.py`: the plan of an epoch, the tests that become due,
and the tests that are placed again after a busy answer.

The loop of `plan_epoch` over the endpoints is `planEpoch`, and what it does for one endpoint is
`planMiner`. A `ValueError` carries its text.

SHA-256, lower case and the text that a prompt is composed of are parameters.
-/

namespace Verathos.CanarySchedule

open Receipts (utf8)
open StableSort (sortBy)

/-- `raise ValueError(message)`. -/
def valueError (message : String) : PyError := .builtin ("ValueError: " ++ message)

/-- `value.to_bytes(width, "big")`. -/
def toBytesBig (width value : ℕ) : Result Bytes := do
  raiseIf (256 ^ width ≤ value) (.builtin "OverflowError")
  return BigEndian.toBytes width value

/-! ## Records -/

/-- What the scheduler reads of a miner's endpoint. -/
structure Miner where
  address : String
  endpoint : String
  modelId : String
  modelIndex : ℕ
  maxContextLen : ℕ
  quant : String := ""
  teeEnabled : Bool := false
  proofProtocolVersions : List ℕ := []
deriving DecidableEq

inductive TestType where
  | small
  | fullContext
deriving DecidableEq

/-- `CanaryTest`, without the sampling constants that all tests share. -/
structure CanaryTest where
  minerAddress : String
  minerEndpoint : String
  modelId : String
  modelIndex : ℕ
  maxContextLen : ℕ
  targetBlock : ℤ
  testIndex : ℕ
  testType : TestType
  prompt : String
  maxNewTokens : ℤ
  verifyProof : Bool
  verifyTee : Bool := false
  proofProtocolVersions : List ℕ := []
  quant : String := ""
  obligationId : String := ""
  targetPromptTokens : ℤ := 0
  measuredPromptTokens : ℤ := 0
  minimumObservedOutputTokens : ℤ := 0
  promptSeed : Bytes := []
  repeatPrefixSeed : Bytes := []
  repeatPrefixTargetTokens : ℤ := 0
  attemptCount : ℕ := 0
  maxAttempts : ℤ := 0
  fullPairId : String := ""
deriving DecidableEq

structure CanaryScheduler where
  epochNumber : ℕ
  epochStartBlock : ℤ
  epochBlocks : ℕ
  validatorHotkey : String := ""
  validatorSeed : Bytes := []
  smallCount : ℕ := 2
  advertisedContextLightCount : ℕ := 0
  fullContextCount : ℕ := 1
  probationEntries : List (String × ℕ) := []
  lowContextMinTokens : ℤ := 512
  lowContextMaxTokens : ℤ := 2048
  lowContextMaxDecodeTokens : ℤ := 192
  fullContextDecodeReserveTokens : ℤ := 256
  fullContextMaxDecodeTokens : ℤ := 96
  fullContextMaxAttempts : ℤ := 4
  hardCandidateTargetPerEpoch : ℤ := 2
  hardCandidateBps : ℤ := 5000
  advertisedContextTargetBps : ℤ := 9000
  hardDecodeAnchorBps : ℤ := 2500
  hardDecodeTailBps : ℤ := 1000
  lateDecodeMinOutputBps : ℤ := 9000
  repeatPrefixTargetBps : ℤ := 5000
  repeatPrefixMinTokens : ℤ := 256
  hardAuditEnabled : Bool := false
  hardAuditDueEntries : List (String × ℕ) := []
  hardContextLimitsByModel : List (String × ℤ) := []
  hardDecodeLimitsByModel : List (String × ℤ) := []
  lowCompletionReserveBlocks : ℤ := 1
  fullCompletionReserveBlocks : ℤ := 1
  tests : List CanaryTest := []
  epochSalt : Bytes := []

/-- What a prompt is composed of: the seed, the budget of characters, whether the context is full, and
the minimum of output tokens. -/
abbrev PromptText := Bytes → ℤ → Bool → ℤ → String

section Hash

variable (sha256 : Bytes → Digest)

def derive (domain : Bytes) (parts : List Bytes) : Bytes :=
  (sha256 (domain ++ List.intercalate [0] parts)).bytes

def seedInt (seed : Bytes) (label : String) (modulus : ℤ) : ℤ :=
  if modulus ≤ 0 then 0
  else BigEndian.toNat ((derive sha256 (asciiBytes label) [seed]).take 8) % modulus

/-! ## Decode lengths -/

/-- The loop of `_log_uniform_decode_bands_v3` from a lower end, which at least doubles. -/
def bandsFrom (cap : ℤ) : ℕ → ℤ → List (ℤ × ℤ)
  | 0, _ => []
  | fuel + 1, lower =>
    if lower ≤ cap then
      let upper := min cap (2 * lower - 1)
      (lower, upper) :: bandsFrom cap fuel (upper + 1)
    else []

/-- A last band of one length is merged into the band before it. -/
def mergeSingleton (bands : List (ℤ × ℤ)) : List (ℤ × ℤ) :=
  match bands.reverse with
  | last :: previous :: rest =>
    if last.1 = last.2 then rest.reverse ++ [(previous.1, last.2)] else bands
  | _ => bands

/-- `_log_uniform_decode_bands_v3`. -/
def logUniformDecodeBands (maxDecodeTokens : ℤ) : Result (List (ℤ × ℤ)) := do
  raiseIf (maxDecodeTokens ≤ 0) (valueError "hard-decode cap must be positive")
  return mergeSingleton (bandsFrom maxDecodeTokens maxDecodeTokens.toNat 1)

/-- The categories of decode lengths. -/
inductive DecodeCategory where
  | common
  | anchor
  | tail
deriving DecidableEq

/-- `CANARY_HARD_DECODE_ANCHORS_V3`. -/
def canaryHardDecodeAnchors : List ℤ := [512, 1024, 2048, 4096, 8192]

/-- `_signed_full_decode_tokens_v3`. -/
def signedFullDecodeTokens (seed : Bytes) (category : DecodeCategory)
    (maxDecodeTokens commonMaxDecodeTokens : ℤ) : Result ℤ := do
  let cap := maxDecodeTokens
  raiseIf (cap ≤ 0) (valueError "hard-decode cap must be positive")
  match category with
  | .common =>
    let lower := min 64 cap
    let upper := min cap (max lower commonMaxDecodeTokens)
    return lower + seedInt sha256 seed "full_decode_common" (upper - lower + 1)
  | .anchor =>
    let anchors := (canaryHardDecodeAnchors.map fun value => min cap value).eraseDups
    getItem anchors (seedInt sha256 seed "full_decode_anchor" anchors.length).toNat
  | .tail =>
    let bands ← logUniformDecodeBands cap
    let (lower, upper) ←
      getItem bands (seedInt sha256 seed "full_decode_tail_band" bands.length).toNat
    return lower + seedInt sha256 seed "full_decode_tail_offset" (upper - lower + 1)

/-- `_independent_full_decode_category_v3`. -/
def independentFullDecodeCategory (seed : Bytes) (anchorBps tailBps : ℤ) :
    Result DecodeCategory := do
  raiseIf (anchorBps < 2500 ∨ tailBps < 1000 ∨ anchorBps + tailBps ≥ 10000)
    (valueError "independent hard-decode rates are invalid")
  let draw := seedInt sha256 seed "full_decode_category" 10000
  return if draw < anchorBps then .anchor
    else if draw < anchorBps + tailBps then .tail
    else .common

/-! ## Prompts -/

def renderSecretSeededPrompt (text : PromptText) (seed : Bytes) (characterBudget : ℤ)
    (fullContext : Bool) (minimumOutputTokens : ℤ := 0) : Result String := do
  raiseIf (seed.length ≠ 32) (valueError "canary prompt seed must be exactly 32 bytes")
  raiseIf (minimumOutputTokens < 0)
    (valueError "minimum_output_tokens must be a nonnegative integer")
  return text seed (max characterBudget 256) fullContext minimumOutputTokens

/-! ## Seeds of an epoch -/

variable (u : LowerCase) (s : CanaryScheduler) (miner : Miner)

/-- The parts of a seed that name the epoch, the validator and the endpoint. -/
def scheduleBasis : Result (List Bytes) := do
  let epochNumber ← toBytesBig 8 s.epochNumber
  let modelIndex ← toBytesBig 4 miner.modelIndex
  return [s.validatorSeed, s.epochSalt, epochNumber, utf8 s.validatorHotkey,
    utf8 (u.lower miner.address), utf8 miner.modelId, modelIndex, utf8 miner.endpoint]

def testSeed (testIndex : ℕ) : Result Bytes := do
  let basis ← scheduleBasis u s miner
  let index ← toBytesBig 4 testIndex
  return derive sha256 (asciiBytes "VERATHOS/CANARY/SECRET/V3") (basis ++ [index])

def obligationId (seed : Bytes) : String :=
  Hex.toText ((derive sha256 (asciiBytes "VERATHOS/CANARY/OBLIGATION/V3") [seed]).take 16)

def repeatPrefixSeed (group : String) : Result Bytes := do
  let basis ← scheduleBasis u s miner
  return derive sha256 (asciiBytes "VERATHOS/CANARY/REPEAT_PREFIX/V3")
    (basis ++ [asciiBytes group])

/-! ## Targets -/

def repeatPrefixTarget (minimumPromptTokens : ℤ) : ℤ :=
  min (max s.repeatPrefixMinTokens (minimumPromptTokens * s.repeatPrefixTargetBps / 10000))
    (max 1 (minimumPromptTokens / 2))

def safeContextTarget (contextLimit decodeReserveTokens : ℤ) : ℤ :=
  let limit := max 1 contextLimit
  min (max 1 (limit * s.advertisedContextTargetBps / 10000))
    (max 1 (limit - max s.fullContextDecodeReserveTokens decodeReserveTokens))

def latestDispatchBlock (completionReserveBlocks : ℤ) : Result ℤ := do
  raiseIf (completionReserveBlocks < 1)
    (valueError "canary completion reserve must be positive")
  raiseIf (completionReserveBlocks ≥ s.epochBlocks)
    (valueError "canary completion reserve does not fit inside the epoch")
  return s.epochStartBlock + s.epochBlocks - completionReserveBlocks

def targetBlock (testIndex : ℕ) (completionReserveBlocks : ℤ) : Result ℤ := do
  let epochNumber ← toBytesBig 8 s.epochNumber
  let modelIndex ← toBytesBig 4 miner.modelIndex
  let index ← toBytesBig 4 testIndex
  let seed := derive sha256 (asciiBytes "VERATHOS/CANARY/SCHEDULE/V3")
    [epochNumber, utf8 s.validatorHotkey, utf8 (u.lower miner.address), utf8 miner.modelId,
      modelIndex, utf8 miner.endpoint, index, s.epochSalt]
  let latest ← latestDispatchBlock s completionReserveBlocks
  let usable := latest - s.epochStartBlock + 1
  return s.epochStartBlock + BigEndian.toNat (seed.take 8) % usable

/-! ## The plan of an endpoint -/

variable (text : PromptText)

/-- One pass of the loop over `small_count`. -/
def lowTest (repeatSeed : Bytes) (repeatTarget : ℤ) (testIndex : ℕ) : Result CanaryTest := do
  let seed ← testSeed sha256 u s miner testIndex
  let target := s.lowContextMinTokens +
    seedInt sha256 seed "low_tokens" (s.lowContextMaxTokens - s.lowContextMinTokens + 1)
  let maxNew := max 32 (min s.lowContextMaxDecodeTokens (64 + seedInt sha256 seed "low_decode" 129))
  let prompt ← renderSecretSeededPrompt text seed (min 2000 (max 512 (target * 2))) false
  let block ← targetBlock sha256 u s miner testIndex s.lowCompletionReserveBlocks
  return {
    minerAddress := miner.address
    minerEndpoint := miner.endpoint
    modelId := miner.modelId
    modelIndex := miner.modelIndex
    maxContextLen := miner.maxContextLen
    targetBlock := block
    testIndex
    testType := .small
    prompt
    maxNewTokens := maxNew
    verifyProof := false
    verifyTee := miner.teeEnabled
    proofProtocolVersions := miner.proofProtocolVersions
    quant := miner.quant
    obligationId := obligationId sha256 seed
    targetPromptTokens := target
    promptSeed := seed
    repeatPrefixSeed := repeatSeed
    repeatPrefixTargetTokens := repeatTarget }

/-- A request of the advertised context: the one of the hard auditor, and one pass of the loop of the
compatibility planners. -/
def advertisedTest (repeatSeed : Bytes) (repeatTarget : ℤ) (testIndex : ℕ) :
    Result CanaryTest := do
  let seed ← testSeed sha256 u s miner testIndex
  let maxNew := s.fullContextMaxDecodeTokens
  let target := safeContextTarget s miner.maxContextLen maxNew
  let block ← targetBlock sha256 u s miner testIndex s.fullCompletionReserveBlocks
  let prompt ← renderSecretSeededPrompt text seed 2000 true
  return {
    minerAddress := miner.address
    minerEndpoint := miner.endpoint
    modelId := miner.modelId
    modelIndex := miner.modelIndex
    maxContextLen := miner.maxContextLen
    targetBlock := block
    testIndex
    testType := .fullContext
    prompt
    maxNewTokens := maxNew
    verifyProof := false
    verifyTee := miner.teeEnabled
    proofProtocolVersions := miner.proofProtocolVersions
    quant := miner.quant
    obligationId := obligationId sha256 seed
    targetPromptTokens := target
    promptSeed := seed
    repeatPrefixSeed := repeatSeed
    repeatPrefixTargetTokens := repeatTarget
    maxAttempts := s.fullContextMaxAttempts }

/-- The checks of the hard auditor's parameters. -/
def checkHardAudit : Result Unit := do
  raiseIf (s.advertisedContextLightCount ≠ 1 ∨ s.fullContextCount ≠ 0)
    (valueError ("hard auditor requires one advertised-context light " ++
      "plus its marked qualified-context schedule"))
  raiseIf (¬ (0 < s.lateDecodeMinOutputBps ∧ s.lateDecodeMinOutputBps ≤ 10000))
    (valueError "hard auditor late-decode output rate is invalid")
  raiseIf (¬ (0 < s.hardCandidateTargetPerEpoch ∧ s.hardCandidateTargetPerEpoch ≤ s.epochBlocks))
    (valueError "hard auditor candidate target is invalid")
  raiseIf (¬ (0 < s.hardCandidateBps ∧ s.hardCandidateBps < 10000))
    (valueError "hard auditor candidate hard rate must leave light decoys")

/-- The qualified context and the signed decode cap of a model, or those of an endpoint whose model
has no qualified release. -/
def qualifiedLimits : ℤ × ℤ :=
  let qualifiedContext := (s.hardContextLimitsByModel.lookup miner.modelId).getD 0
  let signedDecodeCap := (s.hardDecodeLimitsByModel.lookup miner.modelId).getD 0
  if qualifiedContext ≤ 1 ∨ signedDecodeCap ≤ 0 then
    let qualifiedContext := max 2 (miner.maxContextLen : ℤ)
    (qualifiedContext, max 1 (min s.lowContextMaxDecodeTokens (qualifiedContext - 1)))
  else (qualifiedContext, signedDecodeCap)

def contextLimit : ℤ := min (miner.maxContextLen : ℤ) (qualifiedLimits s miner).1

def decodeCap : ℤ := min (qualifiedLimits s miner).2 (contextLimit s miner - 1)

def hardAuditDue : Bool :=
  decide ((u.lower miner.address, miner.modelIndex) ∈ s.hardAuditDueEntries) ||
    decide ((u.lower miner.address, miner.modelIndex) ∈ s.probationEntries)

/-- The candidate at a block of the epoch, when its draw succeeds. -/
def candidateEvent (basis : List Bytes) (blockOffset : ℕ) : Result (Option (ℕ × Bytes)) := do
  let offset ← toBytesBig 8 blockOffset
  let eventSeed := derive sha256 (asciiBytes "VERATHOS/CANARY/MARKED_EVENT/V3") (basis ++ [offset])
  return if seedInt sha256 eventSeed "candidate_event" s.epochBlocks ≥ s.hardCandidateTargetPerEpoch
    then none
    else some (blockOffset, eventSeed)

/-- `candidate_events`, with a forced candidate when an audit is due and none was drawn. -/
def candidateEvents (basis : List Bytes) : Result (List (ℕ × Bytes)) := do
  let drawn ← (List.range s.epochBlocks).mapM (candidateEvent sha256 s basis)
  let events := drawn.filterMap id
  if hardAuditDue u s miner ∧ events = [] then
    let forcedSeed := derive sha256 (asciiBytes "VERATHOS/CANARY/MARKED_DROUGHT_EVENT/V3") basis
    return [((seedInt sha256 forcedSeed "forced_candidate_block" s.epochBlocks).toNat, forcedSeed)]
  return events

def forcedHardOffset (basis : List Bytes) (events : List (ℕ × Bytes)) : Result (Option ℕ) := do
  if hardAuditDue u s miner then
    let selector := derive sha256 (asciiBytes "VERATHOS/CANARY/MARKED_DROUGHT_SELECT/V3") basis
    let event ← getItem events
      (seedInt sha256 selector "forced_candidate_index" events.length).toNat
    return some event.1
  return none

/-- One pass of the loop over the sorted candidates. -/
def markedTest (repeatSeed : Bytes) (repeatTarget : ℤ) (forcedOffset : Option ℕ)
    (testIndex : ℕ) (event : ℕ × Bytes) : Result CanaryTest := do
  let seed := derive sha256 (asciiBytes "VERATHOS/CANARY/MARKED_PROMPT/V3") [event.2]
  let category ← independentFullDecodeCategory sha256 seed s.hardDecodeAnchorBps
    s.hardDecodeTailBps
  let maxNew ← signedFullDecodeTokens sha256 seed category (decodeCap s miner)
    s.lowContextMaxDecodeTokens
  let target := safeContextTarget s (contextLimit s miner) maxNew
  let minimumOutput :=
    if maxNew > s.lowContextMaxDecodeTokens then
      max 1 ((maxNew * s.lateDecodeMinOutputBps + 9999) / 10000)
    else 0
  let prompt ← renderSecretSeededPrompt text seed 2000 true minimumOutput
  return {
    minerAddress := miner.address
    minerEndpoint := miner.endpoint
    modelId := miner.modelId
    modelIndex := miner.modelIndex
    maxContextLen := miner.maxContextLen
    targetBlock := s.epochStartBlock + event.1
    testIndex
    testType := .fullContext
    prompt
    maxNewTokens := maxNew
    verifyProof := decide (some event.1 = forcedOffset) ||
      decide (seedInt sha256 event.2 "candidate_hard_mark" 10000 < s.hardCandidateBps)
    verifyTee := miner.teeEnabled
    proofProtocolVersions := miner.proofProtocolVersions
    quant := miner.quant
    obligationId := obligationId sha256 seed
    targetPromptTokens := target
    promptSeed := seed
    repeatPrefixSeed := repeatSeed
    repeatPrefixTargetTokens := repeatTarget
    minimumObservedOutputTokens := minimumOutput
    maxAttempts := s.fullContextMaxAttempts }

/-- The order of `sorted(candidate_events)`. -/
def eventLe (a b : ℕ × Bytes) : Prop := toLex a ≤ toLex b

instance : DecidableRel eventLe := fun a b => inferInstanceAs (Decidable (toLex a ≤ toLex b))

/-- The tests of the hard auditor: the light request of the advertised context and the marked
candidates. -/
def hardAuditTests (testIndex : ℕ) : Result (List CanaryTest) := do
  checkHardAudit s
  raiseIf (decodeCap s miner ≤ 0)
    (valueError "hard auditor model limits leave no prompt capacity")
  let repeatSeed ← repeatPrefixSeed sha256 u s miner "marked_full"
  let repeatTarget := repeatPrefixTarget s
    (safeContextTarget s (contextLimit s miner) (decodeCap s miner))
  let advertised ← advertisedTest sha256 u s miner text repeatSeed repeatTarget testIndex
  let basis ← scheduleBasis u s miner
  let events ← candidateEvents sha256 u s miner basis
  let forcedOffset ← forcedHardOffset sha256 u s miner basis events
  let marked ← ((events.insertionSort eventLe).zipIdx (testIndex + 1)).mapM fun (event, index) =>
    markedTest sha256 s miner text repeatSeed repeatTarget forcedOffset index event
  return advertised :: marked

/-- The fixed full-context requests of the compatibility and light-only planners. -/
def compatibilityTests (repeatSeed : Bytes) (repeatTarget : ℤ) : Result (List CanaryTest) :=
  (List.range' s.smallCount (s.advertisedContextLightCount + s.fullContextCount)).mapM
    (advertisedTest sha256 u s miner text repeatSeed repeatTarget)

/-- The full-context tests of both modes. -/
def fullTests (repeatSeed : Bytes) (repeatTarget : ℤ) : Result (List CanaryTest) :=
  if s.hardAuditEnabled then hardAuditTests sha256 u s miner text s.smallCount
  else compatibilityTests sha256 u s miner text repeatSeed repeatTarget

/-- The body of the loop of `plan_epoch`. -/
def planMiner : Result (List CanaryTest) := do
  let repeatSeed ← repeatPrefixSeed sha256 u s miner "low"
  let repeatTarget := repeatPrefixTarget s s.lowContextMinTokens
  raiseIf (s.hardAuditEnabled ∧ s.smallCount ≠ 0)
    (valueError ("hard auditor low/full candidates must use one marked " ++
      "schedule rather than a recognizable fixed low inventory"))
  let low ← (List.range s.smallCount).mapM
    (lowTest sha256 u s miner text repeatSeed repeatTarget)
  let full ← fullTests sha256 u s miner text repeatSeed repeatTarget
  return low ++ full

/-! ## The scheduler -/

/-- The order of the queue. -/
def queueKey (test : CanaryTest) : ℤ ×ₗ String := toLex (test.targetBlock, test.minerAddress)

/-- `plan_epoch`, which also gives the scheduler with its queue. -/
def planEpoch (miners : List Miner) : Result CanaryScheduler := do
  let planned ← miners.mapM fun miner => planMiner sha256 u s miner text
  return { s with tests := sortBy queueKey planned.flatten }

/-- `get_pending_tests`: the tests that are due, and the scheduler without them. -/
def getPendingTests (currentBlock : ℤ) : List CanaryTest × CanaryScheduler :=
  (s.tests.filter fun test => test.targetBlock ≤ currentBlock,
    { s with tests := s.tests.filter fun test => test.targetBlock > currentBlock })

/-- The completion reserve of a test, `reserve_blocks` of `reschedule`. -/
def CanaryScheduler.completionReserve : TestType → ℤ
  | .fullContext => s.fullCompletionReserveBlocks
  | .small => s.lowCompletionReserveBlocks

/-- `seed` of `reschedule`. -/
def retrySeed (test : CanaryTest) : Result Bytes := do
  let attempt ← toBytesBig 4 test.attemptCount
  return derive sha256 (asciiBytes "VERATHOS/CANARY/RESCHEDULE/V3")
    [s.epochSalt, utf8 (if test.fullPairId ≠ "" then test.fullPairId else test.obligationId),
      attempt]

/-- `reschedule`: the scheduler after it, when the test was placed again. -/
def reschedule (test : CanaryTest) (currentBlock : ℤ) : Result (Option CanaryScheduler) := do
  let lastBlock ← latestDispatchBlock s (s.completionReserve test.testType)
  let first := currentBlock + 1
  if first > lastBlock then return none
  let seed ← retrySeed sha256 s test
  let promptSeed := derive sha256 (asciiBytes "VERATHOS/CANARY/RETRY_PROMPT/V3")
    [test.promptSeed, seed]
  let prompt ← renderSecretSeededPrompt text promptSeed 2000 (test.testType = .fullContext)
    test.minimumObservedOutputTokens
  let placed := { test with
    promptSeed
    prompt
    measuredPromptTokens := 0
    targetBlock := first + BigEndian.toNat (seed.take 8) % (lastBlock - first + 1) }
  return some { s with tests := sortBy queueKey (s.tests ++ [placed]) }

end Hash

end Verathos.CanarySchedule
