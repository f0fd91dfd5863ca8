import Verathos.Basic
import Verathos.Lib.Median
import Verathos.Lib.OrderedDict

/-!
# The score of an epoch

A translation of `compute_epoch_entry_score` of `neurons/scoring.py` with what it calls, of
`compute_peer_medians`, and of the outcomes and receipts that they read. Floating-point numbers are
exact rationals, and the logarithm, the power 1.8 and the square root are parameters.

Log messages are left out, and so are the fields that only they read.
-/

namespace Verathos.Scoring

open Median

/-- The fields of a `ServiceReceipt` that a score reads. -/
structure ServiceReceipt where
  minerAddress : String
  modelId : String
  epochNumber : ℤ
  validatorHotkey : Bytes
  receiptVersion : ℤ
  isCanary : Bool
  canaryObligationId : Bytes
  canaryKind : String
  canaryTargetPromptTokens : ℤ
  proofRequested : Bool
  proofVerified : Bool
  promptTokens : ℤ
  tokensGenerated : ℤ
  ttftMs : ℚ
  tokensPerSec : ℚ
deriving DecidableEq

/-- `receipt.proof_requested and not receipt.proof_verified`. -/
def ServiceReceipt.proofFailed (receipt : ServiceReceipt) : Bool :=
  receipt.proofRequested && !receipt.proofVerified

/-- The fields of an `EpochOutcome` that a score reads. -/
structure EpochOutcome where
  ownReceipts : List ServiceReceipt
  expectedOwnReceiptCount : ℤ
  expectedCanaryObligations : OrderedDict Bytes (String × ℤ)
  allReceipts : List ServiceReceipt
  scoringReceipts : Option (List ServiceReceipt)
  proofTests : ℤ
  proofFailures : ℤ
  proofFailurePenaltyRequired : Bool
  neutralHardObligationIds : Finset Bytes
  teeTests : ℤ
  teeFailures : ℤ
  teeVerified : Bool
  maxContextLen : ℤ
  quant : String
  quantQualified : Bool

/-! ## Performance samples -/

def minPerformanceValidators : ℤ := 3

/-- `per_validator.setdefault(signer, []).append(value)`. -/
def appendSample (perValidator : OrderedDict Bytes (List ℚ)) (signer : Bytes) (value : ℚ) :
    OrderedDict Bytes (List ℚ) :=
  perValidator.set signer ((perValidator.get signer).getD [] ++ [value])

/-- The loop body of `_median_of_validator_medians`. -/
def collectSample (perf : ServiceReceipt → ℚ) (perValidator : OrderedDict Bytes (List ℚ))
    (receipt : ServiceReceipt) : OrderedDict Bytes (List ℚ) :=
  if receipt.proofFailed then perValidator
  else if perf receipt ≤ 0 then perValidator
  else if receipt.validatorHotkey.length ≠ 32 then perValidator
  else appendSample perValidator receipt.validatorHotkey (perf receipt)

/-- `_median_of_validator_medians`, of an attribute. -/
def medianOfValidatorMedians (receipts : List ServiceReceipt) (perf : ServiceReceipt → ℚ)
    (minValidators : ℤ) : ℚ :=
  let perValidator := receipts.foldl (collectSample perf) .empty
  if (perValidator.entries.length : ℤ) < max 1 minValidators then 0
  else median (perValidator.entries.map fun entry => median entry.2)

structure PeerMedians where
  medianTtftMs : ℚ
  medianTps : ℚ

/-- The samples of a signer: times to the first token, and speeds. -/
abbrev Samples := List ℚ × List ℚ

/-- The samples of a miner by signer. -/
abbrev MinerValidators := OrderedDict Bytes Samples

abbrev ModelMinerStats := OrderedDict String (OrderedDict String MinerValidators)

/-- The samples with those of a receipt. -/
def Samples.add (samples : Samples) (r : ServiceReceipt) : Samples :=
  (if r.ttftMs > 0 then samples.1 ++ [r.ttftMs] else samples.1,
    if r.tokensPerSec > 0 then samples.2 ++ [r.tokensPerSec] else samples.2)

/-- The loop body of `compute_peer_medians` that groups the receipts. -/
def collectStats (epochNumber : ℤ) (stats : ModelMinerStats) (r : ServiceReceipt) :
    ModelMinerStats :=
  if r.epochNumber ≠ epochNumber then stats
  else if r.proofFailed then stats
  else if r.validatorHotkey.length ≠ 32 then stats
  else
    let miners := (stats.get r.modelId).getD .empty
    let validators := (miners.get r.minerAddress).getD .empty
    let samples := (validators.get r.validatorHotkey).getD ([], [])
    stats.set r.modelId
      (miners.set r.minerAddress (validators.set r.validatorHotkey (samples.add r)))

/-- `_median(signer_medians) if len(signer_medians) >= MIN_PERFORMANCE_VALIDATORS else 0.0`, where
the signer medians are those of the nonempty samples. -/
def minerMedian (values : Samples → List ℚ) (validators : MinerValidators) : ℚ :=
  let signerMedians :=
    ((validators.entries.map fun entry => values entry.2).filter fun vals => !vals.isEmpty).map
      median
  if minPerformanceValidators ≤ signerMedians.length then median signerMedians else 0

/-- The positive miner medians of a model. -/
def minerMedians (values : Samples → List ℚ) (miners : OrderedDict String MinerValidators) :
    List ℚ :=
  (miners.entries.map fun entry => minerMedian values entry.2).filter fun med => 0 < med

def computePeerMedians (allReceipts : List ServiceReceipt) (epochNumber : ℤ) :
    OrderedDict String PeerMedians :=
  (allReceipts.foldl (collectStats epochNumber) .empty).mapValues fun miners =>
    { medianTtftMs := median (minerMedians Prod.fst miners)
      medianTps := median (minerMedians Prod.snd miners) }

/-! ## The integrity of the receipts -/

/-- `value or default` of an integer. -/
def intOr (value default : ℤ) : ℤ := if value = 0 then default else value

/-- `CANARY_PROMPT_MIN_TOKEN_TOLERANCE_V3`. -/
def canaryPromptMinTokenTolerance : ℤ := 64

/-- `canary_prompt_token_tolerance_v3`. The exception is a `ProofV3DocumentError`. -/
def canaryPromptTokenTolerance (targetTokens : ℤ) : Result ℤ := do
  raiseIf (targetTokens ≤ 0)
    (.proofV3Error "canary target prompt tokens must be a positive integer")
  return max canaryPromptMinTokenTolerance (targetTokens / 500)

/-- The state of the inventory loop: the receipts seen by obligation, and `invalid`. -/
structure Inventory where
  seen : OrderedDict Bytes ServiceReceipt
  invalid : Bool

/-- The receipt does not carry what its obligation expects. -/
def mismatched (receipt : ServiceReceipt) (expectedKind : String) (expectedTarget tolerance : ℤ) :
    Bool :=
  receipt.canaryKind ≠ expectedKind ||
    receipt.canaryTargetPromptTokens ≠ expectedTarget ||
    receipt.promptTokens ≤ 0 ||
    receipt.promptTokens > expectedTarget ||
    expectedTarget - receipt.promptTokens > tolerance

/-- The body of the inventory loop. -/
def checkReceipt (expected : OrderedDict Bytes (String × ℤ)) (neutral : Finset Bytes)
    (inventory : Inventory) (receipt : ServiceReceipt) : Result Inventory :=
  let obligationId := receipt.canaryObligationId
  if obligationId ∈ neutral then .ok inventory
  else if ¬ receipt.isCanary then .ok inventory
  else match expected.get obligationId with
    | none => .ok { inventory with invalid := true }
    | some (expectedKind, expectedTarget) =>
      if intOr receipt.receiptVersion 1 < 4 ∨ (inventory.seen.get obligationId).isSome then
        .ok { inventory with invalid := true }
      else do
        let tolerance ← canaryPromptTokenTolerance expectedTarget
        return if mismatched receipt expectedKind expectedTarget tolerance then
          { inventory with invalid := true }
        else { inventory with seen := inventory.seen.set obligationId receipt }

/-- `invalid or missing` after the loop over the own receipts. -/
def inventoryFails (expected : OrderedDict Bytes (String × ℤ)) (neutral : Finset Bytes)
    (ownReceipts : List ServiceReceipt) : Result Bool := do
  let inventory ← ownReceipts.foldlM (checkReceipt expected neutral) ⟨.empty, false⟩
  let missing := expected.entries.any fun item => (inventory.seen.get item.1).isNone
  return inventory.invalid || missing

/-- The outcome fails the check of its own receipts: the exact inventory, or the count of historical
callers without an inventory. -/
def receiptIntegrityFails (outcome : EpochOutcome) : Result Bool :=
  if outcome.expectedCanaryObligations.entries ≠ [] then
    inventoryFails outcome.expectedCanaryObligations outcome.neutralHardObligationIds
      outcome.ownReceipts
  else if outcome.expectedOwnReceiptCount > 0 then
    .ok (outcome.ownReceipts.length < outcome.expectedOwnReceiptCount)
  else .ok false

/-! ## The score -/

/-- The functions of floating-point numbers that have no rational values. -/
structure FloatMath where
  log2 : ℚ → ℚ
  pow18 : ℚ → ℚ
  sqrt : ℚ → ℚ
  pow : ℚ → ℚ → ℚ

/-- `QUANT_QUALITY.get(quant, 0.80)`. -/
def quantQuality (quant : String) : ℚ :=
  if quant = "bf16" ∨ quant = "fp16" then 1
  else if quant = "fp8" then 98 / 100
  else if quant = "int8" then 95 / 100
  else if quant = "int4" ∨ quant = "nf4" then 90 / 100
  else if quant = "nvfp4" then 92 / 100
  else 80 / 100

def computeModelBaseUtility (math : FloatMath) (activeParamsB : ℚ) (maxContextLen : ℤ)
    (quant : String) (moeDenseEquivalent generationQuality : ℚ) : ℚ :=
  let qualityParams := if moeDenseEquivalent > 0 then moeDenseEquivalent else activeParamsB
  let utility := math.pow18 (math.log2 (max qualityParams 1))
  let ctxValue := math.log2 (max (maxContextLen / 1024) 1)
  utility * ctxValue * quantQuality quant * generationQuality

def computeTtftFactor (math : FloatMath) (minerMedianTtftMs modelMedianTtftMs : ℚ) : ℚ :=
  if minerMedianTtftMs ≤ 0 ∨ modelMedianTtftMs ≤ 0 then 1
  else min (13 / 10) (math.sqrt (modelMedianTtftMs / minerMedianTtftMs))

def computeSpeedFactor (math : FloatMath) (minerMedianTps modelMedianTps : ℚ) : ℚ :=
  if minerMedianTps ≤ 0 ∨ modelMedianTps ≤ 0 then 1
  else min (13 / 10) (math.sqrt (minerMedianTps / modelMedianTps))

def idleBaselineWorkScore : ℚ := 9 / 100

def organicReferenceWeightedTokens : ℚ := 25000

def maxWorkFactorMultiplier : ℚ := 3

/-- The weighted tokens that an organic receipt adds, none for the receipts that are skipped. -/
def weightedTokens (r : ServiceReceipt) : ℤ :=
  if r.tokensGenerated ≤ 0 ∨ r.proofFailed ∨ r.isCanary then 0
  else
    let outputTokens := min (max 0 r.tokensGenerated) 4096
    let promptTokens := min (min (max 0 r.promptTokens) 4096) (8 * outputTokens)
    3 * outputTokens + promptTokens

def organicTokens (trafficReceipts : List ServiceReceipt) : ℤ :=
  trafficReceipts.foldl (fun organic r => organic + weightedTokens r) 0

/-- `throughput_score`, for a power. -/
def throughputScore (pow : ℚ → ℚ) (organicTokens : ℚ) : ℚ :=
  idleBaselineWorkScore *
    min maxWorkFactorMultiplier (1 + pow (organicTokens / organicReferenceWeightedTokens))

/-- The worse of the organic and the canary median, or the one that there is. -/
def worseMedian (worse : ℚ → ℚ → ℚ) (organicMedian canaryMedian : ℚ) : ℚ :=
  if organicMedian > 0 ∧ canaryMedian > 0 then worse organicMedian canaryMedian
  else if canaryMedian > 0 then canaryMedian
  else if organicMedian > 0 then organicMedian
  else 0

/-- The median of an attribute over both populations of an outcome. -/
def outcomeMedian (worse : ℚ → ℚ → ℚ) (perf : ServiceReceipt → ℚ)
    (receipts : List ServiceReceipt) : ℚ :=
  worseMedian worse
    (medianOfValidatorMedians (receipts.filter fun r => !r.isCanary) perf minPerformanceValidators)
    (medianOfValidatorMedians (receipts.filter fun r => r.isCanary) perf minPerformanceValidators)

/-- The arguments of `compute_epoch_entry_score` besides the outcome. -/
structure ScoreArguments where
  activeParamsB : ℚ
  moeDenseEquivalent : ℚ
  generationQuality : ℚ
  throughputPower : ℚ
  peerMedians : Option PeerMedians
  teeBonus : ℚ
  demandBonus : ℚ
  suppressHardFailures : Bool

/-- The score of an outcome that passed all checks. -/
def passedScore (math : FloatMath) (outcome : EpochOutcome) (args : ScoreArguments) : ℚ :=
  let trafficReceipts := outcome.scoringReceipts.getD outcome.allReceipts
  let medianTtft := outcomeMedian max ServiceReceipt.ttftMs outcome.allReceipts
  let baseUtility := computeModelBaseUtility math args.activeParamsB outcome.maxContextLen
    outcome.quant args.moeDenseEquivalent args.generationQuality
  let throughput := throughputScore (math.pow · args.throughputPower) (organicTokens trafficReceipts)
  let ttftFactor := match args.peerMedians with
    | some peers =>
      if medianTtft > 0 then computeTtftFactor math medianTtft peers.medianTtftMs else 1
    | none => 1
  let speedFactor := match args.peerMedians with
    | some peers =>
      let minerMedianTps := outcomeMedian min ServiceReceipt.tokensPerSec outcome.allReceipts
      if minerMedianTps > 0 then computeSpeedFactor math minerMedianTps peers.medianTps else 1
    | none => 1
  let teeMultiplier := if outcome.teeVerified then args.teeBonus else 1
  baseUtility * throughput * ttftFactor * speedFactor * args.demandBonus * teeMultiplier

def computeEpochEntryScore (math : FloatMath) (outcome : EpochOutcome) (args : ScoreArguments) :
    Result (Option ℚ) := do
  let failed := if args.suppressHardFailures then none else some 0
  if ¬ outcome.quantQualified then return failed
  if ← receiptIntegrityFails outcome then return failed
  if outcome.proofTests > 0 ∧ outcome.proofFailures > 0 ∧ outcome.proofFailurePenaltyRequired then
    return failed
  if outcome.teeTests > 0 ∧ outcome.teeFailures > 0 then return failed
  if outcome.allReceipts = [] then return none
  return some (passedScore math outcome args)

end Verathos.Scoring
