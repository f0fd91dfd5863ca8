import Verathos.ProofV3.AuditTier

/-!
# The economic challenge

A translation of the challenge derivation of `economic_challenge.py`: the sampler, the pools of
candidate positions, the constructor of the challenge, and `derive_economic_challenge_v3`.

A tuple that has to be sorted and free of repetition is one that increases strictly.
-/

namespace Verathos.ProofV3

open PrefixCache (Constructed construct construct_eq_ok packI)

/-- `range(start, stop)`. -/
def pyRange (start stop : ℕ) : List ℕ := List.range' start (stop - start)

/-- `economic_selection_is_streaming_v3`. -/
def IsStreamingSelection (selectionAbiId : Identifier) : Prop :=
  selectionAbiId ∈ [economicStreamingSelectionAbi, economicCompactSelectionAbi,
    economicCompactOnlySelectionAbi]

instance (selectionAbiId : Identifier) : Decidable (IsStreamingSelection selectionAbiId) :=
  inferInstanceAs (Decidable (_ ∈ _))

section Hash

variable (sha256 : Bytes → Digest)

/-! ## The sampler -/

/-- `_Sampler._word` at a counter. -/
def samplerWord (seed : Digest) (label : Bytes) (counter : ℕ) : ℕ :=
  BigEndian.toNat (sha256 (asciiBytes "VERATHOS/PROOF_V3/ECONOMIC_SELECTION/DRAW/SHA256" ++
    seed.bytes ++ LittleEndian.toBytes 2 label.length ++ label ++
    LittleEndian.toBytes 8 counter)).bytes

/-- `_Sampler(seed, label).distinct(population, count)`. Every draw has a positive bound, so the
only error is that of the counter. -/
def samplerDistinct (seed : Digest) (label : Bytes) (population count : ℕ) : Result (List ℕ) :=
  match RejectionDraw.distinct (samplerWord sha256 seed label) (2 ^ 256) (2 ^ 64) population count
    with
  | some chosen => .ok chosen
  | none => .error (.proofV3Error "economic selection counter overflowed")

/-- `tuple(population[slot] for slot in slots)`. -/
def atSlots (population slots : List ℕ) : Result (List ℕ) := slots.mapM (getItem population)

def sampleLayers (seed : Digest) (population : List ℕ) (count : ℕ) (label : Bytes) :
    Result (List ℕ) := do
  let slots ← samplerDistinct sha256 seed label population.length count
  atSlots population slots

/-! ## Candidate positions -/

/-- `PROMPT_CANDIDATE_ROWS_V3`. -/
def promptCandidateRows : ℕ := 32

/-- `DECODE_CANDIDATE_ROWS_V3`. -/
def decodeCandidateRows : ℕ := 32

/-- The check of a context length. -/
def validContextCount (contextTokenCount : ℕ) : Result Unit :=
  raiseIf (¬ (0 < contextTokenCount ∧ contextTokenCount < 2 ^ 32))
    (.proofV3Error "economic context token count is invalid")

/-- The rows of the decode tail. -/
def decodeTail (contextTokenCount decodeTokenCount : ℕ) : Result (List ℕ) := do
  raiseIf (¬ (0 < decodeTokenCount ∧ decodeTokenCount < 2 ^ 32))
    (.proofV3Error "economic decode token count is invalid")
  let sequenceTokenCount := contextTokenCount + decodeTokenCount - 1
  let decodeStart := max contextTokenCount (sequenceTokenCount - decodeCandidateRows)
  return pyRange decodeStart sequenceTokenCount

/-- `economic_attention_candidate_positions_v3`. -/
def attentionCandidatePositions (contextTokenCount : ℕ) : Result (List ℕ) := do
  validContextCount contextTokenCount
  let start := contextTokenCount - promptCandidateRows
  return pyRange start contextTokenCount

/-- `economic_candidate_positions_v3`. -/
def candidatePositions (contextTokenCount decodeTokenCount : ℕ) : Result (List ℕ) := do
  let prompt ← attentionCandidatePositions contextTokenCount
  let tail ← decodeTail contextTokenCount decodeTokenCount
  return prompt ++ tail

/-- `economic_streaming_attention_candidate_positions_v3`. -/
def streamingAttentionCandidatePositions (selectionSeed : Digest) (contextTokenCount : ℕ) :
    Result (List ℕ) := do
  validContextCount contextTokenCount
  if contextTokenCount = 1 then
    return [0]
  else
    let sampled ← samplerDistinct sha256 selectionSeed (asciiBytes "streaming-prompt-pool-v5")
      (contextTokenCount - 1) (promptCandidateRows - 1)
    return SortedSet.sorted (sampled ++ [contextTokenCount - 1])

/-- `economic_streaming_candidate_positions_v3`. -/
def streamingCandidatePositions (selectionSeed : Digest)
    (contextTokenCount decodeTokenCount : ℕ) : Result (List ℕ) := do
  let prompt ← streamingAttentionCandidatePositions sha256 selectionSeed contextTokenCount
  let tail ← decodeTail contextTokenCount decodeTokenCount
  return prompt ++ tail

/-- The two pools of a selection ABI: all candidates, and those of the prompt. -/
def candidatePools (selectionAbiId : Identifier) (selectionSeed : Digest)
    (contextTokenCount decodeTokenCount : ℕ) : Result (List ℕ × List ℕ) :=
  if IsStreamingSelection selectionAbiId then do
    let candidates ← streamingCandidatePositions sha256 selectionSeed contextTokenCount
      decodeTokenCount
    let attention ← streamingAttentionCandidatePositions sha256 selectionSeed contextTokenCount
    return (candidates, attention)
  else do
    let candidates ← candidatePositions contextTokenCount decodeTokenCount
    let attention ← attentionCandidatePositions contextTokenCount
    return (candidates, attention)

/-! ## The challenge -/

/-- The fields of `EconomicChallengeV3`. -/
structure EconomicChallengeFields where
  selectionAbiId : Identifier
  selectionSeed : Digest
  sequenceTokenCount : ℕ
  contextTokenCount : ℕ
  decodeTokenCount : ℕ
  candidateSequencePositions : List ℕ
  attentionCandidatePositions : List ℕ
  selectedLayerIndices : List ℕ
  sampledTokenRows : List ℕ
  bottomAnchorRows : List ℕ
  bottomAnchorPositions : List ℕ
  auditedDecodePositions : List ℕ

/-- The output positions that a pool of candidates covers. -/
def coveredDecodePositions (candidates : List ℕ) (contextTokenCount decodeTokenCount : ℕ) :
    List ℕ :=
  (List.range decodeTokenCount).filter fun position =>
    contextTokenCount - 1 + position ∈ candidates

def EconomicChallengeFields.candidateDecodePositions (challenge : EconomicChallengeFields) :
    List ℕ :=
  coveredDecodePositions challenge.candidateSequencePositions challenge.contextTokenCount
    challenge.decodeTokenCount

def EconomicChallengeFields.postInit (challenge : EconomicChallengeFields) : Result Unit := do
  raiseIf (challenge.selectionAbiId ∉ economicSelectionAbis)
    (.proofV3Error "economic selection ABI is not supported")
  raiseIf ((challenge.sequenceTokenCount : ℤ) ≠
      challenge.contextTokenCount + challenge.decodeTokenCount - 1)
    (.proofV3Error "economic sequence token count is inconsistent")
  let (expectedCandidates, expectedAttention) ← candidatePools sha256 challenge.selectionAbiId
    challenge.selectionSeed challenge.contextTokenCount challenge.decodeTokenCount
  raiseIf (challenge.candidateSequencePositions ≠ expectedCandidates)
    (.proofV3Error "economic candidate positions are not canonical")
  raiseIf (challenge.attentionCandidatePositions ≠ expectedAttention)
    (.proofV3Error "economic attention candidate positions are not canonical")
  raiseIf (¬ challenge.sampledTokenRows.Pairwise (· < ·) ∨
      ¬ ∀ row ∈ challenge.sampledTokenRows, row < expectedCandidates.length)
    (.proofV3Error "economic sampled pool rows are malformed")
  raiseIf (¬ challenge.bottomAnchorRows.Pairwise (· < ·) ∨
      ¬ ∀ row ∈ challenge.bottomAnchorRows, row < expectedAttention.length)
    (.proofV3Error "economic bottom-anchor pool rows are malformed")
  let expectedPositions ← atSlots expectedCandidates challenge.bottomAnchorRows
  raiseIf (challenge.bottomAnchorPositions ≠ expectedPositions)
    (.proofV3Error "economic bottom-anchor rows and positions disagree")
  raiseIf (¬ challenge.auditedDecodePositions.Pairwise (· < ·) ∨
      ¬ ∀ position ∈ challenge.auditedDecodePositions,
        position ∈ challenge.candidateDecodePositions)
    (.proofV3Error "economic audited decode positions are outside the pool")

/-- `EconomicChallengeV3`. -/
abbrev EconomicChallenge := Constructed (EconomicChallengeFields.postInit sha256)

/-! ## The derivation -/

/-- `seed`. -/
def selectionSeed (transcriptDigest profileDigest : Digest) (envelope : ProofV3CommitmentEnvelope)
    (policy : HardAuditPolicyFields) (sequenceTokenCount : ℕ) : Digest :=
  sha256 (asciiBytes "VERATHOS/PROOF_V3/ECONOMIC_SELECTION/SEED/SHA256" ++
    transcriptDigest.bytes ++ profileDigest.bytes ++ (envelope.val.digest sha256).bytes ++
    packI policy.selectedLayerCount ++ packI policy.transitionQueryRows ++
    packI sequenceTokenCount)

/-- The layers of some plans, in increasing order. -/
def layersOf (plans : List LayerAuditPlan) : List ℕ :=
  SortedSet.sorted (plans.map LayerAuditPlan.layerIndex)

/-- The selected layers of a streaming ABI. The layers of the plans are distinct, so each layer has
one plan. -/
def stratifiedLayers (seed : Digest) (policy : HardAuditPolicyFields)
    (layerAudits : List LayerAuditPlan) : Result (List ℕ) := do
  let orderedUniverse := layersOf layerAudits
  let fullAttention := layersOf (layerAudits.filter fun plan => plan.IsFullAttention)
  let gdn := layersOf (layerAudits.filter fun plan => ¬ plan.IsFullAttention)
  raiseIf (policy.minimumFullAttentionLayers > fullAttention.length ∨
      policy.minimumGdnLayers > gdn.length)
    (.proofV3Error
      "signed stratified layer minimum exceeds the qualified architecture inventory")
  let requiredFull ← sampleLayers sha256 seed fullAttention policy.minimumFullAttentionLayers
    (asciiBytes "layers/full-attention")
  let requiredGdn ← sampleLayers sha256 seed gdn policy.minimumGdnLayers (asciiBytes "layers/gdn")
  let required := requiredFull ++ requiredGdn
  let remaining := orderedUniverse.filter fun layer => layer ∉ required
  let fillCount := policy.selectedLayerCount - required.length
  raiseIf (fillCount > remaining.length)
    (.proofV3Error "signed stratified layer count exceeds the remaining architecture inventory")
  let fill ← sampleLayers sha256 seed remaining fillCount (asciiBytes "layers/fill")
  return SortedSet.sorted (required ++ fill)

/-- The selected layers. -/
def selectLayers (seed : Digest) (policy : HardAuditPolicyFields)
    (layerAudits : List LayerAuditPlan) : Result (List ℕ) :=
  if IsStreamingSelection policy.selectionAbiId then
    stratifiedLayers sha256 seed policy layerAudits
  else
    sampleLayers sha256 seed (layersOf layerAudits) policy.selectedLayerCount (asciiBytes "layers")

/-- `BOTTOM_ANCHOR_ROWS_V3`. -/
def bottomAnchorRowCount : ℕ := 2

/-- `AUDITED_DECODE_POSITIONS_V3`. -/
def auditedDecodePositionCount : ℕ := 1

/-- `sequence_token_count`: the final token is emitted, but not forwarded. -/
def forwardedTokenCount (contextTokenCount decodeTokenCount : ℕ) : ℕ :=
  contextTokenCount + if decodeTokenCount ≠ 0 then decodeTokenCount - 1 else 0

/-- The selection of the pools and rows, for the selected layers. -/
def selectRows (selectionAbiId : Identifier) (seed : Digest) (transitionQueryRows : ℕ)
    (contextTokenCount decodeTokenCount : ℕ) (selectedLayers : List ℕ) :
    Result EconomicChallengeFields := do
  let (candidates, attentionCandidates) ← candidatePools sha256 selectionAbiId seed
    contextTokenCount decodeTokenCount
  let tokenRows ← samplerDistinct sha256 seed (asciiBytes "token-rows") candidates.length
    transitionQueryRows
  let bottomRows ← samplerDistinct sha256 seed (asciiBytes "bottom") attentionCandidates.length
    bottomAnchorRowCount
  let bottomPositions ← atSlots candidates bottomRows
  let availableDecodePositions := coveredDecodePositions candidates contextTokenCount
    decodeTokenCount
  let decodeSlots ← samplerDistinct sha256 seed (asciiBytes "decode-pos")
    availableDecodePositions.length auditedDecodePositionCount
  let decodePositions ← atSlots availableDecodePositions decodeSlots
  return {
    selectionAbiId := selectionAbiId
    selectionSeed := seed
    sequenceTokenCount := forwardedTokenCount contextTokenCount decodeTokenCount
    contextTokenCount := contextTokenCount
    decodeTokenCount := decodeTokenCount
    candidateSequencePositions := candidates
    attentionCandidatePositions := attentionCandidates
    selectedLayerIndices := selectedLayers
    sampledTokenRows := tokenRows
    bottomAnchorRows := bottomRows
    bottomAnchorPositions := bottomPositions
    auditedDecodePositions := decodePositions }

/-- `derive_economic_challenge_v3`. -/
def deriveEconomicChallenge (transcriptDigest : Digest) (profile : ExecutionSecurityProfile)
    (envelope : ProofV3CommitmentEnvelope) : Result (EconomicChallenge sha256) := do
  let profileDigest ← profile.val.digest sha256
  raiseIf (envelope.val.executionProfileDigest ≠ profileDigest)
    (.proofV3Error "economic selection envelope has an unexpected profile")
  let policy := profile.val.relationSpec.val.auditPolicy.val
  raiseIf (policy.selectionAbiId ∉ economicSelectionAbis)
    (.proofV3Error "signed profile does not carry the economic selection ABI")
  let sequenceTokenCount := forwardedTokenCount envelope.val.contextTokenCount
    envelope.val.decodeTokenCount
  raiseIf (¬ (0 < sequenceTokenCount ∧ sequenceTokenCount < 2 ^ 32))
    (.proofV3Error "economic sequence token count is invalid")
  let layerAudits := profile.val.relationSpec.val.layerAudits
  let layerUniverse := layerAudits.map LayerAuditPlan.layerIndex
  raiseIf (¬ layerUniverse.Nodup ∨ layerUniverse = [])
    (.proofV3Error "economic layer universe is malformed")
  raiseIf (policy.selectedLayerCount > layerUniverse.length)
    (.proofV3Error "signed layer count exceeds the relation graph")
  let seed := selectionSeed sha256 transcriptDigest profileDigest envelope policy
    sequenceTokenCount
  let selectedLayers ← selectLayers sha256 seed policy layerAudits
  let challenge ← selectRows sha256 policy.selectionAbiId seed policy.transitionQueryRows
    envelope.val.contextTokenCount envelope.val.decodeTokenCount selectedLayers
  construct (EconomicChallengeFields.postInit sha256) challenge

end Hash

end Verathos.ProofV3
