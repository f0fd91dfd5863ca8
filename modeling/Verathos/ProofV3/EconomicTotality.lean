import Verathos.ProofV3.EconomicChallenge

/-!
# The economic challenge is derived

For a profile with an economic selection ABI and an envelope that is bound to it, the derivation
gives a well-formed challenge exactly when the envelope has a decode token
(`economicChallenge_derived_iff`). Without one the candidate positions are refused, although the
derivation computes its sequence length for this case too.

* `SamplersDense` is what the sampler needs of the hash: among the words of `2 ^ 48` consecutive
  counters there is one below `2 ^ 256 - 2 ^ 32`.
* Each step of the derivation has one lemma that it returns, with what it returns.
-/

namespace Verathos.ProofV3

open PrefixCache (construct_eq_ok u32 positiveU32)

/-! ## The sampler -/

/-- The labels of the samplers of the derivation. -/
def samplerLabels : List Bytes :=
  [asciiBytes "streaming-prompt-pool-v5", asciiBytes "layers", asciiBytes "layers/full-attention",
    asciiBytes "layers/gdn", asciiBytes "layers/fill", asciiBytes "token-rows",
    asciiBytes "bottom", asciiBytes "decode-pos"]

/-- Among the words of `2 ^ 48` consecutive counters of a sampler there is one that is rejected for
no bound up to `2 ^ 32`. -/
def SamplersDense (sha256 : Bytes → Digest) : Prop :=
  ∀ seed, ∀ label ∈ samplerLabels,
    RejectionDraw.Dense (samplerWord sha256 seed label) (2 ^ 256) (2 ^ 64) (2 ^ 48) (2 ^ 32)

variable {sha256 : Bytes → Digest} {seed : Digest} {label : Bytes}

theorem exists_samplerDistinct (hdense : SamplersDense sha256) (seed : Digest)
    (hlabel : label ∈ samplerLabels) {population count : ℕ} (hpopulation : population ≤ 2 ^ 32)
    (hcount : count ≤ 2 ^ 16) :
    ∃ chosen, samplerDistinct sha256 seed label population count = .ok chosen ∧
      chosen.Pairwise (· < ·) ∧ chosen.length = min count population ∧
      ∀ value ∈ chosen, value < population := by
  obtain ⟨chosen, hchosen⟩ := RejectionDraw.exists_distinct (hdense seed label hlabel)
    hpopulation (by omega : count * 2 ^ 48 ≤ 2 ^ 64)
  exact ⟨chosen, by rw [samplerDistinct, hchosen], RejectionDraw.distinct_spec hchosen⟩

theorem exists_atSlots {population slots : List ℕ} (hpopulation : population.Pairwise (· < ·))
    (hslots : slots.Pairwise (· < ·)) (hlt : ∀ slot ∈ slots, slot < population.length) :
    ∃ items, atSlots population slots = .ok items ∧ items.Pairwise (· < ·) ∧
      items.length = slots.length ∧ items ⊆ population := by
  refine ⟨slots.map (population.getD · 0), mapM_eq_ok_map fun slot hslot => ?_, ?_, ?_, ?_⟩
  · rw [getItem_eq_ok, List.getD_eq_getElem _ _ (hlt slot hslot)]
    exact List.getElem?_eq_getElem (hlt slot hslot)
  · rw [List.pairwise_map]
    refine hslots.imp_of_mem fun {a b} ha hb hab => ?_
    rw [List.getD_eq_getElem _ _ (hlt a ha), List.getD_eq_getElem _ _ (hlt b hb)]
    exact List.pairwise_iff_getElem.mp hpopulation a b _ _ hab
  · exact List.length_map _
  · intro item hitem
    obtain ⟨slot, hslot, rfl⟩ := List.mem_map.mp hitem
    rw [List.getD_eq_getElem _ _ (hlt slot hslot)]
    exact List.getElem_mem _

theorem exists_sampleLayers (hdense : SamplersDense sha256) (seed : Digest)
    (hlabel : label ∈ samplerLabels) {population : List ℕ} {count : ℕ}
    (hpopulation : population.Pairwise (· < ·))
    (hlength : population.length ≤ 2 ^ 16) (hcount : count ≤ population.length) :
    ∃ layers, sampleLayers sha256 seed population count label = .ok layers ∧
      layers.Pairwise (· < ·) ∧ layers.length = count ∧ layers ⊆ population := by
  obtain ⟨slots, hslots, hincreasing, hslotCount, hlt⟩ :=
    exists_samplerDistinct hdense seed hlabel (by omega : population.length ≤ 2 ^ 32)
      (by omega : count ≤ 2 ^ 16)
  obtain ⟨layers, hlayers, hsorted, hlayerCount, hsubset⟩ :=
    exists_atSlots hpopulation hincreasing hlt
  exact ⟨layers, bind_eq_ok.mpr ⟨slots, hslots, hlayers⟩, hsorted, by omega, hsubset⟩

/-! ## The pools -/

/-- What the two pools of a request satisfy. -/
structure PoolsSpec (contextTokenCount decodeTokenCount : ℕ) (candidates attention : List ℕ) :
    Prop where
  attention_pairwise : attention.Pairwise (· < ·)
  attention_lt : ∀ position ∈ attention, position < contextTokenCount
  attention_last : contextTokenCount - 1 ∈ attention
  attention_length : attention.length ≤ 32
  candidates_pairwise : candidates.Pairwise (· < ·)
  candidates_lt : ∀ position ∈ candidates, position < contextTokenCount + decodeTokenCount - 1
  candidates_length : candidates.length ≤ 64
  attention_subset : attention.length ≤ candidates.length
  candidates_last : contextTokenCount - 1 ∈ candidates

@[simp]
theorem mem_pyRange {start stop position : ℕ} :
    position ∈ pyRange start stop ↔ start ≤ position ∧ position < stop := by
  rw [pyRange, List.mem_range'_1]
  omega

theorem pairwise_pyRange (start stop : ℕ) : (pyRange start stop).Pairwise (· < ·) :=
  List.pairwise_lt_range'

@[simp]
theorem length_pyRange (start stop : ℕ) : (pyRange start stop).length = stop - start :=
  List.length_range'

theorem decodeTail_eq_ok {contextTokenCount decodeTokenCount : ℕ} {tail : List ℕ}
    (hlength : contextTokenCount + decodeTokenCount < 2 ^ 32) :
    decodeTail contextTokenCount decodeTokenCount = .ok tail ↔
      0 < decodeTokenCount ∧
        pyRange (max contextTokenCount (contextTokenCount + decodeTokenCount - 1 - 32))
          (contextTokenCount + decodeTokenCount - 1) = tail := by
  simp only [decodeTail, bind_eq_ok, raiseIf_eq_ok, exists_const, pure_eq_ok, not_not,
    decodeCandidateRows]
  constructor
  · rintro ⟨⟨hpos, -⟩, htail⟩
    exact ⟨hpos, htail⟩
  · rintro ⟨hpos, htail⟩
    exact ⟨⟨hpos, by omega⟩, htail⟩

/-- What the pool of the prompt satisfies. -/
structure PromptSpec (contextTokenCount : ℕ) (prompt : List ℕ) : Prop where
  pairwise : prompt.Pairwise (· < ·)
  lt : ∀ position ∈ prompt, position < contextTokenCount
  last : contextTokenCount - 1 ∈ prompt
  length : prompt.length ≤ 32

theorem validContextCount_eq_ok {contextTokenCount : ℕ} (hpos : 0 < contextTokenCount)
    (hlt : contextTokenCount < 2 ^ 32) : validContextCount contextTokenCount = .ok () :=
  raiseIf_eq_ok.mpr (not_not.mpr ⟨hpos, hlt⟩)

theorem exists_attentionCandidatePositions {contextTokenCount : ℕ} (hpos : 0 < contextTokenCount)
    (hlt : contextTokenCount < 2 ^ 32) :
    ∃ prompt, attentionCandidatePositions contextTokenCount = .ok prompt ∧
      PromptSpec contextTokenCount prompt := by
  refine ⟨_, bind_eq_ok.mpr ⟨(), validContextCount_eq_ok hpos hlt, rfl⟩, pairwise_pyRange _ _,
    fun position hposition => (mem_pyRange.mp hposition).2, ?_, ?_⟩
  · rw [mem_pyRange, promptCandidateRows]
    omega
  · rw [length_pyRange, promptCandidateRows]
    omega

theorem sorted_append_last {items : List ℕ} {last : ℕ} (hitems : items.Pairwise (· < ·))
    (hlt : ∀ item ∈ items, item < last) :
    (items ++ [last]).Pairwise (· < ·) ∧ SortedSet.sorted (items ++ [last]) = items ++ [last] := by
  have hpairwise : (items ++ [last]).Pairwise (· < ·) := by
    rw [List.pairwise_append]
    exact ⟨hitems, List.pairwise_singleton _ _, by simpa using hlt⟩
  refine ⟨hpairwise, ?_⟩
  rw [SortedSet.sorted]
  exact (hpairwise.imp fun h => h.le).insertionSort_eq

theorem exists_streamingAttentionCandidatePositions (hdense : SamplersDense sha256)
    {contextTokenCount : ℕ} (hpos : 0 < contextTokenCount) (hlt : contextTokenCount < 2 ^ 32) :
    ∃ prompt, streamingAttentionCandidatePositions sha256 seed contextTokenCount = .ok prompt ∧
      PromptSpec contextTokenCount prompt := by
  unfold streamingAttentionCandidatePositions
  rw [validContextCount_eq_ok hpos hlt]
  by_cases hone : contextTokenCount = 1
  · subst hone
    exact ⟨[0], rfl, List.pairwise_singleton _ _, by simp, by simp, by simp⟩
  · obtain ⟨sampled, hsampled, hincreasing, hlength, hbelow⟩ :=
      exists_samplerDistinct hdense seed
        (by decide : asciiBytes "streaming-prompt-pool-v5" ∈ samplerLabels)
        (by omega : contextTokenCount - 1 ≤ 2 ^ 32)
        (by decide : promptCandidateRows - 1 ≤ 2 ^ 16)
    obtain ⟨hpairwise, hsorted⟩ := sorted_append_last hincreasing hbelow
    refine ⟨sampled ++ [contextTokenCount - 1], ?_, hpairwise, ?_, by simp, ?_⟩
    · change (if contextTokenCount = 1 then _ else _) = _
      rw [if_neg hone, bind_eq_ok]
      exact ⟨sampled, hsampled, by rw [hsorted]; rfl⟩
    · intro position hposition
      rcases List.mem_append.mp hposition with hmem | hmem
      · exact (hbelow position hmem).trans_le (Nat.sub_le _ _)
      · rw [List.mem_singleton] at hmem
        omega
    · rw [List.length_append, hlength, List.length_singleton, promptCandidateRows]
      omega

theorem PromptSpec.append {contextTokenCount decodeTokenCount : ℕ} {prompt : List ℕ}
    (h : PromptSpec contextTokenCount prompt) (hpos : 0 < decodeTokenCount) :
    PoolsSpec contextTokenCount decodeTokenCount
      (prompt ++ pyRange (max contextTokenCount (contextTokenCount + decodeTokenCount - 1 - 32))
        (contextTokenCount + decodeTokenCount - 1)) prompt where
  attention_pairwise := h.pairwise
  attention_lt := h.lt
  attention_last := h.last
  attention_length := h.length
  candidates_pairwise := by
    rw [List.pairwise_append]
    refine ⟨h.pairwise, pairwise_pyRange _ _, fun position hposition position' hposition' => ?_⟩
    have := h.lt position hposition
    rw [mem_pyRange] at hposition'
    omega
  candidates_lt := by
    intro position hposition
    rcases List.mem_append.mp hposition with hmem | hmem
    · have := h.lt position hmem
      omega
    · exact (mem_pyRange.mp hmem).2
  candidates_length := by
    have := h.length
    rw [List.length_append, length_pyRange]
    omega
  attention_subset := by
    rw [List.length_append]
    exact Nat.le_add_right _ _
  candidates_last := List.mem_append_left _ h.last

theorem exists_candidatePools (hdense : SamplersDense sha256) (selectionAbiId : Identifier)
    (seed : Digest) {contextTokenCount decodeTokenCount : ℕ} (hcontext : 0 < contextTokenCount)
    (hdecode : 0 < decodeTokenCount) (hlength : contextTokenCount + decodeTokenCount < 2 ^ 32) :
    ∃ candidates attention,
      candidatePools sha256 selectionAbiId seed contextTokenCount decodeTokenCount =
        .ok (candidates, attention) ∧
      PoolsSpec contextTokenCount decodeTokenCount candidates attention := by
  have htail := (decodeTail_eq_ok hlength).mpr ⟨hdecode, rfl⟩
  unfold candidatePools
  split_ifs with hstreaming
  · obtain ⟨prompt, hprompt, hspec⟩ := exists_streamingAttentionCandidatePositions hdense
      hcontext (by omega : contextTokenCount < 2 ^ 32)
    refine ⟨_, prompt, bind_eq_ok.mpr ⟨_, ?_, bind_eq_ok.mpr ⟨prompt, hprompt, rfl⟩⟩,
      hspec.append hdecode⟩
    exact bind_eq_ok.mpr ⟨prompt, hprompt, bind_eq_ok.mpr ⟨_, htail, rfl⟩⟩
  · obtain ⟨prompt, hprompt, hspec⟩ := exists_attentionCandidatePositions
      hcontext (by omega : contextTokenCount < 2 ^ 32)
    refine ⟨_, prompt, bind_eq_ok.mpr ⟨_, ?_, bind_eq_ok.mpr ⟨prompt, hprompt, rfl⟩⟩,
      hspec.append hdecode⟩
    exact bind_eq_ok.mpr ⟨prompt, hprompt, bind_eq_ok.mpr ⟨_, htail, rfl⟩⟩

theorem pos_of_candidatePools {selectionAbiId : Identifier}
    {contextTokenCount decodeTokenCount : ℕ} {pools : List ℕ × List ℕ}
    (hlength : contextTokenCount + decodeTokenCount < 2 ^ 32)
    (h : candidatePools sha256 selectionAbiId seed contextTokenCount decodeTokenCount =
      .ok pools) : 0 < decodeTokenCount := by
  unfold candidatePools at h
  split_ifs at h
  · simp only [streamingCandidatePositions, bind_eq_ok] at h
    obtain ⟨_, ⟨_, -, tail, htail, -⟩, -⟩ := h
    exact ((decodeTail_eq_ok hlength).mp htail).1
  · simp only [candidatePositions, bind_eq_ok] at h
    obtain ⟨_, ⟨_, -, tail, htail, -⟩, -⟩ := h
    exact ((decodeTail_eq_ok hlength).mp htail).1

/-! ## The layers -/

/-- What the selected layers satisfy. -/
structure LayersSpec (relation : RelationFields) (layers : List ℕ) : Prop where
  pairwise : layers.Pairwise (· < ·)
  length : layers.length = relation.auditPolicy.val.selectedLayerCount
  subset : layers ⊆ relation.layerAudits.map LayerAuditPlan.layerIndex
  /-- A streaming ABI selects the signed minimum of full-attention layers. -/
  full : IsStreamingSelection relation.auditPolicy.val.selectionAbiId →
    relation.auditPolicy.val.minimumFullAttentionLayers ≤ (layers.filter fun layer =>
      layer ∈ relation.fullAttentionAudits.map LayerAuditPlan.layerIndex).length
  gdn : IsStreamingSelection relation.auditPolicy.val.selectionAbiId →
    relation.auditPolicy.val.minimumGdnLayers ≤ (layers.filter fun layer =>
      layer ∈ relation.gdnAudits.map LayerAuditPlan.layerIndex).length

section Layers

variable {plans : List LayerAuditPlan}

@[simp]
theorem mem_layersOf {layer : ℕ} :
    layer ∈ layersOf plans ↔ layer ∈ plans.map LayerAuditPlan.layerIndex :=
  SortedSet.mem_sorted

@[simp]
theorem length_layersOf : (layersOf plans).length = plans.length := by
  rw [layersOf, SortedSet.sorted, List.length_insertionSort, List.length_map]

theorem pairwise_layersOf (h : (plans.map LayerAuditPlan.layerIndex).Nodup) :
    (layersOf plans).Pairwise (· < ·) := by
  refine SortedSet.pairwise_lt_of_nodup (List.pairwise_insertionSort _ _) ?_
  exact (List.perm_insertionSort _ _).nodup_iff.mpr h

theorem pairwise_layersOf_filter (p : LayerAuditPlan → Bool)
    (h : (plans.map LayerAuditPlan.layerIndex).Nodup) :
    (layersOf (plans.filter p)).Pairwise (· < ·) :=
  pairwise_layersOf ((List.filter_sublist.map _).nodup h)

theorem layersOf_filter_subset (p : LayerAuditPlan → Bool) :
    layersOf (plans.filter p) ⊆ layersOf plans := by
  intro layer hlayer
  rw [mem_layersOf] at hlayer ⊢
  exact (List.filter_sublist.map _).subset hlayer

theorem layersOf_disjoint (h : (plans.map LayerAuditPlan.layerIndex).Nodup) {layer : ℕ}
    (hfull : layer ∈ layersOf (plans.filter fun plan => plan.IsFullAttention))
    (hgdn : layer ∈ layersOf (plans.filter fun plan => ¬ plan.IsFullAttention)) : False := by
  rw [mem_layersOf, List.mem_map] at hfull hgdn
  obtain ⟨plan, hplan, rfl⟩ := hfull
  obtain ⟨plan', hplan', heq⟩ := hgdn
  rw [List.mem_filter, decide_eq_true_iff] at hplan hplan'
  obtain rfl := List.inj_on_of_nodup_map h hplan'.1 hplan.1 heq
  exact hplan'.2 hplan.2

theorem length_filter_not_mem {ordered : List ℕ} (required : List ℕ)
    (hordered : ordered.Nodup) :
    ordered.length ≤ (ordered.filter fun layer => layer ∉ required).length + required.length := by
  have hinside : (ordered.filter fun layer => layer ∈ required).length ≤ required.length := by
    refine (List.subperm_of_subset (hordered.filter _) fun layer hlayer => ?_).length_le
    simpa using (List.mem_filter.mp hlayer).2
  have hsplit := List.length_eq_length_filter_add (l := ordered) fun layer =>
    decide (layer ∈ required)
  simp only [← decide_not] at hsplit
  omega

/-- What the constructors of the relation and of its policy guarantee about the layers. -/
structure LayerBounds (relation : RelationFields) : Prop where
  count : relation.layerAudits.length ≤ 65535
  nodup : (relation.layerAudits.map LayerAuditPlan.layerIndex).Nodup
  nonempty : relation.layerAudits ≠ []
  selected : relation.auditPolicy.val.selectedLayerCount ≤ relation.layerAudits.length
  full : relation.auditPolicy.val.minimumFullAttentionLayers ≤ relation.fullAttentionAudits.length
  gdn : relation.auditPolicy.val.minimumGdnLayers ≤ relation.gdnAudits.length
  sum : relation.auditPolicy.val.minimumFullAttentionLayers +
    relation.auditPolicy.val.minimumGdnLayers ≤ relation.auditPolicy.val.selectedLayerCount
  rows : relation.auditPolicy.val.transitionQueryRows ≤ 256

theorem layerBounds (relation : ExecutionRelationSpec) : LayerBounds relation.val := by
  have hrelation := relation.property
  have hpolicy := relation.val.auditPolicy.property
  simp only [RelationFields.postInit, positiveU32, bind_eq_ok, raiseIf_eq_ok,
    exists_const] at hrelation
  simp only [HardAuditPolicyFields.postInit, u32, positiveU32, bind_eq_ok, raiseIf_eq_ok,
    exists_const] at hpolicy
  obtain ⟨-, -, hnonempty, hcount, hpairwise, hselected, -, -, hfull, hgdn⟩ := hrelation
  obtain ⟨-, -, -, -, -, -, -, -, -, -, -, hrows, hsum, -⟩ := hpolicy
  refine ⟨by omega, (not_not.mp hpairwise).imp fun h => h.ne, hnonempty, by omega, by omega,
    by omega, by omega, ?_⟩
  exact not_lt.mp hrows

theorem length_le_filter {chosen layers part : List ℕ} (hchosen : chosen.Nodup)
    (hsubset : chosen ⊆ part) (hlayers : chosen ⊆ layers) :
    chosen.length ≤ (layers.filter fun layer => layer ∈ part).length := by
  refine (List.subperm_of_subset hchosen fun layer hlayer => ?_).length_le
  rw [List.mem_filter]
  exact ⟨hlayers hlayer, by simpa using hsubset hlayer⟩

variable {relation : RelationFields}

theorem layersSpec_of_parts {full gdn fill : List ℕ} (hnodup : (full ++ gdn ++ fill).Nodup)
    (hlength : (full ++ gdn ++ fill).length = relation.auditPolicy.val.selectedLayerCount)
    (hfull : full ⊆ layersOf relation.fullAttentionAudits)
    (hgdn : gdn ⊆ layersOf relation.gdnAudits) (hfill : fill ⊆ layersOf relation.layerAudits)
    (hfullCount : full.length = relation.auditPolicy.val.minimumFullAttentionLayers)
    (hgdnCount : gdn.length = relation.auditPolicy.val.minimumGdnLayers) :
    LayersSpec relation (SortedSet.sorted (full ++ gdn ++ fill)) := by
  have hfullNodup : full.Nodup := (List.nodup_append.mp (List.nodup_append.mp hnodup).1).1
  have hgdnNodup : gdn.Nodup := (List.nodup_append.mp (List.nodup_append.mp hnodup).1).2.1
  refine ⟨?_, ?_, ?_, fun _ => ?_, fun _ => ?_⟩
  · refine SortedSet.pairwise_lt_of_nodup (List.pairwise_insertionSort _ _) ?_
    exact (List.perm_insertionSort _ _).nodup_iff.mpr hnodup
  · rw [SortedSet.sorted, List.length_insertionSort, hlength]
  · intro layer hlayer
    rw [SortedSet.mem_sorted, List.mem_append, List.mem_append] at hlayer
    rw [← mem_layersOf]
    rcases hlayer with (hlayer | hlayer) | hlayer
    · exact layersOf_filter_subset _ (hfull hlayer)
    · exact layersOf_filter_subset _ (hgdn hlayer)
    · exact hfill hlayer
  · rw [← hfullCount]
    refine length_le_filter hfullNodup (fun layer hlayer => mem_layersOf.mp (hfull hlayer)) ?_
    intro layer hlayer
    simp [hlayer]
  · rw [← hgdnCount]
    refine length_le_filter hgdnNodup (fun layer hlayer => mem_layersOf.mp (hgdn hlayer)) ?_
    intro layer hlayer
    simp [hlayer]

theorem exists_stratifiedLayers (hdense : SamplersDense sha256) (seed : Digest)
    (hbounds : LayerBounds relation) :
    ∃ layers, stratifiedLayers sha256 seed relation.auditPolicy.val relation.layerAudits =
      .ok layers ∧ LayersSpec relation layers := by
  obtain ⟨hcount, hnodup, hnonempty, hselected, hfull, hgdn, hsum, -⟩ := hbounds
  have hfullLength : relation.fullAttentionAudits.length ≤ relation.layerAudits.length :=
    List.length_filter_le _ _
  have hgdnLength : relation.gdnAudits.length ≤ relation.layerAudits.length :=
    List.length_filter_le _ _
  have hfullCount : relation.auditPolicy.val.minimumFullAttentionLayers ≤
      (layersOf relation.fullAttentionAudits).length := by rwa [length_layersOf]
  have hgdnCount : relation.auditPolicy.val.minimumGdnLayers ≤
      (layersOf relation.gdnAudits).length := by rwa [length_layersOf]
  obtain ⟨requiredFull, hrequiredFull, hfullSorted, hfullCount, hfullSubset⟩ :=
    exists_sampleLayers hdense seed (by decide : asciiBytes "layers/full-attention" ∈ samplerLabels)
      (pairwise_layersOf_filter (fun plan => plan.IsFullAttention) hnodup)
      (by rw [length_layersOf]; exact hfullLength.trans (by omega)) hfullCount
  obtain ⟨requiredGdn, hrequiredGdn, hgdnSorted, hgdnCount, hgdnSubset⟩ :=
    exists_sampleLayers hdense seed (by decide : asciiBytes "layers/gdn" ∈ samplerLabels)
      (pairwise_layersOf_filter (fun plan => ¬ plan.IsFullAttention) hnodup)
      (by rw [length_layersOf]; exact hgdnLength.trans (by omega)) hgdnCount
  -- the required layers are distinct, and the others are enough to fill the selection
  have hrequiredNodup : (requiredFull ++ requiredGdn).Nodup := by
    rw [List.nodup_append]
    refine ⟨hfullSorted.imp fun h => h.ne, hgdnSorted.imp fun h => h.ne, ?_⟩
    rintro layer hleft _ hright rfl
    exact layersOf_disjoint hnodup (hfullSubset hleft) (hgdnSubset hright)
  have hrequiredCount : (requiredFull ++ requiredGdn).length =
      relation.auditPolicy.val.minimumFullAttentionLayers +
        relation.auditPolicy.val.minimumGdnLayers := by
    rw [List.length_append, hfullCount, hgdnCount]
  have hordered := pairwise_layersOf hnodup
  have hremaining := length_filter_not_mem (requiredFull ++ requiredGdn)
    (hordered.imp fun h => h.ne)
  rw [length_layersOf] at hremaining
  have hremainingSorted := hordered.filter fun layer => decide (layer ∉ requiredFull ++ requiredGdn)
  have hremainingLength := List.length_filter_le
    (fun layer => decide (layer ∉ requiredFull ++ requiredGdn)) (layersOf relation.layerAudits)
  rw [length_layersOf] at hremainingLength
  obtain ⟨fill, hfill, hfillSorted, hfillCount, hfillSubset⟩ :=
    exists_sampleLayers hdense seed (by decide : asciiBytes "layers/fill" ∈ samplerLabels)
      hremainingSorted (by omega)
      (by omega : relation.auditPolicy.val.selectedLayerCount -
        (requiredFull ++ requiredGdn).length ≤ _)
  have hselectedNodup : (requiredFull ++ requiredGdn ++ fill).Nodup := by
    rw [List.nodup_append]
    refine ⟨hrequiredNodup, hfillSorted.imp fun h => h.ne, ?_⟩
    rintro layer hleft _ hright rfl
    simpa [hleft] using (List.mem_filter.mp (hfillSubset hright)).2
  refine ⟨SortedSet.sorted (requiredFull ++ requiredGdn ++ fill), ?_, ?_⟩
  · simp only [stratifiedLayers, bind_eq_ok, raiseIf_eq_ok, exists_const, length_layersOf]
    refine ⟨?_, requiredFull, hrequiredFull, requiredGdn, hrequiredGdn, ?_, fill, hfill, rfl⟩
    · exact not_or.mpr ⟨not_lt.mpr hfull, not_lt.mpr hgdn⟩
    · omega
  · refine layersSpec_of_parts hselectedNodup ?_ hfullSubset hgdnSubset ?_ hfullCount hgdnCount
    · rw [List.length_append, hfillCount]
      omega
    · exact fun layer hlayer => (List.mem_filter.mp (hfillSubset hlayer)).1

theorem exists_selectLayers (hdense : SamplersDense sha256) (seed : Digest)
    (hbounds : LayerBounds relation) :
    ∃ layers, selectLayers sha256 seed relation.auditPolicy.val relation.layerAudits = .ok layers ∧
      LayersSpec relation layers := by
  unfold selectLayers
  split_ifs with hstreaming
  · exact exists_stratifiedLayers hdense seed hbounds
  · have hcount := hbounds.count
    obtain ⟨layers, hlayers, hsorted, hlength, hsubset⟩ :=
      exists_sampleLayers hdense seed (by decide : asciiBytes "layers" ∈ samplerLabels)
        (pairwise_layersOf hbounds.nodup) (by rw [length_layersOf]; omega)
        (hbounds.selected.trans_eq length_layersOf.symm)
    refine ⟨layers, hlayers, hsorted, hlength, fun layer hlayer => ?_, fun h => ?_, fun h => ?_⟩
    · exact mem_layersOf.mp (hsubset hlayer)
    · exact absurd h hstreaming
    · exact absurd h hstreaming

end Layers

/-! ## The rows -/

/-- What the selection of the rows satisfies. -/
structure RowsSpec (contextTokenCount decodeTokenCount : ℕ) (challenge : EconomicChallengeFields) :
    Prop where
  candidates_pairwise : challenge.candidateSequencePositions.Pairwise (· < ·)
  candidates_lt : ∀ position ∈ challenge.candidateSequencePositions,
    position < challenge.sequenceTokenCount
  candidates_last : contextTokenCount - 1 ∈ challenge.candidateSequencePositions
  sampled_lt : ∀ row ∈ challenge.sampledTokenRows,
    row < challenge.candidateSequencePositions.length
  /-- The bottom rows index the pool of the prompt, and with it the pool. -/
  bottom_lt : ∀ row ∈ challenge.bottomAnchorRows,
    row < challenge.attentionCandidatePositions.length ∧
      row < challenge.candidateSequencePositions.length
  audited : 0 < decodeTokenCount → challenge.auditedDecodePositions ≠ []

/-- The first output position is covered, since the last position of the prompt is a candidate. -/
theorem zero_mem_covered {candidates : List ℕ} {contextTokenCount decodeTokenCount : ℕ}
    (hlast : contextTokenCount - 1 ∈ candidates) (hpos : 0 < decodeTokenCount) :
    0 ∈ coveredDecodePositions candidates contextTokenCount decodeTokenCount := by
  rw [coveredDecodePositions, List.mem_filter, List.mem_range]
  exact ⟨hpos, by simpa using hlast⟩

/-- A challenge whose pools and rows were drawn for these counts. -/
structure Drawn (sha256 : Bytes → Digest) (contextTokenCount decodeTokenCount : ℕ)
    (challenge : EconomicChallengeFields) : Prop where
  abi : challenge.selectionAbiId ∈ economicSelectionAbis
  context : challenge.contextTokenCount = contextTokenCount
  decode : challenge.decodeTokenCount = decodeTokenCount
  sequence : challenge.sequenceTokenCount = contextTokenCount + decodeTokenCount - 1
  pools : candidatePools sha256 challenge.selectionAbiId challenge.selectionSeed contextTokenCount
    decodeTokenCount =
      .ok (challenge.candidateSequencePositions, challenge.attentionCandidatePositions)
  spec : PoolsSpec contextTokenCount decodeTokenCount challenge.candidateSequencePositions
    challenge.attentionCandidatePositions
  sampled_pairwise : challenge.sampledTokenRows.Pairwise (· < ·)
  sampled_lt : ∀ row ∈ challenge.sampledTokenRows,
    row < challenge.candidateSequencePositions.length
  bottom_pairwise : challenge.bottomAnchorRows.Pairwise (· < ·)
  bottom_lt : ∀ row ∈ challenge.bottomAnchorRows,
    row < challenge.attentionCandidatePositions.length
  positions : atSlots challenge.candidateSequencePositions challenge.bottomAnchorRows =
    .ok challenge.bottomAnchorPositions
  audited_pairwise : challenge.auditedDecodePositions.Pairwise (· < ·)
  audited_subset : challenge.auditedDecodePositions ⊆ coveredDecodePositions
    challenge.candidateSequencePositions contextTokenCount decodeTokenCount
  audited_length : challenge.auditedDecodePositions.length = 1

theorem exists_selectRows (hdense : SamplersDense sha256) {selectionAbiId : Identifier}
    (habi : selectionAbiId ∈ economicSelectionAbis) (seed : Digest) {transitionQueryRows : ℕ}
    {contextTokenCount decodeTokenCount : ℕ} (layers : List ℕ)
    (hrows : transitionQueryRows ≤ 256) (hcontext : 0 < contextTokenCount)
    (hdecode : 0 < decodeTokenCount) (hlength : contextTokenCount + decodeTokenCount < 2 ^ 32) :
    ∃ challenge, selectRows sha256 selectionAbiId seed transitionQueryRows contextTokenCount
        decodeTokenCount layers = .ok challenge ∧
      challenge.selectedLayerIndices = layers ∧
      Drawn sha256 contextTokenCount decodeTokenCount challenge := by
  obtain ⟨candidates, attention, hpools, hspec⟩ :=
    exists_candidatePools hdense selectionAbiId seed hcontext hdecode hlength
  have hcandidates := hspec.candidates_length
  have hattention := hspec.attention_length
  obtain ⟨tokenRows, htokenRows, htokenSorted, -, htokenLt⟩ :=
    exists_samplerDistinct hdense seed (by decide : asciiBytes "token-rows" ∈ samplerLabels)
      (by omega : candidates.length ≤ 2 ^ 32) (by omega : transitionQueryRows ≤ 2 ^ 16)
  obtain ⟨bottomRows, hbottomRows, hbottomSorted, -, hbottomLt⟩ :=
    exists_samplerDistinct hdense seed (by decide : asciiBytes "bottom" ∈ samplerLabels)
      (by omega : attention.length ≤ 2 ^ 32) (by decide : bottomAnchorRowCount ≤ 2 ^ 16)
  obtain ⟨bottomPositions, hbottomPositions, -, -, -⟩ :=
    exists_atSlots hspec.candidates_pairwise hbottomSorted fun row hrow =>
      (hbottomLt row hrow).trans_le hspec.attention_subset
  have hcovered : (coveredDecodePositions candidates contextTokenCount decodeTokenCount).Pairwise
      (· < ·) := List.pairwise_lt_range.filter _
  have hcoveredLength : (coveredDecodePositions candidates contextTokenCount
      decodeTokenCount).length ≤ decodeTokenCount :=
    (List.length_filter_le _ _).trans_eq List.length_range
  have hcoveredPos := List.length_pos_of_mem (zero_mem_covered hspec.candidates_last hdecode)
  obtain ⟨decodeSlots, hdecodeSlots, hslotsSorted, hslotCount, hslotLt⟩ :=
    exists_samplerDistinct hdense seed (by decide : asciiBytes "decode-pos" ∈ samplerLabels)
      (by omega : (coveredDecodePositions candidates contextTokenCount
        decodeTokenCount).length ≤ 2 ^ 32)
      (by decide : auditedDecodePositionCount ≤ 2 ^ 16)
  obtain ⟨decodePositions, hdecodePositions, hdecodeSorted, hdecodeCount, hdecodeSubset⟩ :=
    exists_atSlots hcovered hslotsSorted hslotLt
  have hforwarded : forwardedTokenCount contextTokenCount decodeTokenCount =
      contextTokenCount + decodeTokenCount - 1 := by
    rw [forwardedTokenCount, if_pos (by omega)]
    omega
  have hone : decodePositions.length = 1 := by
    rw [hdecodeCount, hslotCount, auditedDecodePositionCount]
    omega
  refine ⟨{
    selectionAbiId := selectionAbiId
    selectionSeed := seed
    sequenceTokenCount := forwardedTokenCount contextTokenCount decodeTokenCount
    contextTokenCount := contextTokenCount
    decodeTokenCount := decodeTokenCount
    candidateSequencePositions := candidates
    attentionCandidatePositions := attention
    selectedLayerIndices := layers
    sampledTokenRows := tokenRows
    bottomAnchorRows := bottomRows
    bottomAnchorPositions := bottomPositions
    auditedDecodePositions := decodePositions }, ?_, rfl, habi, rfl, rfl, hforwarded, hpools, hspec,
    htokenSorted, htokenLt, hbottomSorted, hbottomLt, hbottomPositions, hdecodeSorted,
    hdecodeSubset, hone⟩
  simp only [selectRows, bind_eq_ok]
  exact ⟨_, hpools, tokenRows, htokenRows, bottomRows, hbottomRows, bottomPositions,
    hbottomPositions, decodeSlots, hdecodeSlots, decodePositions, hdecodePositions, rfl⟩

namespace Drawn

variable {contextTokenCount decodeTokenCount : ℕ} {challenge : EconomicChallengeFields}

theorem postInit_eq_ok (h : Drawn sha256 contextTokenCount decodeTokenCount challenge)
    (hcontext : 0 < contextTokenCount) : challenge.postInit sha256 = .ok () := by
  have hsequence : (challenge.sequenceTokenCount : ℤ) =
      challenge.contextTokenCount + challenge.decodeTokenCount - 1 := by
    rw [h.sequence, h.context, h.decode]
    omega
  have hpools := h.pools
  rw [← h.context, ← h.decode] at hpools
  have haudited := h.audited_subset
  rw [← h.context, ← h.decode] at haudited
  simp only [EconomicChallengeFields.postInit, bind_eq_ok, raiseIf_eq_ok, exists_const, not_or,
    not_not]
  exact ⟨h.abi, hsequence, _, hpools, rfl, rfl, ⟨h.sampled_pairwise, h.sampled_lt⟩,
    ⟨h.bottom_pairwise, h.bottom_lt⟩, _, h.positions, rfl, h.audited_pairwise,
    fun position hposition => haudited hposition⟩

theorem rowsSpec (h : Drawn sha256 contextTokenCount decodeTokenCount challenge) :
    RowsSpec contextTokenCount decodeTokenCount challenge where
  candidates_pairwise := h.spec.candidates_pairwise
  candidates_lt position hposition :=
    (h.spec.candidates_lt position hposition).trans_eq h.sequence.symm
  candidates_last := h.spec.candidates_last
  sampled_lt := h.sampled_lt
  bottom_lt row hrow :=
    ⟨h.bottom_lt row hrow, (h.bottom_lt row hrow).trans_le h.spec.attention_subset⟩
  audited _ hnil := by
    have hone := h.audited_length
    rw [hnil] at hone
    exact nomatch hone

end Drawn

/-! ## The derivation -/

/-- A well-formed challenge. -/
structure WellFormedChallenge (profile : ExecutionSecurityProfile)
    (envelope : ProofV3CommitmentEnvelope) (challenge : EconomicChallengeFields) : Prop where
  layers : LayersSpec profile.val.relationSpec.val challenge.selectedLayerIndices
  rows : RowsSpec envelope.val.contextTokenCount envelope.val.decodeTokenCount challenge

/-- The derivation gives a well-formed challenge exactly when there is a decode token. -/
theorem economicChallenge_derived_iff {sha256 : Bytes → Digest} (hdense : SamplersDense sha256)
    {transcriptDigest : Digest} {profile : ExecutionSecurityProfile}
    {envelope : ProofV3CommitmentEnvelope}
    (habi : profile.val.relationSpec.val.auditPolicy.val.selectionAbiId ∈ economicSelectionAbis)
    (hbound : profile.val.digest sha256 = .ok envelope.val.executionProfileDigest)
    (hlength : envelope.val.contextTokenCount + envelope.val.decodeTokenCount < 2 ^ 32) :
    (∃ challenge, deriveEconomicChallenge sha256 transcriptDigest profile envelope =
        .ok challenge ∧ WellFormedChallenge profile envelope challenge.val) ↔
      0 < envelope.val.decodeTokenCount := by
  have hbounds := layerBounds profile.val.relationSpec
  have hcontext : 0 < envelope.val.contextTokenCount := by
    have henvelope := envelope.property
    simp only [EnvelopeFields.postInit, positiveU32, bind_eq_ok, raiseIf_eq_ok,
      exists_const] at henvelope
    obtain ⟨-, -, -, -, hcount, -⟩ := henvelope
    omega
  constructor
  · rintro ⟨challenge, hderive, -⟩
    simp only [deriveEconomicChallenge, selectRows, bind_eq_ok] at hderive
    obtain ⟨_, -, _, -, _, -, _, -, _, -, _, -, _, -, _, ⟨pools, hpools, -⟩, -⟩ := hderive
    exact pos_of_candidatePools hlength hpools
  · intro hdecode
    let seed := selectionSeed sha256 transcriptDigest envelope.val.executionProfileDigest envelope
      profile.val.relationSpec.val.auditPolicy.val
      (forwardedTokenCount envelope.val.contextTokenCount envelope.val.decodeTokenCount)
    obtain ⟨layers, hlayers, hlayersSpec⟩ := exists_selectLayers hdense seed hbounds
    obtain ⟨challenge, hchallenge, rfl, hdrawn⟩ :=
      exists_selectRows hdense habi seed layers hbounds.rows hcontext hdecode hlength
    refine ⟨⟨challenge, hdrawn.postInit_eq_ok hcontext⟩, ?_, hlayersSpec, hdrawn.rowsSpec⟩
    simp only [deriveEconomicChallenge, bind_eq_ok, raiseIf_eq_ok, exists_const, construct_eq_ok,
      not_not]
    refine ⟨_, hbound, rfl, habi, ?_, ?_, ?_, _, hlayers, challenge, hchallenge, rfl⟩
    · rw [forwardedTokenCount, if_pos (by omega)]
      omega
    · exact not_or.mpr ⟨not_not.mpr hbounds.nodup, by simpa using hbounds.nonempty⟩
    · rw [List.length_map]
      exact not_lt.mpr hbounds.selected

theorem samplersDense_constant : SamplersDense fun _ => constantDigest 1 := by
  intro seed label _ counter _
  refine ⟨counter, le_rfl, Nat.lt_add_of_pos_right (by decide), ?_⟩
  change BigEndian.toNat (constantDigest 1).bytes < 2 ^ 256 - 2 ^ 32
  decide +kernel

/-- An envelope for one prompt token, bound to a profile under the constant hash. -/
def smallEnvelopeFields (decodeTokenCount : ℕ) : EnvelopeFields where
  staticManifestDigest := constantDigest 1
  executionProfileDigest := constantDigest 1
  precommitContextDigest := constantDigest 1
  promptTokenRoot := constantDigest 1
  samplerConfigDigest := constantDigest 1
  cacheLeaseDigest := constantDigest 1
  requestDigest := constantDigest 1
  outputTokenRoot := constantDigest 1
  outputStreamDigest := constantDigest 1
  executionRoot := constantDigest 1
  prefillRoot := constantDigest 1
  cacheTableRoot := constantDigest 1
  contextTokenCount := 1
  decodeTokenCount := decodeTokenCount
  cacheEpoch := 0

/-- An envelope without a decode token. -/
def emptyDecodeEnvelope : ProofV3CommitmentEnvelope :=
  ⟨smallEnvelopeFields 0, by decide +kernel⟩

/-- An envelope with one decode token. -/
def singleDecodeEnvelope : ProofV3CommitmentEnvelope :=
  ⟨smallEnvelopeFields 1, by decide +kernel⟩

/-- An envelope with one decode token has a well-formed challenge. -/
theorem economicChallenge_derived_single :
    ∃ challenge, deriveEconomicChallenge (fun _ => constantDigest 1) (constantDigest 5)
        (smallEconomicProfile economicCompactSelectionAbi) singleDecodeEnvelope = .ok challenge ∧
      WellFormedChallenge (smallEconomicProfile economicCompactSelectionAbi) singleDecodeEnvelope
        challenge.val :=
  (economicChallenge_derived_iff samplersDense_constant (by decide +kernel) (by decide +kernel)
    (by decide +kernel)).mpr (by decide +kernel)

/-- An envelope without a decode token has no challenge, although it is bound to the profile and its
counts are in range. -/
theorem economicChallenge_empty_not_derived :
    (smallEconomicProfile economicCompactSelectionAbi).val.relationSpec.val.auditPolicy.val.selectionAbiId ∈
        economicSelectionAbis ∧
      (smallEconomicProfile economicCompactSelectionAbi).val.digest (fun _ => constantDigest 1) =
        .ok emptyDecodeEnvelope.val.executionProfileDigest ∧
      emptyDecodeEnvelope.val.contextTokenCount + emptyDecodeEnvelope.val.decodeTokenCount <
        2 ^ 32 ∧
      ¬ Accepts (deriveEconomicChallenge (fun _ => constantDigest 1) (constantDigest 5)
        (smallEconomicProfile economicCompactSelectionAbi) emptyDecodeEnvelope) := by
  decide +kernel

end Verathos.ProofV3
