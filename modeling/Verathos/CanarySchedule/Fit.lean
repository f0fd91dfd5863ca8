import Verathos.CanarySchedule.Isolation

/-!
# What a planned canary asks for

The prompt target, the decode length, the shared prefix and the block of a test, by the branch that
plans it. A marked candidate always fits the advertised context. The other requests have decode
lengths of the policy, so they fit only a context that has room for these.
-/

namespace Verathos.CanarySchedule

open CanaryPolicy (CanaryPolicyV3)

/-- The latest block at which a test of a kind is dispatched. -/
def CanaryScheduler.lastBlock (s : CanaryScheduler) (testType : TestType) : ℤ :=
  s.epochStartBlock + s.epochBlocks - s.completionReserve testType

/-- What holds of a test that is planned for an endpoint. -/
structure PlannedWithin (s : CanaryScheduler) (miner : Miner) (test : CanaryTest) : Prop where
  context : test.maxContextLen = miner.maxContextLen
  minimum : test.minimumObservedOutputTokens ≠ 0 →
    1 ≤ test.minimumObservedOutputTokens ∧ test.minimumObservedOutputTokens ≤ test.maxNewTokens
  low : test.testType = .small →
    s.lowContextMaxTokens + max 32 (min s.lowContextMaxDecodeTokens 192) ≤ miner.maxContextLen →
    test.targetPromptTokens + test.maxNewTokens ≤ miner.maxContextLen
  /-- The decode length of the advertised context leaves room for a prompt. -/
  full : test.testType = .fullContext → s.fullContextMaxDecodeTokens < miner.maxContextLen →
    test.targetPromptTokens + test.maxNewTokens ≤ miner.maxContextLen
  marked : s.hardAuditEnabled = true → test.testIndex ≠ 0 →
    test.targetPromptTokens + test.maxNewTokens ≤ miner.maxContextLen
  lowPrefix : test.testType = .small → test.repeatPrefixTargetTokens < test.targetPromptTokens
  /-- So is the one of the hard auditor, when its shortest prompt has two tokens. -/
  hardPrefix : s.hardAuditEnabled = true →
    2 ≤ safeContextTarget s (contextLimit s miner) (decodeCap s miner) →
    test.repeatPrefixTargetTokens < test.targetPromptTokens
  /-- And the one of the compatibility planners, when it is shorter than the advertised prompt. -/
  compatibilityPrefix : s.hardAuditEnabled = false → test.testType = .fullContext →
    repeatPrefixTarget s s.lowContextMinTokens <
      safeContextTarget s miner.maxContextLen s.fullContextMaxDecodeTokens →
    test.repeatPrefixTargetTokens < test.targetPromptTokens
  block : s.epochStartBlock ≤ test.targetBlock ∧
    test.targetBlock < s.epochStartBlock + s.epochBlocks
  /-- Only a marked candidate is planned for a block after the latest dispatch. -/
  dispatch : s.hardAuditEnabled = false ∨ test.testIndex = 0 ∨ s.fullCompletionReserveBlocks = 1 →
    test.targetBlock ≤ s.lastBlock test.testType

section Fit

variable {sha256 : Bytes → Digest} {u : LowerCase} {text : PromptText} {s : CanaryScheduler}
  {miner : Miner}

/-! ## Targets -/

theorem safeContextTarget_bounds (limit reserve : ℤ) :
    1 ≤ safeContextTarget s limit reserve ∧
      (safeContextTarget s limit reserve = 1 ∨
        safeContextTarget s limit reserve ≤ max 1 limit - reserve) := by
  simp only [safeContextTarget]
  omega

theorem safeContextTarget_mono (hs : Bounded s) {limit limit' reserve reserve' : ℤ}
    (hlimit : limit ≤ limit') (hreserve : max s.fullContextDecodeReserveTokens reserve' ≤
      max s.fullContextDecodeReserveTokens reserve) :
    safeContextTarget s limit reserve ≤ safeContextTarget s limit' reserve' := by
  have hbps : 0 ≤ s.advertisedContextTargetBps := by
    have htarget := hs.targetBps
    omega
  have hmono : max 1 limit ≤ max 1 limit' := max_le_max le_rfl hlimit
  have hproduct := Int.ediv_le_ediv (by norm_num : (0 : ℤ) < 10000)
    (mul_le_mul_of_nonneg_right hmono hbps)
  simp only [safeContextTarget]
  exact min_le_min (max_le_max le_rfl hproduct) (max_le_max le_rfl (by omega))

theorem repeatPrefixTarget_le (minimum : ℤ) :
    repeatPrefixTarget s minimum ≤ max 1 (minimum / 2) :=
  min_le_right _ _

/-! ## The tests -/

variable {policy : CanaryPolicyV3}

variable {repeatSeed : Bytes} {testIndex : ℕ} {test : CanaryTest}

theorem plannedWithin_lowTest (hs : FromPolicy policy s) (hindex : testIndex < s.smallCount)
    (h : lowTest sha256 u s miner text repeatSeed (repeatPrefixTarget s s.lowContextMinTokens)
      testIndex = .ok test) : PlannedWithin s miner test := by
  have hlow := hs.bounded.low
  simp only [lowTest, bind_eq_ok, pure_eq_ok] at h
  obtain ⟨seed, -, _, -, block, hblock, rfl⟩ := h
  have htarget := seedInt_bounds sha256 seed "low_tokens"
    (by omega : 0 < s.lowContextMaxTokens - s.lowContextMinTokens + 1)
  have hdecode := seedInt_bounds sha256 seed "low_decode" (by norm_num : (0 : ℤ) < 129)
  have hprefix := repeatPrefixTarget_le (s := s) s.lowContextMinTokens
  have hbounds := targetBlock_bounds sha256 u hs.lowReserve hblock
  have hreserve := hs.lowReserve
  have hlight : ¬ s.hardAuditEnabled = true := fun henabled => by
    have hsmall := (hs.hardAudit henabled).1
    omega
  constructor
  · rfl
  · exact fun hne => absurd rfl hne
  · intro _ hroom
    simp only
    omega
  · intro hfull
    cases hfull
  · exact fun henabled => absurd henabled hlight
  · intro _
    simp only
    omega
  · exact fun henabled => absurd henabled hlight
  · intro _ hfull
    cases hfull
  · simp only
    omega
  · intro _
    exact hbounds.2

/-- The shared prefix of the hard auditor is shorter than its shortest prompt, when that has two
tokens. -/
theorem hardPrefix_lt (h : 2 ≤ safeContextTarget s (contextLimit s miner) (decodeCap s miner)) :
    repeatPrefixTarget s (safeContextTarget s (contextLimit s miner) (decodeCap s miner)) <
      safeContextTarget s (contextLimit s miner) (decodeCap s miner) := by
  have hprefix := repeatPrefixTarget_le (s := s)
    (safeContextTarget s (contextLimit s miner) (decodeCap s miner))
  omega

theorem plannedWithin_advertisedTest (hs : FromPolicy policy s) {repeatTarget : ℤ}
    (hhard : s.hardAuditEnabled = true → testIndex = 0 ∧ repeatTarget =
      repeatPrefixTarget s (safeContextTarget s (contextLimit s miner) (decodeCap s miner)))
    (hcompatibility : s.hardAuditEnabled = false →
      repeatTarget = repeatPrefixTarget s s.lowContextMinTokens)
    (h : advertisedTest sha256 u s miner text repeatSeed repeatTarget testIndex = .ok test) :
    PlannedWithin s miner test := by
  have hdecode := hs.bounded.fullDecode
  have hreserve := hs.fullReserve
  simp only [advertisedTest, bind_eq_ok, pure_eq_ok] at h
  obtain ⟨seed, -, block, hblock, _, -, rfl⟩ := h
  have hbounds := targetBlock_bounds sha256 u hreserve hblock
  have htarget := safeContextTarget_bounds (s := s) miner.maxContextLen
    s.fullContextMaxDecodeTokens
  constructor
  · rfl
  · exact fun hne => absurd rfl hne
  · intro hsmall
    cases hsmall
  · intro _ hroom
    simp only
    omega
  · intro henabled hindex
    exact absurd (hhard henabled).1 hindex
  · intro hsmall
    cases hsmall
  · intro henabled hshortest
    have hprefix := hardPrefix_lt hshortest
    -- the advertised context is at least the qualified one, and its decode length is reserved
    have hmono : safeContextTarget s (contextLimit s miner) (decodeCap s miner) ≤
        safeContextTarget s miner.maxContextLen s.fullContextMaxDecodeTokens :=
      safeContextTarget_mono hs.bounded (min_le_left _ _) (by omega)
    rw [(hhard henabled).2]
    exact lt_of_lt_of_le hprefix hmono
  · intro henabled _ hshorter
    rw [hcompatibility henabled]
    exact hshorter
  · simp only
    omega
  · intro _
    exact hbounds.2

theorem lt_of_mem_candidateEvents (hs : FromPolicy policy s) {basis : List Bytes}
    {events : List (ℕ × Bytes)} (h : candidateEvents sha256 u s miner basis = .ok events) :
    ∀ event ∈ events, event.1 < s.epochBlocks := by
  simp only [candidateEvents, bind_eq_ok] at h
  obtain ⟨drawn, hdrawn, h⟩ := h
  split_ifs at h
  · rw [pure_eq_ok] at h
    rw [← h]
    rintro event hevent
    obtain rfl := List.mem_singleton.mp hevent
    have hepoch := hs.lowReserve
    have hdraw := seedInt_bounds sha256 (derive sha256
      (asciiBytes "VERATHOS/CANARY/MARKED_DROUGHT_EVENT/V3") basis) "forced_candidate_block"
      (by omega : (0 : ℤ) < s.epochBlocks)
    simp only
    omega
  · rw [pure_eq_ok] at h
    rw [← h]
    intro event hevent
    obtain ⟨drawnEvent, hmem, hsome⟩ := List.mem_filterMap.mp hevent
    obtain rfl : drawnEvent = some event := hsome
    have hdrawnEvents : ∀ drawnEvent ∈ drawn, ∀ event, drawnEvent = some event →
        event.1 < s.epochBlocks := by
      refine forall_mem_of_mapM_eq_ok hdrawn fun offset hoffset drawnEvent hok event hsome => ?_
      simp only [candidateEvent, bind_eq_ok, pure_eq_ok] at hok
      obtain ⟨_, -, hok⟩ := hok
      rw [hsome] at hok
      split_ifs at hok
      rw [← Option.some.inj hok]
      exact List.mem_range.mp hoffset
    exact hdrawnEvents _ hmem event rfl

theorem minimumOutput_bounds (hs : Bounded s) {maxNew : ℤ} (hmaxNew : 1 ≤ maxNew) :
    1 ≤ max 1 ((maxNew * s.lateDecodeMinOutputBps + 9999) / 10000) ∧
      max 1 ((maxNew * s.lateDecodeMinOutputBps + 9999) / 10000) ≤ maxNew := by
  have hproduct : maxNew * s.lateDecodeMinOutputBps ≤ maxNew * 10000 :=
    mul_le_mul_of_nonneg_left hs.lateBps.2 (by omega)
  omega

theorem plannedWithin_markedTest (hs : FromPolicy policy s) (henabled : s.hardAuditEnabled = true)
    (hcap : 0 < decodeCap s miner) {forcedOffset : Option ℕ} {event : ℕ × Bytes}
    (hevent : event.1 < s.epochBlocks) (hindex : s.smallCount < testIndex)
    (h : markedTest sha256 s miner text repeatSeed
      (repeatPrefixTarget s (safeContextTarget s (contextLimit s miner) (decodeCap s miner)))
      forcedOffset testIndex event = .ok test) : PlannedWithin s miner test := by
  simp only [markedTest, bind_eq_ok, pure_eq_ok] at h
  obtain ⟨category, -, maxNew, hmaxNew, _, -, rfl⟩ := h
  obtain ⟨_, hdecode, hlow, hhigh⟩ := exists_signedFullDecodeTokens sha256 hcap
    (derive sha256 (asciiBytes "VERATHOS/CANARY/MARKED_PROMPT/V3") [event.2]) category
    s.lowContextMaxDecodeTokens
  obtain rfl := Except.ok.inj (hmaxNew.symm.trans hdecode)
  have htarget := safeContextTarget_bounds (s := s) (contextLimit s miner) maxNew
  have hroom : decodeCap s miner < contextLimit s miner := decodeCap_lt
  have hcontext : contextLimit s miner ≤ miner.maxContextLen := min_le_left _ _
  have hfits : safeContextTarget s (contextLimit s miner) maxNew + maxNew ≤
      miner.maxContextLen := by
    omega
  constructor
  · rfl
  · intro hne
    have hbounds := minimumOutput_bounds hs.bounded hlow
    simp only at hne ⊢
    split_ifs at hne ⊢ with hlate
    · exact hbounds
    · exact absurd rfl hne
  · intro hsmall
    cases hsmall
  · exact fun _ _ => hfits
  · exact fun _ _ => hfits
  · intro hsmall
    cases hsmall
  · intro _ hshortest
    have hmono : safeContextTarget s (contextLimit s miner) (decodeCap s miner) ≤
        safeContextTarget s (contextLimit s miner) maxNew :=
      safeContextTarget_mono hs.bounded le_rfl (by omega)
    exact lt_of_lt_of_le (hardPrefix_lt hshortest) hmono
  · intro hlight
    rw [henabled] at hlight
    cases hlight
  · simp only
    omega
  · rintro (hlight | hzero | hreserve)
    · rw [henabled] at hlight
      cases hlight
    · simp only at hzero
      omega
    · simp only [CanaryScheduler.lastBlock, CanaryScheduler.completionReserve, hreserve]
      omega

theorem plannedWithin_of_planMiner (hs : FromPolicy policy s) {tests : List CanaryTest}
    (h : planMiner sha256 u s miner text = .ok tests) :
    ∀ test ∈ tests, PlannedWithin s miner test := by
  refine mem_planMiner_cases ?_ ?_ ?_ ?_ h
  · intro repeatSeed testIndex test hindex hok
    exact plannedWithin_lowTest hs hindex hok
  · intro hlight repeatSeed testIndex test hok
    refine plannedWithin_advertisedTest hs (fun henabled => ?_) (fun _ => rfl) hok
    rw [hlight] at henabled
    exact nomatch henabled
  · intro henabled _ repeatSeed test hok
    refine plannedWithin_advertisedTest hs (fun _ => ⟨(hs.hardAudit henabled).1, rfl⟩)
      (fun hlight => ?_) hok
    rw [henabled] at hlight
    exact nomatch hlight
  · intro henabled hcap repeatSeed forcedOffset testIndex event basis events test hevents hmem
      hindex hok
    exact plannedWithin_markedTest hs henabled hcap (lt_of_mem_candidateEvents hs hevents event hmem)
      hindex hok

end Fit

end Verathos.CanarySchedule
