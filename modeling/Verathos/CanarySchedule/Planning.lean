import Verathos.CanaryPolicy.Records
import Verathos.CanarySchedule.Defs

/-!
# What the planner returns

The parameters of a scheduler are the ones of a signed policy (`FromPolicy`), and the numbers of the
policy keep every step of the planner in its range. The planner then returns for an endpoint unless
the hard auditor has no room for a prompt and a token (`exists_planMiner_iff`).
-/

namespace Verathos.CanarySchedule

open CanaryPolicy (CanaryPolicyV3 u32_eq_ok refuseIf_eq_ok)

/-! ## Schedulers of a policy -/

/-- The parameters of a scheduler come from a policy, its epoch has room for the candidates and the
completion reserves, and its inventory is the one of the hard auditor or of a light validator. The
numbers that are hashed fit their widths. -/
structure FromPolicy (policy : CanaryPolicyV3) (s : CanaryScheduler) : Prop where
  accepted : policy.checkNumbers = .ok ()
  lowContextMinTokens : s.lowContextMinTokens = policy.lowContextMinTokens
  lowContextMaxTokens : s.lowContextMaxTokens = policy.lowContextMaxTokens
  lowContextMaxDecodeTokens : s.lowContextMaxDecodeTokens = policy.lowContextMaxDecodeTokens
  fullContextDecodeReserveTokens :
    s.fullContextDecodeReserveTokens = policy.fullContextDecodeReserveTokens
  fullContextMaxDecodeTokens : s.fullContextMaxDecodeTokens = policy.fullContextMaxDecodeTokens
  fullContextMaxAttempts : s.fullContextMaxAttempts = policy.fullContextMaxAttempts
  hardCandidateTargetPerEpoch :
    s.hardCandidateTargetPerEpoch = policy.hardAuditorCandidateTargetPerEpoch
  hardCandidateBps : s.hardCandidateBps = policy.hardAuditorCandidateHardBps
  advertisedContextTargetBps : s.advertisedContextTargetBps = policy.advertisedContextTargetBps
  hardDecodeAnchorBps : s.hardDecodeAnchorBps = policy.hardDecodeAnchorBps
  hardDecodeTailBps : s.hardDecodeTailBps = policy.hardDecodeTailBps
  lateDecodeMinOutputBps : s.lateDecodeMinOutputBps = policy.lateDecodeMinOutputBps
  repeatPrefixTargetBps : s.repeatPrefixTargetBps = policy.repeatPrefixTargetBps
  repeatPrefixMinTokens : s.repeatPrefixMinTokens = policy.repeatPrefixMinTokens
  candidates : policy.hardAuditorCandidateTargetPerEpoch ≤ s.epochBlocks
  lowReserve : 1 ≤ s.lowCompletionReserveBlocks ∧ s.lowCompletionReserveBlocks < s.epochBlocks
  fullReserve : 1 ≤ s.fullCompletionReserveBlocks ∧ s.fullCompletionReserveBlocks < s.epochBlocks
  hardAudit : s.hardAuditEnabled = true →
    s.smallCount = 0 ∧ s.advertisedContextLightCount = 1 ∧ s.fullContextCount = 0
  inventory : s.smallCount + s.advertisedContextLightCount + s.fullContextCount ≤ 256 ^ 4
  epochNumber : s.epochNumber < 256 ^ 8
  epochBlocks : s.epochBlocks ≤ 256 ^ 8

/-- The ranges of the numbers of such a scheduler. -/
structure Bounded (s : CanaryScheduler) : Prop where
  low : 128 ≤ s.lowContextMinTokens ∧ s.lowContextMinTokens ≤ s.lowContextMaxTokens
  lowDecode : 1 ≤ s.lowContextMaxDecodeTokens
  fullDecode : 1 ≤ s.fullContextMaxDecodeTokens ∧
    s.fullContextMaxDecodeTokens ≤ s.fullContextDecodeReserveTokens
  candidates : 1 ≤ s.hardCandidateTargetPerEpoch ∧ s.hardCandidateTargetPerEpoch ≤ s.epochBlocks
  hardBps : 0 < s.hardCandidateBps ∧ s.hardCandidateBps < 10000
  targetBps : 1 ≤ s.advertisedContextTargetBps ∧ s.advertisedContextTargetBps ≤ 10000
  decodeBps : 2500 ≤ s.hardDecodeAnchorBps ∧ 1000 ≤ s.hardDecodeTailBps ∧
    s.hardDecodeAnchorBps + s.hardDecodeTailBps < 10000
  lateBps : 8000 ≤ s.lateDecodeMinOutputBps ∧ s.lateDecodeMinOutputBps ≤ 10000
  repeatMin : 64 ≤ s.repeatPrefixMinTokens ∧
    s.repeatPrefixMinTokens ≤ s.lowContextMinTokens / 2

theorem FromPolicy.bounded {policy : CanaryPolicyV3} {s : CanaryScheduler}
    (h : FromPolicy policy s) : Bounded s := by
  have hnumbers := h.accepted
  simp only [CanaryPolicyV3.checkNumbers, bind_eq_ok, u32_eq_ok, refuseIf_eq_ok, exists_const,
    Json.int.injEq, and_assoc, exists_eq_left'] at hnumbers
  have hcandidates := h.candidates
  obtain ⟨-, hmin, hmax, hlowDecode, hreserve, hfull, -, htarget, hbps, hadvertised, hanchor, htail,
    hlate, -, hrepeat, -⟩ := h
  constructor
  · rw [hmin, hmax]
    omega
  · rw [hlowDecode]
    omega
  · rw [hfull, hreserve]
    omega
  · rw [htarget]
    omega
  · rw [hbps]
    omega
  · rw [hadvertised]
    omega
  · rw [hanchor, htail]
    omega
  · rw [hlate]
    omega
  · rw [hrepeat, hmin]
    omega

/-! ## Draws -/

section Draws

variable (sha256 : Bytes → Digest)

@[simp]
theorem length_derive (domain : Bytes) (parts : List Bytes) :
    (derive sha256 domain parts).length = 32 := by
  rw [derive, Digest.length_eq]

theorem toBytesBig_eq {width value : ℕ} (h : value < 256 ^ width) :
    toBytesBig width value = .ok (BigEndian.toBytes width value) := by
  rw [toBytesBig, raiseIf, if_neg (not_le.mpr h)]
  rfl

theorem seedInt_bounds (seed : Bytes) (label : String) {modulus : ℤ} (h : 0 < modulus) :
    0 ≤ seedInt sha256 seed label modulus ∧ seedInt sha256 seed label modulus < modulus := by
  rw [seedInt, if_neg (not_le.mpr h)]
  exact ⟨Int.emod_nonneg _ h.ne', Int.emod_lt_of_pos _ h⟩

theorem exists_getItem_seedInt {α : Type} {items : List α} (h : items ≠ []) (seed : Bytes)
    (label : String) :
    ∃ item ∈ items, getItem items (seedInt sha256 seed label items.length).toNat = .ok item := by
  have hlength : 0 < items.length := List.length_pos_iff.mpr h
  obtain ⟨hnonneg, hlt⟩ := seedInt_bounds sha256 seed label
    (by exact_mod_cast hlength : (0 : ℤ) < items.length)
  have hplace : (seedInt sha256 seed label items.length).toNat < items.length := by
    omega
  exact ⟨_, List.getElem_mem hplace, getItem_eq_ok.mpr (List.getElem?_eq_getElem hplace)⟩

/-! ## Decode lengths -/

theorem bandsFrom_bounds (cap : ℤ) (fuel : ℕ) {lower : ℤ} (hlower : 1 ≤ lower) :
    ∀ band ∈ bandsFrom cap fuel lower, lower ≤ band.1 ∧ band.1 ≤ band.2 ∧ band.2 ≤ cap := by
  induction fuel generalizing lower with
  | zero => exact fun _ hband => nomatch hband
  | succ fuel ih =>
    rw [bandsFrom]
    split_ifs with hcap
    · refine List.forall_mem_cons.mpr ⟨by simp only; omega, fun band hband => ?_⟩
      have hbounds := ih (by omega) band hband
      omega
    · exact fun _ hband => nomatch hband

theorem bandsFrom_pairwise (cap : ℤ) (fuel : ℕ) {lower : ℤ} (hlower : 1 ≤ lower) :
    (bandsFrom cap fuel lower).Pairwise fun a b => a.2 < b.1 := by
  induction fuel generalizing lower with
  | zero => exact .nil
  | succ fuel ih =>
    rw [bandsFrom]
    split_ifs with hcap
    · refine List.pairwise_cons.mpr ⟨fun band hband => ?_, ih (by omega)⟩
      have hbounds := bandsFrom_bounds cap fuel (by omega) band hband
      simp only
      omega
    · exact .nil

/-- The bands cover the whole range: the loop ends because the cap is reached. -/
theorem bandsFrom_covers {cap : ℤ} {fuel : ℕ} (lower : ℤ) {n : ℤ} (hlower : 1 ≤ lower)
    (hfuel : cap < lower + fuel) (hn : lower ≤ n) (hcap : n ≤ cap) :
    ∃ band ∈ bandsFrom cap fuel lower, band.1 ≤ n ∧ n ≤ band.2 := by
  induction fuel generalizing lower with
  | zero => omega
  | succ fuel ih =>
    simp only [bandsFrom]
    rw [if_pos (by omega)]
    by_cases hband : n ≤ min cap (2 * lower - 1)
    · exact ⟨_, List.mem_cons_self, hn, hband⟩
    · obtain ⟨band, hmem, hbounds⟩ := ih (min cap (2 * lower - 1) + 1) (by omega)
        (by omega) (by omega)
      exact ⟨band, List.mem_cons_of_mem _ hmem, hbounds⟩

theorem mergeSingleton_cases (bands : List (ℤ × ℤ)) :
    mergeSingleton bands = bands ∨ ∃ rest previous last, bands = rest ++ [previous, last] ∧
      last.1 = last.2 ∧ mergeSingleton bands = rest ++ [(previous.1, last.2)] := by
  rw [mergeSingleton]
  split
  · rename_i last previous rest hreverse
    have hbands : bands = rest.reverse ++ [previous, last] := by
      simpa using congrArg List.reverse hreverse
    split_ifs with hsingle
    · exact .inr ⟨rest.reverse, previous, last, hbands, hsingle, rfl⟩
    · exact .inl rfl
  · exact .inl rfl

theorem exists_logUniformDecodeBands {cap : ℤ} (hcap : 0 < cap) :
    ∃ bands, logUniformDecodeBands cap = .ok bands ∧
      (∀ band ∈ bands, 1 ≤ band.1 ∧ band.1 ≤ band.2 ∧ band.2 ≤ cap) ∧
      ∀ n, 1 ≤ n → n ≤ cap → ∃ band ∈ bands, band.1 ≤ n ∧ n ≤ band.2 := by
  have hbounds := bandsFrom_bounds cap cap.toNat le_rfl
  have hpairwise := bandsFrom_pairwise cap cap.toNat le_rfl
  have hcovers : ∀ n, 1 ≤ n → n ≤ cap → ∃ band ∈ bandsFrom cap cap.toNat 1,
      band.1 ≤ n ∧ n ≤ band.2 := fun n hn hle => bandsFrom_covers 1 le_rfl (by omega) hn hle
  refine ⟨_, bind_eq_ok.mpr ⟨(), raiseIf_eq_ok.mpr (by omega), rfl⟩, ?_⟩
  rcases mergeSingleton_cases (bandsFrom cap cap.toNat 1) with
    hsame | ⟨rest, previous, last, hbands, hsingle, hmerged⟩
  · rw [hsame]
    exact ⟨hbounds, hcovers⟩
  · rw [hmerged]
    rw [hbands] at hbounds hpairwise hcovers
    have hlast := hbounds last (by simp)
    have hprevious := hbounds previous (by simp)
    have horder : previous.2 < last.1 := by
      simpa using (List.pairwise_append.mp hpairwise).2.1
    constructor
    · intro band hband
      rcases List.mem_append.mp hband with hrest | hmerge
      · exact hbounds band (List.mem_append_left _ hrest)
      · obtain rfl := List.mem_singleton.mp hmerge
        simp only
        omega
    · intro n hn hle
      obtain ⟨band, hband, hlow, hhigh⟩ := hcovers n hn hle
      rcases List.mem_append.mp hband with hrest | htail
      · exact ⟨band, List.mem_append_left _ hrest, hlow, hhigh⟩
      · refine ⟨_, List.mem_append_right _ (List.mem_singleton_self _), ?_⟩
        simp only [List.mem_cons, List.not_mem_nil, or_false] at htail
        rcases htail with rfl | rfl
        · simp only
          omega
        · simp only
          omega

theorem exists_signedFullDecodeTokens {cap : ℤ} (hcap : 0 < cap) (seed : Bytes)
    (category : DecodeCategory) (commonMax : ℤ) :
    ∃ n, signedFullDecodeTokens sha256 seed category cap commonMax = .ok n ∧ 1 ≤ n ∧ n ≤ cap := by
  have hpositive : raiseIf (cap ≤ 0) (valueError "hard-decode cap must be positive") = .ok () :=
    raiseIf_eq_ok.mpr (not_le.mpr hcap)
  cases category with
  | common =>
    refine ⟨_, bind_eq_ok.mpr ⟨(), hpositive, rfl⟩, ?_⟩
    have hdraw := seedInt_bounds sha256 seed "full_decode_common"
      (by omega : 0 < min cap (max (min 64 cap) commonMax) - min 64 cap + 1)
    omega
  | anchor =>
    have hne : (canaryHardDecodeAnchors.map fun value => min cap value).eraseDups ≠ [] := by
      simp [canaryHardDecodeAnchors, List.eraseDups_cons]
    obtain ⟨anchor, hmem, hitem⟩ := exists_getItem_seedInt sha256 hne seed
      "full_decode_anchor"
    refine ⟨anchor, bind_eq_ok.mpr ⟨(), hpositive, hitem⟩, ?_⟩
    obtain ⟨value, hvalue, rfl⟩ := List.mem_map.mp (List.mem_eraseDups.mp hmem)
    have hlarge : 512 ≤ value := by
      simp only [canaryHardDecodeAnchors, List.mem_cons, List.not_mem_nil, or_false] at hvalue
      omega
    omega
  | tail =>
    obtain ⟨bands, hbands, hbounds, hcovers⟩ := exists_logUniformDecodeBands hcap
    obtain ⟨first, hfirst, -⟩ := hcovers 1 le_rfl (by omega)
    obtain ⟨band, hmem, hitem⟩ := exists_getItem_seedInt sha256
      (List.ne_nil_of_mem hfirst) seed "full_decode_tail_band"
    have hband := hbounds band hmem
    refine ⟨_, bind_eq_ok.mpr ⟨(), hpositive, bind_eq_ok.mpr ⟨bands, hbands,
      bind_eq_ok.mpr ⟨band, hitem, rfl⟩⟩⟩, ?_⟩
    have hdraw := seedInt_bounds sha256 seed "full_decode_tail_offset"
      (by omega : 0 < band.2 - band.1 + 1)
    omega

/-- The rates leave every category, as those of a policy do. -/
def CanaryScheduler.RatesValid (s : CanaryScheduler) : Prop :=
  2500 ≤ s.hardDecodeAnchorBps ∧ 1000 ≤ s.hardDecodeTailBps ∧
    s.hardDecodeAnchorBps + s.hardDecodeTailBps < 10000

theorem exists_independentFullDecodeCategory {s : CanaryScheduler} (hrates : s.RatesValid)
    (seed : Bytes) :
    ∃ category, independentFullDecodeCategory sha256 seed s.hardDecodeAnchorBps
      s.hardDecodeTailBps = .ok category := by
  rw [CanaryScheduler.RatesValid] at hrates
  exact ⟨_, bind_eq_ok.mpr ⟨(), raiseIf_eq_ok.mpr (by omega), rfl⟩⟩

theorem renderSecretSeededPrompt_eq (text : PromptText) {seed : Bytes} (hseed : seed.length = 32)
    (characterBudget : ℤ) (fullContext : Bool) {minimumOutputTokens : ℤ}
    (hminimum : 0 ≤ minimumOutputTokens) :
    renderSecretSeededPrompt text seed characterBudget fullContext minimumOutputTokens =
      .ok (text seed (max characterBudget 256) fullContext minimumOutputTokens) := by
  rw [renderSecretSeededPrompt, raiseIf, raiseIf, if_neg (not_not.mpr hseed),
    if_neg (not_lt.mpr hminimum)]
  rfl

/-! ## Seeds and blocks -/

variable (u : LowerCase) {s : CanaryScheduler} {miner : Miner}

/-- The numbers that name the epoch and the endpoint fit their widths. -/
structure Named (s : CanaryScheduler) (miner : Miner) : Prop where
  epochNumber : s.epochNumber < 256 ^ 8
  modelIndex : miner.modelIndex < 256 ^ 4

theorem exists_scheduleBasis (h : Named s miner) : ∃ basis, scheduleBasis u s miner = .ok basis :=
  ⟨_, bind_eq_ok.mpr ⟨_, toBytesBig_eq h.epochNumber,
    bind_eq_ok.mpr ⟨_, toBytesBig_eq h.modelIndex, rfl⟩⟩⟩

variable {testIndex : ℕ}

theorem exists_testSeed (h : Named s miner) (hindex : testIndex < 256 ^ 4) :
    ∃ seed, testSeed sha256 u s miner testIndex = .ok seed := by
  obtain ⟨basis, hbasis⟩ := exists_scheduleBasis u h
  exact ⟨_, bind_eq_ok.mpr ⟨basis, hbasis, bind_eq_ok.mpr ⟨_, toBytesBig_eq hindex, rfl⟩⟩⟩

theorem length_testSeed {seed : Bytes} (h : testSeed sha256 u s miner testIndex = .ok seed) :
    seed.length = 32 := by
  simp only [testSeed, bind_eq_ok, pure_eq_ok] at h
  obtain ⟨_, -, _, -, rfl⟩ := h
  exact length_derive sha256 _ _

theorem exists_repeatPrefixSeed (h : Named s miner) (group : String) :
    ∃ seed, repeatPrefixSeed sha256 u s miner group = .ok seed := by
  obtain ⟨basis, hbasis⟩ := exists_scheduleBasis u h
  exact ⟨_, bind_eq_ok.mpr ⟨basis, hbasis, rfl⟩⟩

variable {reserve : ℤ}

theorem latestDispatchBlock_eq (hreserve : 1 ≤ reserve ∧ reserve < s.epochBlocks) :
    latestDispatchBlock s reserve = .ok (s.epochStartBlock + s.epochBlocks - reserve) := by
  rw [latestDispatchBlock, raiseIf, raiseIf, if_neg (by omega), if_neg (by omega)]
  rfl

theorem drawn_block_bounds {first last : ℤ} (h : first ≤ last) (draw : ℤ) :
    first ≤ first + draw % (last - first + 1) ∧ first + draw % (last - first + 1) ≤ last := by
  have hnonneg := Int.emod_nonneg draw (by omega : last - first + 1 ≠ 0)
  have hlt := Int.emod_lt_of_pos draw (by omega : 0 < last - first + 1)
  constructor
  · exact le_add_of_nonneg_right hnonneg
  · omega

theorem exists_targetBlock (h : Named s miner) (hindex : testIndex < 256 ^ 4)
    (hreserve : 1 ≤ reserve ∧ reserve < s.epochBlocks) :
    ∃ block, targetBlock sha256 u s miner testIndex reserve = .ok block := by
  simp only [targetBlock, toBytesBig_eq h.epochNumber, toBytesBig_eq h.modelIndex,
    toBytesBig_eq hindex, latestDispatchBlock_eq hreserve, bind_eq_ok, Except.ok.injEq,
    exists_eq_left', pure_eq_ok, exists_eq']

theorem targetBlock_bounds {block : ℤ} (hreserve : 1 ≤ reserve ∧ reserve < s.epochBlocks)
    (h : targetBlock sha256 u s miner testIndex reserve = .ok block) :
    s.epochStartBlock ≤ block ∧ block ≤ s.epochStartBlock + s.epochBlocks - reserve := by
  simp only [targetBlock, latestDispatchBlock_eq hreserve, bind_eq_ok, pure_eq_ok,
    Except.ok.injEq, exists_eq_left'] at h
  obtain ⟨_, -, _, -, _, -, rfl⟩ := h
  exact drawn_block_bounds (by omega) _

/-! ## Limits of a model -/

theorem qualifiedLimits_bounds (s : CanaryScheduler) (miner : Miner) :
    2 ≤ (qualifiedLimits s miner).1 ∧ 1 ≤ (qualifiedLimits s miner).2 := by
  simp only [qualifiedLimits]
  split_ifs with h
  · exact ⟨le_max_left _ _, le_max_left _ _⟩
  · rw [not_or, not_le, not_le] at h
    simp only
    omega

/-- There is room for a prompt and a token exactly when the advertised context holds two tokens. -/
theorem decodeCap_pos_iff : 0 < decodeCap s miner ↔ 2 ≤ miner.maxContextLen := by
  have hlimits := qualifiedLimits_bounds s miner
  rw [decodeCap, contextLimit]
  omega

theorem decodeCap_lt : decodeCap s miner < contextLimit s miner := by
  rw [decodeCap]
  omega

/-! ## Tests -/

variable (text : PromptText) (repeatSeed : Bytes) (repeatTarget : ℤ)

variable {policy : CanaryPolicyV3}

theorem exists_lowTest (hs : FromPolicy policy s) (h : Named s miner) (hindex : testIndex < 256 ^ 4)
    :
    ∃ test, lowTest sha256 u s miner text repeatSeed repeatTarget testIndex = .ok test := by
  obtain ⟨seed, hseed⟩ := exists_testSeed sha256 u h hindex
  obtain ⟨block, hblock⟩ := exists_targetBlock sha256 u h hindex hs.lowReserve
  have hlength := length_testSeed sha256 u hseed
  simp only [lowTest, hseed, hblock, renderSecretSeededPrompt_eq text hlength _ _ le_rfl, bind_eq_ok,
    Except.ok.injEq, exists_eq_left', pure_eq_ok, exists_eq']

theorem exists_advertisedTest (hs : FromPolicy policy s) (h : Named s miner)
    (hindex : testIndex < 256 ^ 4) :
    ∃ test, advertisedTest sha256 u s miner text repeatSeed repeatTarget testIndex = .ok test := by
  obtain ⟨seed, hseed⟩ := exists_testSeed sha256 u h hindex
  obtain ⟨block, hblock⟩ := exists_targetBlock sha256 u h hindex hs.fullReserve
  have hlength := length_testSeed sha256 u hseed
  simp only [advertisedTest, hseed, hblock, renderSecretSeededPrompt_eq text hlength _ _ le_rfl,
    bind_eq_ok, Except.ok.injEq, exists_eq_left', pure_eq_ok, exists_eq']

theorem exists_markedTest (hrates : s.RatesValid) (hcap : 0 < decodeCap s miner)
    (forcedOffset : Option ℕ) (testIndex : ℕ) (event : ℕ × Bytes) :
    ∃ test, markedTest sha256 s miner text repeatSeed repeatTarget forcedOffset testIndex event =
      .ok test := by
  obtain ⟨category, hcategory⟩ := exists_independentFullDecodeCategory sha256 hrates
    (derive sha256 (asciiBytes "VERATHOS/CANARY/MARKED_PROMPT/V3") [event.2])
  obtain ⟨maxNew, hmaxNew, hpositive, -⟩ := exists_signedFullDecodeTokens sha256 hcap
    (derive sha256 (asciiBytes "VERATHOS/CANARY/MARKED_PROMPT/V3") [event.2]) category
    s.lowContextMaxDecodeTokens
  have hminimum : 0 ≤ if maxNew > s.lowContextMaxDecodeTokens then
      max 1 ((maxNew * s.lateDecodeMinOutputBps + 9999) / 10000) else 0 := by
    split_ifs
    · exact le_max_of_le_left zero_le_one
    · exact le_rfl
  simp only [markedTest, hcategory, hmaxNew,
    renderSecretSeededPrompt_eq text (length_derive sha256 _ _) _ _ hminimum, bind_eq_ok,
    Except.ok.injEq, exists_eq_left', pure_eq_ok, exists_eq']

/-! ## Candidates -/

/-- The candidates are drawn, each at a block of the epoch, and there is one when an audit is due. -/
theorem exists_candidateEvents (hs : FromPolicy policy s) (basis : List Bytes) :
    ∃ events, candidateEvents sha256 u s miner basis = .ok events ∧
      (hardAuditDue u s miner = true → events ≠ []) := by
  have hdrawn : ∃ drawn, (List.range s.epochBlocks).mapM (candidateEvent sha256 s basis) =
      .ok drawn := by
    refine exists_mapM_iff.mpr fun offset hoffset => ?_
    have hlt : offset < 256 ^ 8 := lt_of_lt_of_le (List.mem_range.mp hoffset) hs.epochBlocks
    exact ⟨_, bind_eq_ok.mpr ⟨_, toBytesBig_eq hlt, rfl⟩⟩
  obtain ⟨drawn, hdrawn⟩ := hdrawn
  by_cases hforced : hardAuditDue u s miner = true ∧ drawn.filterMap id = []
  · refine ⟨_, bind_eq_ok.mpr ⟨drawn, hdrawn, if_pos hforced⟩, fun _ => List.cons_ne_nil _ _⟩
  · refine ⟨_, bind_eq_ok.mpr ⟨drawn, hdrawn, if_neg hforced⟩, fun hdue hempty => ?_⟩
    exact hforced ⟨hdue, hempty⟩

theorem exists_forcedHardOffset (basis : List Bytes) {events : List (ℕ × Bytes)}
    (hevents : hardAuditDue u s miner = true → events ≠ []) :
    ∃ offset, forcedHardOffset sha256 u s miner basis events = .ok offset := by
  rw [forcedHardOffset]
  split_ifs with hdue
  · obtain ⟨event, -, hevent⟩ := exists_getItem_seedInt sha256 (hevents hdue)
      (derive sha256 (asciiBytes "VERATHOS/CANARY/MARKED_DROUGHT_SELECT/V3") basis)
      "forced_candidate_index"
    exact ⟨some event.1, bind_eq_ok.mpr ⟨event, hevent, rfl⟩⟩
  · exact ⟨none, rfl⟩

/-! ## The plan of an endpoint -/

theorem checkHardAudit_eq (hs : Bounded s)
    (hcounts : s.advertisedContextLightCount = 1 ∧ s.fullContextCount = 0) :
    checkHardAudit s = .ok () := by
  obtain ⟨-, -, -, hcandidates, hbps, -, -, hlate, -⟩ := hs
  simp only [checkHardAudit, bind_eq_ok, raiseIf_eq_ok, not_or, not_not, exists_const]
  omega

theorem exists_hardAuditTests_iff (hs : FromPolicy policy s) (h : Named s miner)
    (henabled : s.hardAuditEnabled = true) :
    (∃ tests, hardAuditTests sha256 u s miner text s.smallCount = .ok tests) ↔
      2 ≤ miner.maxContextLen := by
  obtain ⟨hsmall, hcounts⟩ := hs.hardAudit henabled
  rw [← decodeCap_pos_iff]
  constructor
  · rintro ⟨tests, htests⟩
    simp only [hardAuditTests, bind_eq_ok, raiseIf_eq_ok] at htests
    obtain ⟨-, -, -, hcap, -⟩ := htests
    exact not_le.mp hcap
  · intro hcap
    have hindex : s.smallCount < 256 ^ 4 := by
      rw [hsmall]
      exact Nat.pow_pos (by omega)
    obtain ⟨repeatSeed, hrepeat⟩ := exists_repeatPrefixSeed sha256 u h "marked_full"
    obtain ⟨advertised, hadvertised⟩ := exists_advertisedTest sha256 u text repeatSeed
      (repeatPrefixTarget s (safeContextTarget s (contextLimit s miner) (decodeCap s miner))) hs h
      hindex
    obtain ⟨basis, hbasis⟩ := exists_scheduleBasis u h
    have hcandidates : ∃ events, candidateEvents sha256 u s miner basis = .ok events ∧
        (hardAuditDue u s miner = true → events ≠ []) := exists_candidateEvents sha256 u hs basis
    obtain ⟨events, hevents, hne⟩ := hcandidates
    obtain ⟨offset, hoffset⟩ := exists_forcedHardOffset sha256 u basis hne
    have hmarked : ∃ marked, ((events.insertionSort eventLe).zipIdx (s.smallCount + 1)).mapM
        (fun item => markedTest sha256 s miner text repeatSeed
          (repeatPrefixTarget s (safeContextTarget s (contextLimit s miner) (decodeCap s miner)))
          offset item.2 item.1) = .ok marked :=
      exists_mapM_iff.mpr fun item _ =>
        exists_markedTest sha256 text repeatSeed _ hs.bounded.decodeBps hcap offset item.2 item.1
    have hroom : ∀ error, raiseIf (decodeCap s miner ≤ 0) error = .ok () := fun _ =>
      raiseIf_eq_ok.mpr (not_le.mpr hcap)
    simp only [hardAuditTests, checkHardAudit_eq hs.bounded hcounts, hroom, hrepeat, hadvertised,
      hbasis, hevents, hoffset, bind_eq_ok, Except.ok.injEq, exists_eq_left', pure_eq_ok,
      exists_const, true_and]
    obtain ⟨marked, hmarked⟩ := hmarked
    exact ⟨_, marked, hmarked, rfl⟩

theorem exists_compatibilityTests (hs : FromPolicy policy s) (h : Named s miner) :
    ∃ tests, compatibilityTests sha256 u s miner text repeatSeed repeatTarget = .ok tests := by
  refine exists_mapM_iff.mpr fun index hmem => ?_
  have hinventory := hs.inventory
  have hindex : index < 256 ^ 4 := by
    obtain ⟨hlow, hhigh⟩ := List.mem_range'_1.mp hmem
    omega
  exact exists_advertisedTest sha256 u text repeatSeed repeatTarget hs h hindex

theorem exists_planMiner_iff (hs : FromPolicy policy s) (h : Named s miner) :
    (∃ tests, planMiner sha256 u s miner text = .ok tests) ↔
      (s.hardAuditEnabled = true → 2 ≤ miner.maxContextLen) := by
  obtain ⟨repeatSeed, hrepeat⟩ := exists_repeatPrefixSeed sha256 u h "low"
  have hcounts : ∀ error, raiseIf (s.hardAuditEnabled = true ∧ s.smallCount ≠ 0) error = .ok () :=
    fun _ => raiseIf_eq_ok.mpr fun h => h.2 (hs.hardAudit h.1).1
  have hlow : ∃ low, (List.range s.smallCount).mapM (lowTest sha256 u s miner text repeatSeed
      (repeatPrefixTarget s s.lowContextMinTokens)) = .ok low := by
    refine exists_mapM_iff.mpr fun index hmem => ?_
    have hinventory := hs.inventory
    have hindex : index < 256 ^ 4 := by
      have hlt := List.mem_range.mp hmem
      omega
    exact exists_lowTest sha256 u text repeatSeed _ hs h hindex
  obtain ⟨low, hlow⟩ := hlow
  simp only [planMiner, hrepeat, hcounts, hlow, bind_eq_ok, Except.ok.injEq, exists_eq_left',
    pure_eq_ok, exists_const, true_and]
  rw [exists_comm]
  simp only [exists_and_left, exists_eq', and_true]
  rw [fullTests]
  split_ifs with henabled
  · rw [exists_hardAuditTests_iff sha256 u text hs h henabled]
    exact ⟨fun hlen _ => hlen, fun hlen => hlen henabled⟩
  · exact iff_of_true (exists_compatibilityTests sha256 u text repeatSeed _ hs h)
      fun hcontra => absurd hcontra henabled

end Draws

end Verathos.CanarySchedule
