import Verathos.Scoring.Defs

/-!
# Medians of signers

A signer contributes one median to a sample, however many receipts it signs. With three signers or
more the median of their medians stays in the range of the others.

* `signerSamples`: what counts of the receipts of a signer;
* `signersMedian_between`: a median over signers does not leave the range of the others;
* `Repeats`: all receipts of a signer a number of times more;
* `medians_resist_signer`: both functions that take medians over signers are robust.
-/

namespace Verathos.Scoring

open Median OrderedDict

/-! ## Samples of a signer -/

/-- The receipt counts as a sample. -/
def Counts (perf : ServiceReceipt → ℚ) (receipt : ServiceReceipt) : Prop :=
  receipt.proofFailed = false ∧ 0 < perf receipt ∧ receipt.validatorHotkey.length = 32

instance (perf : ServiceReceipt → ℚ) (receipt : ServiceReceipt) : Decidable (Counts perf receipt) :=
  inferInstanceAs (Decidable (_ ∧ _))

/-- The accepted positive samples of a signer. -/
def signerSamples (perf : ServiceReceipt → ℚ) (receipts : List ServiceReceipt) (signer : Bytes) :
    List ℚ :=
  (receipts.filter fun r => Counts perf r ∧ r.validatorHotkey = signer).map perf

/-- The signers with a positive accepted sample. -/
def signers (perf : ServiceReceipt → ℚ) (receipts : List ServiceReceipt) : Finset Bytes :=
  (receipts.map ServiceReceipt.validatorHotkey).toFinset.filter fun signer =>
    signerSamples perf receipts signer ≠ []

variable {perf : ServiceReceipt → ℚ} {receipts receipts' : List ServiceReceipt} {signer : Bytes}

theorem mem_signers : signer ∈ signers perf receipts ↔ signerSamples perf receipts signer ≠ [] := by
  rw [signers, Finset.mem_filter, and_iff_right_iff_imp, List.mem_toFinset, List.mem_map]
  intro hsamples
  obtain ⟨sample, hsample⟩ := List.exists_mem_of_ne_nil _ hsamples
  obtain ⟨r, hr, -⟩ := List.mem_map.mp hsample
  have hmem := List.mem_filter.mp hr
  exact ⟨r, hmem.1, (of_decide_eq_true hmem.2).2⟩

/-- The value lies between the medians of two signers other than `signer`. -/
def BetweenOthers (perf : ServiceReceipt → ℚ) (receipts : List ServiceReceipt) (signer : Bytes)
    (value : ℚ) : Prop :=
  (∃ lower ∈ signers perf receipts, lower ≠ signer ∧
      median (signerSamples perf receipts lower) ≤ value) ∧
    ∃ upper ∈ signers perf receipts, upper ≠ signer ∧
      value ≤ median (signerSamples perf receipts upper)

/-! ## The median over the signers -/

/-- The median of the medians of the signers, or zero when there are fewer than three. -/
noncomputable def signersMedian (perf : ServiceReceipt → ℚ) (receipts : List ServiceReceipt) : ℚ :=
  if (signers perf receipts).card < 3 then 0
  else median ((signers perf receipts).toList.map fun signer =>
    median (signerSamples perf receipts signer))

theorem signersMedian_between (signer : Bytes) :
    signersMedian perf receipts = 0 ∨
      BetweenOthers perf receipts signer (signersMedian perf receipts) := by
  rw [signersMedian]
  split_ifs with hfew
  · exact .inl rfl
  · right
    have hlength : 3 ≤ (signers perf receipts).toList.length := by
      rw [Finset.length_toList]
      omega
    -- some signer in front, and none of the others is `signer`
    obtain ⟨first, others, hperm, hothers⟩ : ∃ first others,
        (signers perf receipts).toList.Perm (first :: others) ∧ signer ∉ others := by
      by_cases hmem : signer ∈ signers perf receipts
      · exact ⟨signer, _, List.perm_cons_erase (Finset.mem_toList.mpr hmem),
          (signers perf receipts).nodup_toList.not_mem_erase⟩
      · obtain ⟨first, others, hlist⟩ :=
          List.exists_cons_of_length_pos (show 0 < (signers perf receipts).toList.length by omega)
        refine ⟨first, others, hlist ▸ List.Perm.refl _, fun hsigner => hmem ?_⟩
        rw [← Finset.mem_toList, hlist]
        exact List.mem_cons_of_mem _ hsigner
    have hmember : ∀ other ∈ others, other ∈ signers perf receipts ∧ other ≠ signer := by
      intro other hother
      refine ⟨?_, fun heq => hothers (heq ▸ hother)⟩
      rw [← Finset.mem_toList, hperm.mem_iff]
      exact List.mem_cons_of_mem _ hother
    rw [hperm.length_eq, List.length_cons] at hlength
    rw [median_perm (hperm.map _), List.map_cons]
    have hcount : 2 ≤ (others.map fun other => median (signerSamples perf receipts other)).length := by
      rw [List.length_map]
      omega
    obtain ⟨⟨_, hlower, hlow⟩, _, hupper, hhigh⟩ :=
      median_between (median (signerSamples perf receipts first)) hcount
    obtain ⟨lower, hlowerMem, rfl⟩ := List.mem_map.mp hlower
    obtain ⟨upper, hupperMem, rfl⟩ := List.mem_map.mp hupper
    exact ⟨⟨lower, (hmember lower hlowerMem).1, (hmember lower hlowerMem).2, hlow⟩, upper,
      (hmember upper hupperMem).1, (hmember upper hupperMem).2, hhigh⟩

theorem signersMedian_congr
    (h : ∀ signer, (signerSamples perf receipts' signer = [] ↔
        signerSamples perf receipts signer = []) ∧
      median (signerSamples perf receipts' signer) = median (signerSamples perf receipts signer)) :
    signersMedian perf receipts' = signersMedian perf receipts := by
  have hsigners : signers perf receipts' = signers perf receipts := by
    ext signer
    rw [mem_signers, mem_signers, Ne, Ne, (h signer).1]
  rw [signersMedian, signersMedian, hsigners]
  simp only [fun signer => (h signer).2]

/-! ## Repeated receipts -/

/-- The receipts with all of a signer repeated `times` times more, in any order. -/
def Repeats (signer : Bytes) (times : ℕ) (receipts receipts' : List ServiceReceipt) : Prop :=
  receipts'.Perm (receipts ++
    (List.replicate times (receipts.filter fun r => r.validatorHotkey = signer)).flatten)

variable {times : ℕ}

theorem Repeats.filter (h : Repeats signer times receipts receipts') (p : ServiceReceipt → Bool) :
    Repeats signer times (receipts.filter p) (receipts'.filter p) := by
  have hperm := List.Perm.filter p h
  rw [List.filter_append, List.filter_flatten, List.map_replicate, List.filter_filter] at hperm
  rw [Repeats, List.filter_filter]
  simpa only [Bool.and_comm] using hperm

theorem Repeats.eq_nil_iff (h : Repeats signer times receipts receipts') :
    receipts' = [] ↔ receipts = [] := by
  rw [← List.length_eq_zero_iff, h.length_eq, List.length_append, List.length_flatten]
  constructor
  · intro hzero
    exact List.length_eq_zero_iff.mp (by omega)
  · rintro rfl
    simp

theorem Repeats.samples (h : Repeats signer times receipts receipts') (other : Bytes) :
    ∃ copies, (signerSamples perf receipts' other).Perm
      (List.replicate (copies + 1) (signerSamples perf receipts other)).flatten := by
  have hperm : (signerSamples perf receipts' other).Perm _ := (h.filter _).map perf
  rw [List.map_append, List.map_flatten, List.map_replicate, List.filter_filter] at hperm
  by_cases hother : other = signer
  · subst hother
    refine ⟨times, ?_⟩
    have hall : (receipts.filter fun r => decide (r.validatorHotkey = other) &&
        decide (Counts perf r ∧ r.validatorHotkey = other)) =
        receipts.filter fun r => decide (Counts perf r ∧ r.validatorHotkey = other) := by
      refine List.filter_congr fun r _ => ?_
      by_cases hr : r.validatorHotkey = other <;> simp [hr]
    rw [hall] at hperm
    rwa [List.replicate_succ, List.flatten_cons]
  · refine ⟨0, ?_⟩
    have hnone : (receipts.filter fun r => decide (r.validatorHotkey = signer) &&
        decide (Counts perf r ∧ r.validatorHotkey = other)) = [] := by
      rw [List.filter_eq_nil_iff]
      intro r _ hr
      simp only [Bool.and_eq_true, decide_eq_true_eq] at hr
      exact hother (hr.2.2.symm.trans hr.1)
    rw [hnone] at hperm
    simpa [signerSamples] using hperm

theorem Repeats.median_samples (h : Repeats signer times receipts receipts') (other : Bytes) :
    (signerSamples perf receipts' other = [] ↔ signerSamples perf receipts other = []) ∧
      median (signerSamples perf receipts' other) = median (signerSamples perf receipts other) := by
  obtain ⟨copies, hperm⟩ : ∃ copies, (signerSamples perf receipts' other).Perm _ := h.samples other
  refine ⟨?_, (median_perm hperm).trans (median_flatten_replicate copies.succ_pos _)⟩
  rw [← List.length_eq_zero_iff, hperm.length_eq, List.length_flatten, List.map_replicate,
    List.sum_replicate, smul_eq_mul, mul_eq_zero, ← List.length_eq_zero_iff]
  simp

/-! ## The dictionaries of the code -/

theorem map_median_perm {β : Type} {d : OrderedDict Bytes β} {values : β → List ℚ}
    (h : ∀ signer, ((d.get signer).map values).getD [] = signerSamples perf receipts signer) :
    (((d.entries.map fun entry => values entry.2).filter fun vals => !vals.isEmpty).map median).Perm
      ((signers perf receipts).toList.map fun signer =>
        median (signerSamples perf receipts signer)) := by
  have hentry : ∀ entry ∈ d.entries, values entry.2 = signerSamples perf receipts entry.1 := by
    intro entry hmem
    have hget : d.get entry.1 = some entry.2 := get_eq_some.mpr hmem
    rw [← h, hget]
    rfl
  have hkeys : ((d.entries.filter fun entry => !(values entry.2).isEmpty).map Prod.fst).Perm
      (signers perf receipts).toList := by
    rw [List.perm_ext_iff_of_nodup (d.nodup_keys.sublist (List.filter_sublist.map _))
      (signers perf receipts).nodup_toList]
    intro signer
    rw [Finset.mem_toList, mem_signers, ← h, List.mem_map]
    constructor
    · rintro ⟨entry, hmem, rfl⟩
      obtain ⟨hentries, hne⟩ := List.mem_filter.mp hmem
      rw [get_eq_some.mpr hentries]
      simpa using hne
    · intro hne
      cases hget : d.get signer with
      | none => simp [hget] at hne
      | some value =>
        rw [hget] at hne
        exact ⟨(signer, value), List.mem_filter.mpr ⟨get_eq_some.mp hget, by simpa using hne⟩, rfl⟩
  have hmedians := hkeys.map fun signer => median (signerSamples perf receipts signer)
  rw [List.map_map] at hmedians
  rw [List.filter_map, List.map_map]
  refine List.Perm.trans (List.Perm.of_eq ?_) hmedians
  refine List.map_congr_left fun entry hmem => ?_
  exact congrArg median (hentry entry (List.mem_filter.mp hmem).1)

theorem minerMedian_eq {values : Samples → List ℚ} {validators : MinerValidators}
    (h : ∀ signer, ((validators.get signer).map values).getD [] =
      signerSamples perf receipts signer) :
    minerMedian values validators = signersMedian perf receipts := by
  have hperm := map_median_perm h
  have hcard := hperm.length_eq.trans
    (show _ = (signers perf receipts).card by rw [List.length_map, Finset.length_toList])
  rw [minerMedian, signersMedian, hcard, median_perm hperm, minPerformanceValidators]
  split_ifs <;> first | rfl | omega

theorem foldl_collectSample :
    receipts.foldl (collectSample perf) .empty =
      groupBy ServiceReceipt.validatorHotkey (fun values r => values ++ [perf r]) []
        (receipts.filter fun r => Counts perf r) := by
  rw [groupBy, List.foldl_filter]
  congr 1
  funext perValidator r
  unfold collectSample
  by_cases hfailed : r.proofFailed
  · rw [if_pos hfailed, if_neg (by simp [Counts, hfailed])]
  · by_cases hpositive : perf r ≤ 0
    · rw [if_neg hfailed, if_pos hpositive, if_neg]
      exact fun hcounts => hpositive.not_gt (of_decide_eq_true hcounts).2.1
    · by_cases hlength : r.validatorHotkey.length = 32
      · rw [if_neg hfailed, if_neg hpositive, if_neg (not_not.mpr hlength), if_pos]
        · rfl
        · simpa [Counts, hfailed, hlength] using hpositive
      · rw [if_neg hfailed, if_neg hpositive, if_pos hlength, if_neg (by simp [Counts, hlength])]

theorem foldl_append_map (items : List ServiceReceipt) (init : List ℚ) :
    items.foldl (fun values r => values ++ [perf r]) init = init ++ items.map perf := by
  induction items generalizing init with
  | nil => simp
  | cons r items ih => rw [List.foldl_cons, ih, List.map_cons, List.append_assoc]; rfl

theorem medianOfValidatorMedians_eq :
    medianOfValidatorMedians receipts perf minPerformanceValidators =
      signersMedian perf receipts := by
  rw [medianOfValidatorMedians, foldl_collectSample]
  set d := groupBy ServiceReceipt.validatorHotkey (fun values r => values ++ [perf r]) []
    (receipts.filter fun r => Counts perf r) with hd
  have hget : ∀ signer, d.get signer = if signerSamples perf receipts signer = [] then none
      else some (signerSamples perf receipts signer) := by
    intro signer
    have hsamples : ((receipts.filter fun r => Counts perf r).filter fun r =>
        r.validatorHotkey = signer).map perf = signerSamples perf receipts signer := by
      rw [signerSamples, List.filter_filter]
      simp only [Bool.decide_and, Bool.and_comm]
    rw [hd, get_groupBy, foldl_append_map, List.nil_append, hsamples]
    refine if_congr ?_ rfl rfl
    rw [← hsamples, List.map_eq_nil_iff]
  have hvalues : ∀ signer, ((d.get signer).map id).getD [] = signerSamples perf receipts signer := by
    intro signer
    rw [hget]
    split_ifs with hnone
    · exact hnone.symm
    · rfl
  have hnonempty : (d.entries.map fun entry => id entry.2).filter (fun vals => !vals.isEmpty) =
      d.entries.map fun entry => id entry.2 := by
    rw [List.filter_eq_self]
    intro vals hvals
    obtain ⟨entry, hentry, rfl⟩ := List.mem_map.mp hvals
    have hsome := hget entry.1
    rw [get_eq_some.mpr hentry] at hsome
    split_ifs at hsome with hnone
    rw [Option.some.inj hsome]
    simpa using hnone
  have hperm := map_median_perm hvalues
  rw [hnonempty, List.map_map] at hperm
  have hcard := hperm.length_eq
  rw [List.length_map, List.length_map, Finset.length_toList] at hcard
  have hmedian : median (d.entries.map fun entry => median entry.2) = _ := median_perm hperm
  simp only [hmedian, hcard, signersMedian, minPerformanceValidators]
  split_ifs <;> first | rfl | omega

/-! ## The samples of a miner -/

/-- The receipts that `compute_peer_medians` groups. -/
def counted (epochNumber : ℤ) (receipts : List ServiceReceipt) : List ServiceReceipt :=
  receipts.filter fun r =>
    r.epochNumber = epochNumber ∧ r.proofFailed = false ∧ r.validatorHotkey.length = 32

/-- The receipts of a model. -/
def modelReceipts (epochNumber : ℤ) (modelId : String) (receipts : List ServiceReceipt) :
    List ServiceReceipt :=
  (counted epochNumber receipts).filter fun r => r.modelId = modelId

/-- The receipts of a miner for a model. -/
def minerReceipts (epochNumber : ℤ) (modelId minerAddress : String)
    (receipts : List ServiceReceipt) : List ServiceReceipt :=
  (modelReceipts epochNumber modelId receipts).filter fun r => r.minerAddress = minerAddress

/-- The samples by signer of some receipts. -/
def validatorsOf (receipts : List ServiceReceipt) : MinerValidators :=
  groupBy ServiceReceipt.validatorHotkey Samples.add ([], []) receipts

/-- The samples by miner and signer of some receipts. -/
def minersOf (receipts : List ServiceReceipt) : OrderedDict String MinerValidators :=
  groupBy ServiceReceipt.minerAddress
    (update ServiceReceipt.validatorHotkey Samples.add ([], [])) .empty receipts

variable {epochNumber : ℤ} {modelId minerAddress : String}

theorem foldl_collectStats :
    receipts.foldl (collectStats epochNumber) .empty =
      groupBy ServiceReceipt.modelId (update ServiceReceipt.minerAddress
        (update ServiceReceipt.validatorHotkey Samples.add ([], [])) .empty) .empty
        (counted epochNumber receipts) := by
  rw [groupBy, counted, List.foldl_filter]
  congr 1
  funext stats r
  unfold collectStats
  by_cases hepoch : r.epochNumber = epochNumber
  · by_cases hfailed : r.proofFailed
    · rw [if_neg (not_not.mpr hepoch), if_pos hfailed, if_neg (by simp [hfailed])]
    · by_cases hlength : r.validatorHotkey.length = 32
      · rw [if_neg (not_not.mpr hepoch), if_neg hfailed, if_neg (not_not.mpr hlength),
          if_pos (by simp [hepoch, hfailed, hlength])]
        rfl
      · rw [if_neg (not_not.mpr hepoch), if_neg hfailed, if_pos hlength,
          if_neg (by simp [hlength])]
  · rw [if_pos hepoch, if_neg (by simp [hepoch])]

theorem get_stats (modelId : String) :
    (receipts.foldl (collectStats epochNumber) .empty).get modelId =
      if modelReceipts epochNumber modelId receipts = [] then none
      else some (minersOf (modelReceipts epochNumber modelId receipts)) := by
  rw [foldl_collectStats, get_groupBy]
  rfl

theorem get_minersOf (minerAddress : String) :
    (minersOf receipts).get minerAddress =
      if receipts.filter (fun r => r.minerAddress = minerAddress) = [] then none
      else some (validatorsOf (receipts.filter fun r => r.minerAddress = minerAddress)) := by
  rw [minersOf, get_groupBy]
  rfl

theorem foldl_add (items : List ServiceReceipt) (samples : Samples) :
    items.foldl Samples.add samples =
      (samples.1 ++ (items.filter fun r => 0 < r.ttftMs).map ServiceReceipt.ttftMs,
        samples.2 ++ (items.filter fun r => 0 < r.tokensPerSec).map ServiceReceipt.tokensPerSec) := by
  induction items generalizing samples with
  | nil => simp
  | cons r items ih =>
    rw [List.foldl_cons, ih, Samples.add, List.filter_cons, List.filter_cons]
    refine Prod.ext ?_ ?_
    · by_cases hpositive : 0 < r.ttftMs <;> simp [hpositive]
    · by_cases hpositive : 0 < r.tokensPerSec <;> simp [hpositive]

/-- An attribute of receipts and its samples. -/
structure Metric where
  perf : ServiceReceipt → ℚ
  values : Samples → List ℚ
  values_foldl : ∀ items : List ServiceReceipt,
    values (items.foldl Samples.add ([], [])) = (items.filter fun r => 0 < perf r).map perf

/-- The times to the first token. -/
def ttft : Metric where
  perf := ServiceReceipt.ttftMs
  values := Prod.fst
  values_foldl items := by rw [foldl_add, List.nil_append]

/-- The decode speeds. -/
def tps : Metric where
  perf := ServiceReceipt.tokensPerSec
  values := Prod.snd
  values_foldl items := by rw [foldl_add, List.nil_append, List.nil_append]

variable {metric : Metric}

theorem get_validatorsOf
    (h : ∀ r ∈ receipts, r.proofFailed = false ∧ r.validatorHotkey.length = 32) (signer : Bytes) :
    (((validatorsOf receipts).get signer).map metric.values).getD [] =
      signerSamples metric.perf receipts signer := by
  have hsamples : ((receipts.filter fun r => r.validatorHotkey = signer).filter
      fun r => 0 < metric.perf r).map metric.perf =
      signerSamples metric.perf receipts signer := by
    rw [signerSamples, List.filter_filter]
    refine congrArg (List.map metric.perf) (List.filter_congr fun r hr => ?_)
    obtain ⟨hfailed, hlength⟩ := h r hr
    simp [Counts, hfailed, hlength]
  rw [validatorsOf, get_groupBy]
  split_ifs with hnone
  · rw [← hsamples, hnone]
    rfl
  · rw [Option.map_some, Option.getD_some, metric.values_foldl, hsamples]

theorem mem_modelReceipts {r : ServiceReceipt} (h : r ∈ modelReceipts epochNumber modelId receipts) :
    r.proofFailed = false ∧ r.validatorHotkey.length = 32 := by
  have hcounted := (List.mem_filter.mp (List.mem_filter.mp h).1).2
  exact (of_decide_eq_true hcounted).2

theorem minerMedian_validatorsOf
    (h : ∀ r ∈ receipts, r.proofFailed = false ∧ r.validatorHotkey.length = 32) :
    minerMedian metric.values (validatorsOf receipts) =
      signersMedian metric.perf receipts :=
  minerMedian_eq (get_validatorsOf h)

/-! ## Both functions -/

theorem Repeats.signersMedian_eq (h : Repeats signer times receipts receipts') :
    signersMedian perf receipts' = signersMedian perf receipts :=
  signersMedian_congr h.median_samples

theorem Repeats.perm_minerMedians (h : Repeats signer times receipts receipts')
    (hcounted : ∀ r ∈ receipts, r.proofFailed = false ∧ r.validatorHotkey.length = 32)
    (hcounted' : ∀ r ∈ receipts', r.proofFailed = false ∧ r.validatorHotkey.length = 32)
    (metric : Metric) :
    (minerMedians metric.values (minersOf receipts')).Perm
      (minerMedians metric.values (minersOf receipts)) := by
  refine List.Perm.filter _ (map_entries_perm fun miner => ?_)
  have hfilter := h.filter fun r => decide (r.minerAddress = miner)
  rw [get_minersOf, get_minersOf]
  by_cases hnone : receipts.filter (fun r => r.minerAddress = miner) = []
  · rw [if_pos hnone, if_pos (hfilter.eq_nil_iff.mpr hnone)]
  · rw [if_neg hnone, if_neg fun hnone' => hnone (hfilter.eq_nil_iff.mp hnone'), Option.map_some,
      Option.map_some, minerMedian_validatorsOf fun r hr => hcounted r (List.mem_filter.mp hr).1,
      minerMedian_validatorsOf fun r hr => hcounted' r (List.mem_filter.mp hr).1,
      hfilter.signersMedian_eq]

theorem Repeats.get_computePeerMedians (h : Repeats signer times receipts receipts') (modelId : String) :
    (computePeerMedians receipts' epochNumber).get modelId =
      (computePeerMedians receipts epochNumber).get modelId := by
  have hfilter : Repeats signer times (modelReceipts epochNumber modelId receipts)
      (modelReceipts epochNumber modelId receipts') := (h.filter _).filter _
  rw [computePeerMedians, computePeerMedians, get_mapValues, get_mapValues,
    get_stats, get_stats]
  by_cases hnone : modelReceipts epochNumber modelId receipts = []
  · rw [if_pos hnone, if_pos (hfilter.eq_nil_iff.mpr hnone)]
  · rw [if_neg hnone, if_neg fun hnone' => hnone (hfilter.eq_nil_iff.mp hnone'), Option.map_some,
      Option.map_some]
    have hperm := hfilter.perm_minerMedians (fun r => mem_modelReceipts) fun r => mem_modelReceipts
    have httft : median (minerMedians Prod.fst _) = median (minerMedians Prod.fst _) :=
      median_perm (hperm ttft)
    have htps : median (minerMedians Prod.snd _) = median (minerMedians Prod.snd _) :=
      median_perm (hperm tps)
    rw [httft, htps]

/-- What a miner contributes to the peer median of a metric. -/
def Contribution (metric : Metric) (epochNumber : ℤ) (modelId minerAddress : String)
    (receipts : List ServiceReceipt) (value : ℚ) : Prop :=
  ∃ miners validators,
    (receipts.foldl (collectStats epochNumber) .empty).get modelId = some miners ∧
      miners.get minerAddress = some validators ∧ value = minerMedian metric.values validators

theorem Contribution.eq_signersMedian {value : ℚ}
    (h : Contribution metric epochNumber modelId minerAddress receipts value) :
    value = signersMedian metric.perf
      (minerReceipts epochNumber modelId minerAddress receipts) := by
  obtain ⟨miners, validators, hminers, hvalidators, rfl⟩ := h
  rw [get_stats] at hminers
  split_ifs at hminers
  obtain rfl := Option.some.inj hminers
  rw [get_minersOf] at hvalidators
  split_ifs at hvalidators
  obtain rfl := Option.some.inj hvalidators
  exact minerMedian_validatorsOf fun r hr => mem_modelReceipts (List.mem_filter.mp hr).1

theorem signersMedian_of_few (h : (signers perf receipts).card < 3) :
    signersMedian perf receipts = 0 := if_pos h

/-- The median of the signers' medians, and every contribution to the peer medians, is zero or lies
between medians of other signers than a given one; it is zero with fewer than three signers; and
nothing changes when all receipts of a signer are repeated. -/
theorem medians_resist_signer (receipts : List ServiceReceipt) (signer : Bytes) :
    (∀ perf,
      (medianOfValidatorMedians receipts perf minPerformanceValidators = 0 ∨
        BetweenOthers perf receipts signer
          (medianOfValidatorMedians receipts perf minPerformanceValidators)) ∧
      ((signers perf receipts).card < 3 →
        medianOfValidatorMedians receipts perf minPerformanceValidators = 0)) ∧
    (∀ metric ∈ [ttft, tps], ∀ epochNumber modelId minerAddress value,
      Contribution metric epochNumber modelId minerAddress receipts value →
        (value = 0 ∨ BetweenOthers metric.perf
          (minerReceipts epochNumber modelId minerAddress receipts) signer value) ∧
        ((signers metric.perf (minerReceipts epochNumber modelId minerAddress receipts)).card < 3 →
          value = 0)) ∧
    ∀ times receipts', Repeats signer times receipts receipts' →
      (∀ perf, medianOfValidatorMedians receipts' perf minPerformanceValidators =
        medianOfValidatorMedians receipts perf minPerformanceValidators) ∧
      ∀ epochNumber modelId, (computePeerMedians receipts' epochNumber).get modelId =
        (computePeerMedians receipts epochNumber).get modelId := by
  refine ⟨fun perf => ?_, fun metric _ epochNumber modelId minerAddress value hvalue => ?_,
    fun times receipts' hrepeats => ⟨fun perf => ?_, fun epochNumber => hrepeats.get_computePeerMedians⟩⟩
  · rw [medianOfValidatorMedians_eq]
    exact ⟨signersMedian_between signer, signersMedian_of_few⟩
  · rw [hvalue.eq_signersMedian]
    exact ⟨signersMedian_between signer, signersMedian_of_few⟩
  · rw [medianOfValidatorMedians_eq, medianOfValidatorMedians_eq, hrepeats.signersMedian_eq]


/-- A receipt with a time to the first token, by one of the signers. -/
def timedReceipt (signer : UInt8) (ttftMs : ℚ) : ServiceReceipt where
  minerAddress := "0x1"
  modelId := "m"
  epochNumber := 1
  validatorHotkey := List.replicate 32 signer
  receiptVersion := 4
  isCanary := false
  canaryObligationId := []
  canaryKind := ""
  canaryTargetPromptTokens := 0
  proofRequested := false
  proofVerified := false
  promptTokens := 100
  tokensGenerated := 10
  ttftMs := ttftMs
  tokensPerSec := 1

/-- Three receipts, the last one with a time that is out of line. -/
def timedReceipts : List ServiceReceipt := [timedReceipt 1 10, timedReceipt 2 20, timedReceipt 3 9000]

/-- The signer that is out of line does not move the contribution of the miner, and may repeat its
receipt. -/
theorem medians_resist_signer_three :
    (∃ value, Contribution ttft 1 "m" "0x1" timedReceipts value ∧
      (value = 0 ∨ BetweenOthers ServiceReceipt.ttftMs (minerReceipts 1 "m" "0x1" timedReceipts)
        (List.replicate 32 3) value)) ∧
      medianOfValidatorMedians (timedReceipts ++ [timedReceipt 3 9000]) ServiceReceipt.ttftMs
          minPerformanceValidators =
        medianOfValidatorMedians timedReceipts ServiceReceipt.ttftMs minPerformanceValidators := by
  obtain ⟨-, hminers, hrepeats⟩ := medians_resist_signer timedReceipts (List.replicate 32 3)
  have hcontribution : Contribution ttft 1 "m" "0x1" timedReceipts _ := ⟨_, _, rfl, rfl, rfl⟩
  have hrepeated : Repeats (List.replicate 32 3) 1 timedReceipts
      (timedReceipts ++ [timedReceipt 3 9000]) := List.Perm.of_eq (by decide +kernel)
  refine ⟨⟨_, hcontribution, ?_⟩, (hrepeats 1 _ hrepeated).1 _⟩
  exact (hminers ttft (List.mem_cons_self) 1 "m" "0x1" _ hcontribution).1

end Verathos.Scoring
