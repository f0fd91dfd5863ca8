import Verathos.Scoring.Buckets

/-!
# Conservation of the emission

The shares of the logical groups add up to one, and the last loop hands each of them out as a whole:
in proportion to the scores of the entries of the group, or to the unallocated part when the group
has none.

* `groupWeights`: what the entries of a group are paid;
* `getModelBucketWeights_eq`: the weights as sums of these payments;
* `bucketWeights_conserve`: nothing is burned or paid twice, entries that do not count are not paid,
  and only the proportions within a group matter.
-/

namespace Verathos.Scoring

open OrderedDict

/-! ## Sums over dictionaries -/

/-- The sum of the weights. -/
def totalWeight (weights : OrderedDict ℤ ℚ) : ℚ := (weights.entries.map Prod.snd).sum

theorem totalWeight_set (weights : OrderedDict ℤ ℚ) (uid : ℤ) (weight : ℚ) :
    totalWeight (weights.set uid ((weights.get uid).getD 0 + weight)) =
      totalWeight weights + weight := by
  change ((setEntries weights.entries uid _).map Prod.snd).sum =
    (weights.entries.map Prod.snd).sum + weight
  unfold setEntries
  cases hget : weights.get uid with
  | none =>
    rw [if_neg (get_eq_none.mp hget), List.map_append, List.sum_append]
    simp
  | some before =>
    have hmem := get_eq_some.mp hget
    rw [if_pos (List.mem_map_of_mem hmem), Option.getD_some]
    obtain ⟨front, back, hentries⟩ := List.append_of_mem hmem
    have hnodup := weights.nodup_keys
    rw [hentries, List.map_append, List.map_cons, List.nodup_middle, List.nodup_cons,
      List.mem_append, not_or] at hnodup
    -- only the entry of the UID changes
    have hkeep : ∀ part : List (ℤ × ℚ), uid ∉ part.map Prod.fst →
        (part.map fun entry => if entry.1 = uid then (uid, before + weight) else entry) = part := by
      intro part hpart
      refine (List.map_congr_left fun entry hentry => if_neg ?_).trans (List.map_id _)
      rintro rfl
      exact hpart (List.mem_map_of_mem hentry)
    rw [hentries, List.map_append, List.map_cons, hkeep front hnodup.1.1, hkeep back hnodup.1.2]
    simp only [List.map_append, List.map_cons, List.sum_append, List.sum_cons, if_pos]
    ring

/-! ## The entries of a group -/

variable {lc : LowerCase} {args : BucketArguments} {states : ScoreStates}

/-- The entries that count for a group. -/
def groupEntries (lc : LowerCase) (args : BucketArguments) (states : ScoreStates)
    (groupId : String) : List PlacedEntry :=
  (placedEntries states).filter fun placed =>
    Enters lc args placed ∧ args.groupOf placed.entry.modelId = groupId

def groupScoreTotal (lc : LowerCase) (args : BucketArguments) (states : ScoreStates)
    (groupId : String) : ℚ :=
  ((groupEntries lc args states groupId).map fun placed => flooredScore placed.entry.emaScore).sum

/-- What the entries of a logical group are paid, by UID. -/
def groupWeights (lc : LowerCase) (args : BucketArguments) (states : ScoreStates)
    (item : String × ℚ) : List (ℤ × ℚ) :=
  (groupEntries lc args states item.1).map fun placed =>
    (placed.uid, item.2 / args.logicalTotal * flooredScore placed.entry.emaScore /
      groupScoreTotal lc args states item.1)

theorem get_entriesByGroup (groupId : String) :
    ((entriesByGroup lc args states).get groupId).getD [] =
      (groupEntries lc args states groupId).map fun placed =>
        (placed.uid, flooredScore placed.entry.emaScore) := by
  have hfold : ∀ (items : List PlacedEntry) (init : List (ℤ × ℚ)),
      items.foldl (fun entries placed =>
        entries ++ [(placed.uid, flooredScore placed.entry.emaScore)]) init =
        init ++ items.map fun placed => (placed.uid, flooredScore placed.entry.emaScore) := by
    intro items
    induction items with
    | nil => simp
    | cons placed items ih =>
      intro init
      rw [List.foldl_cons, ih, List.map_cons, List.append_assoc]
      rfl
  have hfilter : ((placedEntries states).filter fun placed => Enters lc args placed).filter
      (fun placed => args.groupOf placed.entry.modelId = groupId) =
      groupEntries lc args states groupId := by
    rw [groupEntries, List.filter_filter]
    simp only [Bool.decide_and, Bool.and_comm]
  rw [entriesByGroup, get_groupBy, hfold, List.nil_append, hfilter]
  split_ifs with hnone
  · rw [hnone]
    rfl
  · rfl

theorem flooredScore_pos {groupId : String} {placed : PlacedEntry}
    (h : placed ∈ groupEntries lc args states groupId) :
    0 < flooredScore placed.entry.emaScore :=
  (of_decide_eq_true (List.mem_filter.mp h).2).1.2.2.2

theorem groupScoreTotal_pos_iff {groupId : String} :
    0 < groupScoreTotal lc args states groupId ↔ groupEntries lc args states groupId ≠ [] := by
  constructor
  · intro hpos hnone
    rw [groupScoreTotal, hnone] at hpos
    exact hpos.false
  · intro hne
    apply List.sum_pos
    · intro score hscore
      obtain ⟨placed, hplaced, rfl⟩ := List.mem_map.mp hscore
      exact flooredScore_pos hplaced
    · exact fun hnil => hne (List.map_eq_nil_iff.mp hnil)

theorem sum_groupWeights (item : String × ℚ) :
    ((groupWeights lc args states item).map Prod.snd).sum =
      if groupEntries lc args states item.1 = [] then 0 else item.2 / args.logicalTotal := by
  rw [groupWeights, List.map_map]
  split_ifs with hnone
  · rw [hnone]
    rfl
  · have hpos := groupScoreTotal_pos_iff.mpr hnone
    have hsum : ((groupEntries lc args states item.1).map fun placed =>
        item.2 / args.logicalTotal * flooredScore placed.entry.emaScore /
          groupScoreTotal lc args states item.1).sum =
        item.2 / args.logicalTotal * groupScoreTotal lc args states item.1 /
          groupScoreTotal lc args states item.1 := by
      simp only [div_eq_mul_inv _ (groupScoreTotal lc args states item.1)]
      rw [List.sum_map_mul_right, List.sum_map_mul_left]
      rfl
    exact hsum.trans (mul_div_cancel_right₀ _ hpos.ne')

/-! ## The loop over the groups -/

/-- What a list of payments gives to a UID. -/
def paidTo (uid : ℤ) (payments : List (ℤ × ℚ)) : ℚ :=
  ((payments.filter fun payment => payment.1 = uid).map Prod.snd).sum

theorem foldl_addWeight (share total : ℚ) (entries : List (ℤ × ℚ)) (weights : OrderedDict ℤ ℚ) :
    totalWeight (entries.foldl (addWeight share total) weights) =
        totalWeight weights + ((entries.map fun entry => share * entry.2 / total)).sum ∧
      ∀ uid, ((entries.foldl (addWeight share total) weights).get uid).getD 0 =
        (weights.get uid).getD 0 +
          paidTo uid (entries.map fun entry => (entry.1, share * entry.2 / total)) := by
  induction entries generalizing weights with
  | nil => simp [paidTo]
  | cons entry entries ih =>
    obtain ⟨htotal, hget⟩ := ih (addWeight share total weights entry)
    rw [List.foldl_cons]
    refine ⟨?_, fun uid => ?_⟩
    · rw [htotal, addWeight, totalWeight_set, List.map_cons, List.sum_cons, add_assoc]
    · rw [hget uid, addWeight, get_set, paidTo, paidTo, List.map_cons, List.filter_cons]
      by_cases huid : uid = entry.1
      · subst huid
        simp only [if_pos, Option.getD_some, decide_true, List.map_cons, List.sum_cons]
        ring
      · rw [if_neg huid, if_neg (by simpa using fun h => huid h.symm)]

theorem allocate_eq (state : OrderedDict ℤ ℚ × ℚ) (item : String × ℚ) :
    totalWeight (allocate args.logicalTotal (entriesByGroup lc args states) state item).1 =
        totalWeight state.1 + ((groupWeights lc args states item).map Prod.snd).sum ∧
      (∀ uid, ((allocate args.logicalTotal (entriesByGroup lc args states) state item).1.get
          uid).getD 0 =
        (state.1.get uid).getD 0 + paidTo uid (groupWeights lc args states item)) ∧
      (allocate args.logicalTotal (entriesByGroup lc args states) state item).2 =
        state.2 + if groupEntries lc args states item.1 = [] then item.2 / args.logicalTotal
          else 0 := by
  have hscores : (((groupEntries lc args states item.1).map fun placed =>
      (placed.uid, flooredScore placed.entry.emaScore)).map Prod.snd).sum =
      groupScoreTotal lc args states item.1 := by
    rw [List.map_map, groupScoreTotal]
    rfl
  rw [allocate, get_entriesByGroup, hscores]
  by_cases hnone : groupEntries lc args states item.1 = []
  · have hzero : groupScoreTotal lc args states item.1 ≤ 0 :=
      not_lt.mp fun hpos => groupScoreTotal_pos_iff.mp hpos hnone
    rw [if_pos hzero, if_pos hnone]
    simp [groupWeights, hnone, paidTo]
  · have hpos := groupScoreTotal_pos_iff.mpr hnone
    rw [if_neg (not_le.mpr hpos), if_neg hnone, add_zero]
    obtain ⟨htotal, hget⟩ := foldl_addWeight (item.2 / args.logicalTotal)
      (groupScoreTotal lc args states item.1) ((groupEntries lc args states item.1).map
        fun placed => (placed.uid, flooredScore placed.entry.emaScore)) state.1
    rw [List.map_map] at htotal
    refine ⟨?_, fun uid => ?_, rfl⟩
    · rw [htotal, groupWeights, List.map_map]
      rfl
    · rw [hget uid, List.map_map, groupWeights]
      rfl

theorem foldl_allocate (items : List (String × ℚ)) (state : OrderedDict ℤ ℚ × ℚ) :
    let result := items.foldl (allocate args.logicalTotal (entriesByGroup lc args states)) state
    totalWeight result.1 = totalWeight state.1 +
        (items.map fun item => ((groupWeights lc args states item).map Prod.snd).sum).sum ∧
      (∀ uid, (result.1.get uid).getD 0 = (state.1.get uid).getD 0 +
        (items.map fun item => paidTo uid (groupWeights lc args states item)).sum) ∧
      result.2 = state.2 + (items.map fun item =>
        if groupEntries lc args states item.1 = [] then item.2 / args.logicalTotal else 0).sum := by
  induction items generalizing state with
  | nil => simp
  | cons item items ih =>
    obtain ⟨htotal, hget, hunallocated⟩ :
        totalWeight (allocate _ (entriesByGroup lc args states) state item).1 = _ ∧ _ :=
      allocate_eq state item
    obtain ⟨ihTotal, ihGet, ihUnallocated⟩ := ih
      (allocate args.logicalTotal (entriesByGroup lc args states) state item)
    simp only [List.foldl_cons, List.map_cons, List.sum_cons]
    refine ⟨?_, fun uid => ?_, ?_⟩
    · rw [ihTotal, htotal, add_assoc]
    · rw [ihGet uid, hget uid, add_assoc]
    · rw [ihUnallocated, hunallocated, add_assoc]

/-! ## The shares -/

theorem logicalBudgets_pos : ∀ item ∈ args.logicalBudgets.entries, 0 < item.2 := by
  have hmax : ∀ (items : List (String × ℚ)) (init : ℚ), (∀ item ∈ items, 0 < item.2) →
      0 < init ∨ items ≠ [] → 0 < items.foldl (fun logical item => max logical item.2) init := by
    intro items
    induction items with
    | nil => exact fun init _ h => h.resolve_right fun hne => hne rfl
    | cons item items ih =>
      intro init hitems _
      obtain ⟨hitem, hrest⟩ := List.forall_mem_cons.mp hitems
      exact ih _ hrest (.inl (lt_max_of_lt_right hitem))
  have hbudgets : ∀ item ∈ args.budgets.entries, 0 < item.2 := fun item hitem =>
    of_decide_eq_true (List.mem_filter.mp hitem).2
  rintro ⟨groupId, budget⟩ hitem
  unfold BucketArguments.logicalBudgets at hitem
  cases hgroup : args.groupBudgets with
  | none =>
    rw [hgroup, ← get_eq_some, get_groupBy] at hitem
    split_ifs at hitem with hnone
    obtain rfl := Option.some.inj hitem
    exact hmax _ _ (fun item hmem => hbudgets item (List.mem_filter.mp hmem).1) (.inr hnone)
  | some groupBudgets =>
    rw [hgroup] at hitem
    exact of_decide_eq_true (List.mem_filter.mp hitem).2

theorem logicalTotal_pos (h : args.logicalBudgets.entries ≠ []) : 0 < args.logicalTotal := by
  apply List.sum_pos
  · intro budget hbudget
    obtain ⟨item, hitem, rfl⟩ := List.mem_map.mp hbudget
    exact logicalBudgets_pos item hitem
  · exact fun hnil => h (List.map_eq_nil_iff.mp hnil)

theorem share_nonneg {item : String × ℚ} (hitem : item ∈ args.logicalBudgets.entries) :
    0 ≤ item.2 / args.logicalTotal :=
  div_nonneg (logicalBudgets_pos item hitem).le
    (logicalTotal_pos (List.ne_nil_of_mem hitem)).le

theorem sum_shares (h : args.logicalBudgets.entries ≠ []) :
    (args.logicalBudgets.entries.map fun item => item.2 / args.logicalTotal).sum = 1 := by
  simp only [div_eq_mul_inv]
  rw [List.sum_map_mul_right]
  exact mul_inv_cancel₀ (logicalTotal_pos h).ne'

/-- The unallocated part: the shares of the groups without entries. -/
def unallocatedShare (lc : LowerCase) (args : BucketArguments) (states : ScoreStates) : ℚ :=
  (args.logicalBudgets.entries.map fun item =>
    if groupEntries lc args states item.1 = [] then item.2 / args.logicalTotal else 0).sum

theorem paid_add_unallocated (h : args.logicalBudgets.entries ≠ []) :
    (args.logicalBudgets.entries.map fun item =>
        ((groupWeights lc args states item).map Prod.snd).sum).sum +
      unallocatedShare lc args states = 1 := by
  rw [← sum_shares h, unallocatedShare, ← List.sum_map_add]
  refine congrArg List.sum (List.map_congr_left fun item _ => ?_)
  rw [sum_groupWeights]
  split_ifs
  · exact zero_add _
  · exact add_zero _

theorem groupWeights_nonneg {item : String × ℚ} (hitem : item ∈ args.logicalBudgets.entries) :
    ∀ payment ∈ groupWeights lc args states item, 0 ≤ payment.2 := by
  intro payment hpayment
  obtain ⟨placed, hplaced, rfl⟩ := List.mem_map.mp hpayment
  have htotal := groupScoreTotal_pos_iff.mpr (List.ne_nil_of_mem hplaced)
  exact div_nonneg (mul_nonneg (share_nonneg hitem) (flooredScore_pos hplaced).le) htotal.le

theorem unallocatedShare_bounds (h : args.logicalBudgets.entries ≠ []) :
    0 ≤ unallocatedShare lc args states ∧ unallocatedShare lc args states ≤ 1 := by
  constructor
  · apply List.sum_nonneg
    intro share hshare
    obtain ⟨item, hitem, rfl⟩ := List.mem_map.mp hshare
    split_ifs
    · exact share_nonneg hitem
    · exact le_rfl
  · have hsum : _ + unallocatedShare lc args states = 1 := paid_add_unallocated h
    have hpaid : 0 ≤ (args.logicalBudgets.entries.map fun item =>
        ((groupWeights lc args states item).map Prod.snd).sum).sum := by
      apply List.sum_nonneg
      intro paid hpaid
      obtain ⟨item, hitem, rfl⟩ := List.mem_map.mp hpaid
      apply List.sum_nonneg
      intro weight hweight
      obtain ⟨payment, hpayment, rfl⟩ := List.mem_map.mp hweight
      exact groupWeights_nonneg hitem payment hpayment
    linarith

theorem getModelBucketWeights_eq (hbudgets : args.budgets.entries ≠ [])
    (hlogical : args.logicalBudgets.entries ≠ []) :
    totalWeight (getModelBucketWeights lc states args).1 =
        (args.logicalBudgets.entries.map fun item =>
          ((groupWeights lc args states item).map Prod.snd).sum).sum ∧
      (∀ uid, ((getModelBucketWeights lc states args).1.get uid).getD 0 =
        (args.logicalBudgets.entries.map fun item =>
          paidTo uid (groupWeights lc args states item)).sum) ∧
      (getModelBucketWeights lc states args).2 = unallocatedShare lc args states := by
  have hstart : totalWeight (states.mapValues fun _ => (0 : ℚ)) = 0 := by
    simp [totalWeight, mapValues, Function.comp_def]
  have hzero : ∀ uid, ((states.mapValues fun _ => (0 : ℚ)).get uid).getD 0 = 0 := by
    intro uid
    rw [get_mapValues]
    cases states.get uid <;> rfl
  obtain ⟨htotal, hget, hunallocated⟩ :
      let result := args.logicalBudgets.entries.foldl
        (allocate args.logicalTotal (entriesByGroup lc args states))
        (states.mapValues fun _ => 0, 0)
      _ := foldl_allocate args.logicalBudgets.entries (states.mapValues fun _ => 0, 0)
  obtain ⟨hlow, hhigh⟩ : 0 ≤ unallocatedShare lc args states ∧ _ :=
    unallocatedShare_bounds hlogical
  rw [hstart, zero_add] at htotal
  rw [zero_add] at hunallocated
  rw [getModelBucketWeights]
  simp only [if_neg hbudgets, if_neg (not_le.mpr (logicalTotal_pos hlogical))]
  refine ⟨htotal, fun uid => ?_, ?_⟩
  · rw [hget uid, hzero, zero_add]
  · rw [hunallocated]
    change min (max (unallocatedShare lc args states) 0) 1 = _
    rw [max_eq_left hlow, min_eq_left hhigh]

/-! ## Entries that do not count -/

/-- The entry is not excluded, reaches the floor, and its model has a positive budget. -/
def MayCount (lc : LowerCase) (args : BucketArguments) (placed : PlacedEntry) : Prop :=
  (lc.lower placed.address, placed.entry.modelIndex) ∉
      excludedEntryKeys lc args.excludedEntries ∧
    1 / 10 ^ 6 ≤ placed.entry.emaScore ∧
    ∃ budget, args.modelBudgets.get placed.entry.modelId = some budget ∧ 0 < budget

/-- The states with some of their entries. -/
def keepEntries (keep : PlacedEntry → Bool) (states : ScoreStates) : ScoreStates :=
  states.mapItems fun uid state =>
    { state with entries := state.entries.filter fun keyed => keep ⟨uid, state.address, keyed.2⟩ }

theorem mayCount_of_enters {placed : PlacedEntry} (h : Enters lc args placed) :
    MayCount lc args placed := by
  obtain ⟨hexcluded, hbudget, -, hscore⟩ := h
  refine ⟨hexcluded, ?_, ?_⟩
  · by_contra hlow
    rw [flooredScore, if_pos (not_le.mp hlow)] at hscore
    exact hscore.false
  · obtain ⟨budget, hget⟩ := Option.isSome_iff_exists.mp hbudget
    obtain ⟨hentry, hpos⟩ := List.mem_filter.mp (get_eq_some.mp hget)
    exact ⟨budget, get_eq_some.mpr hentry, of_decide_eq_true hpos⟩

theorem placedEntries_keepEntries (keep : PlacedEntry → Bool) :
    placedEntries (keepEntries keep states) = (placedEntries states).filter keep := by
  simp only [placedEntries, keepEntries, mapItems, OrderedDict.filter, List.flatMap_map,
    List.filter_flatMap, List.filter_map]
  rfl

theorem getModelBucketWeights_congr {states' : ScoreStates}
    (huids : states'.entries.map Prod.fst = states.entries.map Prod.fst)
    (hentries : allocate args.logicalTotal (entriesByGroup lc args states') =
      allocate args.logicalTotal (entriesByGroup lc args states)) :
    getModelBucketWeights lc states' args = getModelBucketWeights lc states args := by
  have hstart : (states'.mapValues fun _ => (0 : ℚ)) = states.mapValues fun _ => 0 := by
    apply OrderedDict.ext
    have hpairs := congrArg (List.map fun uid => (uid, (0 : ℚ))) huids
    rwa [List.map_map, List.map_map] at hpairs
  rw [getModelBucketWeights, getModelBucketWeights, hstart, hentries]

theorem getModelBucketWeights_keepEntries {keep : PlacedEntry → Bool}
    (h : ∀ placed ∈ placedEntries states, MayCount lc args placed → keep placed = true) :
    getModelBucketWeights lc (keepEntries keep states) args =
      getModelBucketWeights lc states args := by
  apply getModelBucketWeights_congr
  · simp [keepEntries, mapItems, Function.comp_def]
  · rw [entriesByGroup, entriesByGroup, placedEntries_keepEntries, List.filter_filter]
    congr 2
    refine List.filter_congr fun placed hplaced => ?_
    by_cases henters : Enters lc args placed
    · rw [h placed hplaced (mayCount_of_enters henters), Bool.and_true]
    · simp [henters]

/-! ## Scores of a group in other units -/

/-- The entry with its score scaled, when it is of the group. -/
def PlacedEntry.scale (args : BucketArguments) (groupId : String) (factor : ℚ)
    (placed : PlacedEntry) : PlacedEntry :=
  if args.groupOf placed.entry.modelId = groupId then
    { placed with entry :=
      { placed.entry with emaScore := factor * placed.entry.emaScore } }
  else placed

/-- The states with the scores of a group scaled. -/
def scaleGroup (args : BucketArguments) (groupId : String) (factor : ℚ) (states : ScoreStates) :
    ScoreStates :=
  states.mapItems fun uid state =>
    { state with entries := state.entries.mapValues fun entry =>
        ((⟨uid, state.address, entry⟩ : PlacedEntry).scale args groupId factor).entry }

/-- The factor that applies to a group. -/
def factorOf (groupId : String) (factor : ℚ) (other : String) : ℚ :=
  if other = groupId then factor else 1

variable {groupId : String} {factor : ℚ}

theorem scale_eq (placed : PlacedEntry) :
    placed.scale args groupId factor =
      { placed with entry := { placed.entry with
        emaScore :=
          factorOf groupId factor (args.groupOf placed.entry.modelId) * placed.entry.emaScore } } := by
  rw [PlacedEntry.scale, factorOf]
  split_ifs
  · rfl
  · rw [one_mul]

theorem placedEntries_scaleGroup :
    placedEntries (scaleGroup args groupId factor states) =
      (placedEntries states).map (PlacedEntry.scale args groupId factor) := by
  simp only [placedEntries, scaleGroup, mapItems, mapValues, List.flatMap_map, List.map_flatMap,
    List.map_map]
  refine List.flatMap_congr fun item _ => List.map_congr_left fun keyed _ => ?_
  simp only [Function.comp_apply, scale_eq]

theorem flooredScore_mul {score : ℚ} (h : 1 / 10 ^ 6 ≤ score ↔ 1 / 10 ^ 6 ≤ factor * score) :
    flooredScore (factor * score) = factor * flooredScore score := by
  rw [flooredScore, flooredScore]
  by_cases hlow : score < 1 / 10 ^ 6
  · rw [if_pos hlow, if_pos (not_le.mp fun hle => hlow.not_ge (h.mpr hle)), mul_zero]
  · rw [if_neg hlow, if_neg (not_lt.mpr (h.mp (not_lt.mp hlow)))]

theorem allocate_congr {entries entries' : OrderedDict String (List (ℤ × ℚ))} {total : ℚ}
    (h : ∀ groupId, ∃ k, 0 < k ∧ (entries'.get groupId).getD [] =
      ((entries.get groupId).getD []).map fun entry => (entry.1, k * entry.2)) :
    allocate total entries' = allocate total entries := by
  funext state item
  obtain ⟨k, hk, hentries⟩ := h item.1
  have hsum : (((entries.get item.1).getD []).map fun entry => k * entry.2).sum =
      k * (((entries.get item.1).getD []).map Prod.snd).sum := by
    rw [← List.sum_map_mul_left]
  have hstep : ∀ share scoreTotal, (fun weights (entry : ℤ × ℚ) =>
      addWeight share (k * scoreTotal) weights (entry.1, k * entry.2)) =
      addWeight share scoreTotal := by
    intro share scoreTotal
    funext weights entry
    rw [addWeight, addWeight, mul_left_comm share k, mul_div_mul_left _ _ hk.ne']
  simp only [allocate, hentries, List.map_map, Function.comp_def, hsum, List.foldl_map, hstep]
  refine if_congr ?_ rfl rfl
  rw [← not_lt, ← not_lt, mul_pos_iff_of_pos_left hk]

theorem getModelBucketWeights_scaleGroup (hfactor : 0 < factor)
    (h : ∀ placed ∈ placedEntries states, args.groupOf placed.entry.modelId = groupId →
      (1 / 10 ^ 6 ≤ placed.entry.emaScore ↔ 1 / 10 ^ 6 ≤ factor * placed.entry.emaScore)) :
    getModelBucketWeights lc (scaleGroup args groupId factor states) args =
      getModelBucketWeights lc states args := by
  have hpos : ∀ other, 0 < factorOf groupId factor other := by
    intro other
    rw [factorOf]
    split_ifs
    · exact hfactor
    · exact one_pos
  have hfloor : ∀ placed ∈ placedEntries states,
      flooredScore (placed.scale args groupId factor).entry.emaScore =
        factorOf groupId factor (args.groupOf placed.entry.modelId) *
          flooredScore placed.entry.emaScore := by
    intro placed hplaced
    rw [scale_eq]
    apply flooredScore_mul
    rw [factorOf]
    split_ifs with hgroup
    · exact h placed hplaced hgroup
    · rw [one_mul]
  apply getModelBucketWeights_congr
  · simp [scaleGroup, mapItems, Function.comp_def]
  · apply allocate_congr
    intro other
    refine ⟨factorOf groupId factor other, hpos other, ?_⟩
    have hentries : groupEntries lc args (scaleGroup args groupId factor states) other =
        (groupEntries lc args states other).map (PlacedEntry.scale args groupId factor) := by
      rw [groupEntries, placedEntries_scaleGroup, List.filter_map, groupEntries]
      refine congrArg _ (List.filter_congr fun placed hplaced => ?_)
      have hscore : 0 < flooredScore (placed.scale args groupId factor).entry.emaScore ↔
          0 < flooredScore placed.entry.emaScore := by
        rw [hfloor placed hplaced, mul_pos_iff_of_pos_left (hpos _)]
      rw [Function.comp_apply, decide_eq_decide, Enters, Enters, hscore, scale_eq]
    rw [get_entriesByGroup, get_entriesByGroup, hentries, List.map_map, List.map_map]
    refine List.map_congr_left fun placed hplaced => ?_
    obtain ⟨hmem, hmatches⟩ := List.mem_filter.mp hplaced
    have hgroup : args.groupOf placed.entry.modelId = other := (of_decide_eq_true hmatches).2
    simp only [Function.comp_apply, hfloor placed hmem, hgroup]
    rw [scale_eq]

/-- With a positive model budget and a positive logical budget the weights are not negative and add
up to one with the unallocated part. Each logical group is paid its share, or it has no entries and
its share is unallocated; a weight is what its UID is paid. Entries that are excluded, below the
floor or without a budget are paid nothing and may be left out, and the scores of a group may be
scaled. -/
theorem bucketWeights_conserve (lc : LowerCase) (states : ScoreStates) (args : BucketArguments)
    (hbudgets : args.budgets.entries ≠ []) (hlogical : args.logicalBudgets.entries ≠ []) :
    (∀ weight ∈ (getModelBucketWeights lc states args).1.entries, 0 ≤ weight.2) ∧
    totalWeight (getModelBucketWeights lc states args).1 +
        (getModelBucketWeights lc states args).2 = 1 ∧
    (∀ item ∈ args.logicalBudgets.entries,
      ((groupWeights lc args states item).map Prod.snd).sum =
        if groupEntries lc args states item.1 = [] then 0 else item.2 / args.logicalTotal) ∧
    (getModelBucketWeights lc states args).2 = (args.logicalBudgets.entries.map fun item =>
      if groupEntries lc args states item.1 = [] then item.2 / args.logicalTotal else 0).sum ∧
    (∀ uid, ((getModelBucketWeights lc states args).1.get uid).getD 0 =
      (args.logicalBudgets.entries.map fun item =>
        paidTo uid (groupWeights lc args states item)).sum) ∧
    (∀ groupId, ∀ placed ∈ groupEntries lc args states groupId, MayCount lc args placed) ∧
    (∀ keep : PlacedEntry → Bool,
      (∀ placed ∈ placedEntries states, MayCount lc args placed → keep placed = true) →
        getModelBucketWeights lc (keepEntries keep states) args =
          getModelBucketWeights lc states args) ∧
    ∀ groupId factor, 0 < factor →
      (∀ placed ∈ placedEntries states, args.groupOf placed.entry.modelId = groupId →
        (1 / 10 ^ 6 ≤ placed.entry.emaScore ↔ 1 / 10 ^ 6 ≤ factor * placed.entry.emaScore)) →
      getModelBucketWeights lc (scaleGroup args groupId factor states) args =
        getModelBucketWeights lc states args := by
  obtain ⟨htotal, hget, hunallocated⟩ :
      totalWeight (getModelBucketWeights lc states args).1 = _ ∧ _ :=
    getModelBucketWeights_eq hbudgets hlogical
  refine ⟨fun weight hweight => ?_, ?_, fun item _ => sum_groupWeights item, hunallocated, hget,
    fun groupId placed hplaced => ?_, fun keep => getModelBucketWeights_keepEntries,
    fun groupId factor => getModelBucketWeights_scaleGroup⟩
  · have hvalue := hget weight.1
    rw [get_eq_some.mpr hweight, Option.getD_some] at hvalue
    rw [hvalue]
    apply List.sum_nonneg
    intro paid hpaid
    obtain ⟨item, hitem, rfl⟩ := List.mem_map.mp hpaid
    apply List.sum_nonneg
    intro payment hpayment
    obtain ⟨entry, hentry, rfl⟩ := List.mem_map.mp hpayment
    exact groupWeights_nonneg hitem entry (List.mem_filter.mp hentry).1
  · rw [htotal, hunallocated]
    exact paid_add_unallocated hlogical
  · exact mayCount_of_enters (of_decide_eq_true (List.mem_filter.mp hplaced).2).1

/-- Two miners that serve one of two models. -/
def sampleStates : ScoreStates :=
  .ofList [(1, ⟨"0xA", .ofList [(0, ⟨"m", 0, 3⟩)]⟩), (2, ⟨"0xB", .ofList [(0, ⟨"m", 0, 1⟩)]⟩)]

/-- Equal budgets for both models. -/
def sampleArguments : BucketArguments where
  modelBudgets := .ofList [("m", 1), ("n", 1)]
  modelGroups := none
  groupBudgets := none
  excludedEntries := ∅

/-- The share of the model that nobody serves is unallocated. -/
theorem bucketWeights_conserve_sample :
    totalWeight (getModelBucketWeights .ascii sampleStates sampleArguments).1 +
        (getModelBucketWeights .ascii sampleStates sampleArguments).2 = 1 ∧
      (getModelBucketWeights .ascii sampleStates sampleArguments).2 = 1 / 2 :=
  ⟨(bucketWeights_conserve .ascii sampleStates sampleArguments (by decide +kernel)
    (by decide +kernel)).2.1, by decide +kernel⟩

end Verathos.Scoring
