import Verathos.SchedulerGeometry.Chronology

/-!
# The geometry without prefix cache

`prefix_cache_full_recompute_geometry_v3` puts steps of the target alone before the steps of a trace
and leaves out the step of a trailing stop row. The trace that it builds is checked again.

* `exists_prefixSteps`: the added steps tile the cached tokens.
* `isChain_target`: the slots of the target need no check of their own, since they tile the tokens.
* `recomputed_valid`, `cohortsDense_append_iff`: the new trace passes exactly when the cohorts of the kept steps are still
  numbered without a gap. Every other condition carries over.
-/

namespace Verathos.SchedulerGeometry

open Blocks (blockCount)
open KeyedChain (ofKey)
open PrefixCache (construct construct_eq_ok)
open Tiling (Tiles tiles_append)

variable {steps steps' : List SchedulerGeometryStep} {step : SchedulerGeometryStep}
  {trace : TraceFields} {gapTotal start stop context : ℕ}

/-! ## Entries of parts -/

/-- The gap steps of some steps. -/
def gapSteps (steps : List SchedulerGeometryStep) : ℕ :=
  (steps.map fun step => step.val.gapStepsBefore).sum

theorem entries_append : entries gapTotal (steps ++ steps') =
    entries gapTotal steps ++ entries (gapTotal + gapSteps steps) steps' := by
  induction steps generalizing gapTotal with
  | nil => rfl
  | cons step steps ih =>
    have hsum : gapSteps (step :: steps) = step.val.gapStepsBefore + gapSteps steps := by
      rw [gapSteps, gapSteps, List.map_cons, List.sum_cons]
    rw [List.cons_append, entries, ih, entries, List.append_assoc, hsum, Nat.add_assoc]

theorem Chronological.of_append (h : Chronological (steps ++ steps')) : Chronological steps := by
  intro cohort
  have hchain := h cohort
  rw [entries_append, KeyedChain.ofKey_append] at hchain
  exact (List.isChain_append.mp hchain).1

theorem filter_cohort_eq (htarget : (targetSlot step).val.cohortId = 0) :
    (step.val.slots.filter fun slot => slot.val.cohortId = 0) = [targetSlot step] := by
  have hmem : targetSlot step ∈ step.val.slots := List.get_mem _ _
  have hcohorts := (valid_step step).cohorts_nodup
  have hnodup : (step.val.slots.filter fun slot => slot.val.cohortId = 0).Nodup :=
    hcohorts.of_map.filter _
  refine List.perm_singleton.mp ((List.perm_ext_iff_of_nodup hnodup
    (List.nodup_singleton _)).mpr fun slot => ?_)
  rw [List.mem_filter, decide_eq_true_eq, List.mem_singleton]
  constructor
  · rintro ⟨hslot, hcohort⟩
    exact List.inj_on_of_nodup_map hcohorts hslot hmem (hcohort.trans htarget.symm)
  · rintro rfl
    exact ⟨hmem, htarget⟩

theorem ofKey_entries_cons (htarget : (targetSlot step).val.cohortId = 0) :
    ofKey Entry.cohort 0 (entries gapTotal (step :: steps)) =
      (gapTotal + step.val.gapStepsBefore, targetSlot step) ::
        ofKey Entry.cohort 0 (entries (gapTotal + step.val.gapStepsBefore) steps) := by
  rw [entries, KeyedChain.ofKey_append, KeyedChain.ofKey, List.filter_map]
  change List.map _ (step.val.slots.filter fun slot => slot.val.cohortId = 0) ++ _ = _
  rw [filter_cohort_eq htarget]
  rfl

theorem isChain_target (htarget : ∀ step ∈ steps, (targetSlot step).val.cohortId = 0 ∧
      (targetSlot step).val.promptTokens = context)
    (htiles : Tiles start stop (targetRuns steps)) :
    (ofKey Entry.cohort 0 (entries gapTotal steps)).IsChain Follows := by
  induction steps generalizing gapTotal start with
  | nil => exact List.isChain_nil
  | cons step steps ih =>
    obtain ⟨hstep, hsteps⟩ := List.forall_mem_cons.mp htarget
    obtain ⟨hstart, -, hrest⟩ := htiles
    rw [ofKey_entries_cons hstep.1, List.isChain_cons]
    refine ⟨?_, ih hsteps hrest⟩
    intro entry hentry
    cases steps with
    | nil => exact nomatch hentry
    | cons next steps =>
      obtain ⟨hnext, -⟩ := List.forall_mem_cons.mp hsteps
      rw [ofKey_entries_cons hnext.1] at hentry
      obtain rfl := Option.some.inj hentry
      -- the next run begins where this one ends
      have hbegin : (targetSlot next).val.computedTokens =
          (targetSlot step).val.computedTokens + (targetSlot step).val.scheduledTokens :=
        hrest.1.trans (congrArg (· + _) hstart.symm)
      exact ⟨hstep.2.trans hnext.2.symm, hbegin.ge, .inl hbegin⟩

/-! ## The added steps -/

/-- A step that schedules the target alone, with at most `budget` tokens. -/
structure IsPrefixStep (context budget : ℕ) (step : SchedulerGeometryStep) : Prop where
  gap_eq : step.val.gapStepsBefore = 0
  slots_eq : step.val.slots = [targetSlot step]
  cohort_eq : (targetSlot step).val.cohortId = 0
  prompt_eq : (targetSlot step).val.promptTokens = context
  total_le : step.val.totalScheduledTokens ≤ budget

variable {budget : ℕ}

theorem exists_prefixStep {computed scheduled : ℕ} (hcontext : 0 < context)
    (hcontext' : context < 2 ^ 32) (hend : computed + scheduled < 2 ^ 32) (hpos : 0 < scheduled)
    (hle : scheduled ≤ budget) :
    ∃ step, prefixStep context computed scheduled = .ok step ∧ IsPrefixStep context budget step ∧
      (targetSlot step).val.run = (computed, scheduled) := by
  have hcohort : 0 < maxCohorts := by decide
  have hcomputed : computed < 2 ^ 32 := by omega
  have hscheduled : scheduled < 2 ^ 32 := by omega
  have hslot : SlotFields.Valid ⟨0, context, computed, scheduled, true⟩ :=
    ⟨hcohort, hcontext, hcontext', hcomputed, hpos, hscheduled⟩
  let slot : SchedulerGeometrySlot := ⟨_, SlotFields.postInit_eq_ok.mpr hslot⟩
  have hgap : 0 < 2 ^ 32 := by decide
  have hslots : [slot].length ≤ maxSlots := by rw [List.length_singleton, maxSlots]; omega
  have hstep : StepFields.Valid ⟨0, scheduled, [slot]⟩ :=
    ⟨hgap, hpos, hscheduled, List.cons_ne_nil _ _, hslots, rfl, rfl, List.nodup_singleton _⟩
  let step : SchedulerGeometryStep := ⟨_, StepFields.postInit_eq_ok.mpr hstep⟩
  have hfits : IsPrefixStep context budget step := ⟨rfl, rfl, rfl, rfl, hle⟩
  refine ⟨step, ?_, hfits, rfl⟩
  exact bind_eq_ok.mpr ⟨slot, construct_eq_ok.mpr rfl, construct_eq_ok.mpr rfl⟩

theorem exists_prefixSteps {initial computed : ℕ} (hcontext : context < 2 ^ 32)
    (hinitial : initial < context) (hbudget : 0 < budget) (hle : computed ≤ initial) :
    ∃ added, (∀ fuel, initial - computed < fuel →
        prefixSteps context initial budget fuel computed = some (.ok added)) ∧
      Tiles computed initial (targetRuns added) ∧
      (∀ step ∈ added, IsPrefixStep context budget step) ∧
      added.length = blockCount budget (initial - computed) := by
  induction hn : initial - computed using Nat.strong_induction_on generalizing computed with
  | _ n ih =>
    subst hn
    by_cases hlt : computed < initial
    · have hpos : 0 < min budget (initial - computed) := lt_min hbudget (by omega)
      have hend : computed + min budget (initial - computed) ≤ initial := by
        have := min_le_right budget (initial - computed)
        omega
      have hend32 : computed + min budget (initial - computed) < 2 ^ 32 := by omega
      obtain ⟨step, hstep, hfits, hrun⟩ := exists_prefixStep (by omega : 0 < context) hcontext
        hend32 hpos (min_le_left _ _)
      obtain ⟨added, hloop, htiles, hadded, hlength⟩ := ih _ (by omega) hend rfl
      refine ⟨step :: added, fun fuel hfuel => ?_, ?_, List.forall_mem_cons.mpr ⟨hfits, hadded⟩,
        ?_⟩
      · obtain ⟨fuel, rfl⟩ := Nat.exists_eq_succ_of_ne_zero (Nat.ne_zero_of_lt hfuel)
        rw [prefixSteps, if_pos hlt]
        simp only [hstep, hloop fuel (by omega), Option.map_some]
        rfl
      · rw [targetRuns, List.map_cons, hrun]
        exact ⟨rfl, hpos, htiles⟩
      · rw [List.length_cons, hlength]
        rcases le_or_gt (initial - computed) budget with hle | hgt
        · -- the last step takes what remains
          have hrest : initial - (computed + min budget (initial - computed)) = 0 := by omega
          rw [hrest, Blocks.blockCount_zero hbudget,
            Blocks.blockCount_of_le (by omega) hle]
        · have hsplit : initial - computed =
              budget + (initial - (computed + min budget (initial - computed))) := by omega
          rw [hsplit, Blocks.blockCount_add hbudget, ← hsplit]
    · have hrest : initial - computed = 0 := by omega
      refine ⟨[], fun fuel hfuel => ?_, le_antisymm hle (by omega), List.forall_mem_nil _, ?_⟩
      · obtain ⟨fuel, rfl⟩ := Nat.exists_eq_succ_of_ne_zero (Nat.ne_zero_of_lt hfuel)
        rw [prefixSteps, if_neg hlt]
      · rw [hrest, Blocks.blockCount_zero hbudget, List.length_nil]

/-! ## The new trace -/

theorem exists_keptSteps_append (trace : TraceFields) :
    ∃ rest, keptSteps trace ++ rest = trace.steps := by
  rw [keptSteps]
  split_ifs
  · exact List.dropLast_prefix trace.steps
  · exact ⟨[], List.append_nil _⟩

theorem tiles_keptSteps {observedEnd : ℕ} (h : trace.Valid observedEnd) :
    Tiles trace.initialComputedTokens trace.sequenceTokenCount (targetRuns (keptSteps trace)) := by
  have hend : trace.initialComputedTokens +
      ((trace.steps.map targetSlot).map fun slot => slot.val.scheduledTokens).sum =
        observedEnd := by
    rw [List.map_map, ← h.tiles.sum_sizes, targetRuns, List.map_map]
    rfl
  rw [keptSteps, hend]
  split_ifs with hstop
  · -- the last of the tiles is the stop row alone
    obtain ⟨hobserved, slot, hslot, hcomputed, hscheduled⟩ := hstop
    have htiles := h.tiles
    rw [← List.dropLast_concat_getLast h.steps_ne_nil, targetRuns, List.map_append,
      tiles_append] at htiles
    obtain ⟨middle, htiles, hlast, -, -⟩ := htiles
    rw [List.getLast?_map, List.getLast?_eq_some_getLast h.steps_ne_nil, Option.map_some] at hslot
    obtain rfl := Option.some.inj hslot
    obtain rfl : middle = trace.sequenceTokenCount := hlast.symm.trans hcomputed
    exact htiles
  · obtain rfl := h.covers.resolve_right hstop
    exact h.tiles

variable {added : List SchedulerGeometryStep}

theorem mem_cohortsOf_append {cohort : ℕ} {kept : List SchedulerGeometryStep} (hne : added ≠ [])
    (hadded : ∀ step ∈ added, IsPrefixStep context budget step) :
    cohort ∈ cohortsOf (added ++ kept) ↔ cohort = 0 ∨ cohort ∈ cohortsOf kept := by
  have hzero : cohort ∈ cohortsOf added ↔ cohort = 0 := by
    rw [mem_cohortsOf]
    constructor
    · rintro ⟨step, hstep, slot, hslot, rfl⟩
      rw [(hadded step hstep).slots_eq, List.mem_singleton] at hslot
      rw [hslot, (hadded step hstep).cohort_eq]
    · rintro rfl
      obtain ⟨step, hstep⟩ := List.exists_mem_of_ne_nil added hne
      exact ⟨step, hstep, targetSlot step, List.get_mem _ _, (hadded step hstep).cohort_eq⟩
  rw [← hzero, cohortsOf, List.flatMap_append, List.toFinset_append, Finset.mem_union]
  rfl

theorem cohortsDense_append_iff {kept : List SchedulerGeometryStep} (hne : added ≠ [])
    (hadded : ∀ step ∈ added, IsPrefixStep context budget step)
    (hkept : ∀ step ∈ kept, (targetSlot step).val.cohortId = 0) :
    CohortsDense (added ++ kept) ↔ CohortsDense kept := by
  simp only [CohortsDense, mem_cohortsOf_append hne hadded]
  constructor
  · intro h cohort hcohort smaller hlt
    rcases h cohort (.inr hcohort) smaller hlt with rfl | hmem
    · -- a kept step has the target, whose cohort is 0
      obtain ⟨step, hstep, -⟩ := mem_cohortsOf.mp hcohort
      exact mem_cohortsOf.mpr ⟨step, hstep, targetSlot step, List.get_mem _ _, hkept step hstep⟩
    · exact hmem
  · rintro h cohort (rfl | hcohort) smaller hlt
    · exact absurd hlt (Nat.not_lt_zero _)
    · exact .inr (h cohort hcohort smaller hlt)

theorem ofKey_entries_prefix {cohort : ℕ}
    (hadded : ∀ step ∈ added, IsPrefixStep context budget step) (hcohort : cohort ≠ 0) :
    ofKey Entry.cohort cohort (entries gapTotal added) = [] := by
  induction added generalizing gapTotal with
  | nil => rfl
  | cons step added ih =>
    obtain ⟨hstep, hrest⟩ := List.forall_mem_cons.mp hadded
    rw [entries, KeyedChain.ofKey_append, ih hrest, List.append_nil, hstep.slots_eq, List.map_cons,
      List.map_nil, KeyedChain.ofKey_cons_of_ne, KeyedChain.ofKey_nil]
    exact fun heq => hcohort (heq.symm.trans hstep.cohort_eq)

theorem gapSteps_prefix (hadded : ∀ step ∈ added, IsPrefixStep context budget step) :
    gapSteps added = 0 := by
  rw [gapSteps, List.sum_eq_zero_iff]
  intro gap hgap
  obtain ⟨step, hstep, rfl⟩ := List.mem_map.mp hgap
  exact (hadded step hstep).gap_eq

/-- The fields of the new trace. -/
def recomputed (trace : TraceFields) (added : List SchedulerGeometryStep) : TraceFields where
  contextTokenCount := trace.contextTokenCount
  sequenceTokenCount := trace.sequenceTokenCount
  steps := added ++ keptSteps trace
  initialComputedTokens := 0

theorem recomputed_valid {observedEnd : ℕ} (h : trace.Valid observedEnd) (hne : added ≠ [])
    (hadded : ∀ step ∈ added, IsPrefixStep trace.contextTokenCount budget step)
    (htiles : Tiles 0 trace.initialComputedTokens (targetRuns added))
    (hlength : added.length + (keptSteps trace).length ≤ maxSteps)
    (hcohorts : CohortsDense (keptSteps trace)) :
    (recomputed trace added).Valid trace.sequenceTokenCount := by
  obtain ⟨rest, hrest⟩ := exists_keptSteps_append trace
  have hkept : ∀ step ∈ keptSteps trace, (targetSlot step).val.cohortId = 0 ∧
      (targetSlot step).val.promptTokens = trace.contextTokenCount := by
    intro step hstep
    exact h.target step (hrest ▸ List.mem_append_left rest hstep)
  have htarget : ∀ step ∈ added ++ keptSteps trace, (targetSlot step).val.cohortId = 0 ∧
      (targetSlot step).val.promptTokens = trace.contextTokenCount := by
    intro step hstep
    rcases List.mem_append.mp hstep with hstep | hstep
    · exact ⟨(hadded step hstep).cohort_eq, (hadded step hstep).prompt_eq⟩
    · exact hkept step hstep
  have hall : Tiles 0 trace.sequenceTokenCount (targetRuns (added ++ keptSteps trace)) := by
    rw [targetRuns, List.map_append, tiles_append]
    exact ⟨_, htiles, tiles_keptSteps h⟩
  exact {
    context_lt := h.context_lt
    sequence_pos := h.sequence_pos
    sequence_lt := h.sequence_lt
    initial_lt := (Nat.zero_le _).trans_lt h.initial_lt
    steps_ne_nil := List.append_ne_nil_of_left_ne_nil hne _
    length_steps_le := by
      rw [recomputed, List.length_append]
      exact hlength
    first_gap := by
      intro step hstep
      have hmem : step ∈ added := by
        rw [recomputed, List.head?_append_of_ne_nil _ hne] at hstep
        exact List.mem_of_mem_head? hstep
      exact (hadded step hmem).gap_eq
    gaps_le := by
      have hgaps : gapSteps trace.steps ≤ maxGapSteps := h.gaps_le
      change gapSteps (added ++ keptSteps trace) ≤ maxGapSteps
      have hsum : gapSteps trace.steps = gapSteps (keptSteps trace) + gapSteps rest := by
        rw [← hrest, gapSteps, List.map_append, List.sum_append]
        rfl
      have hzero : gapSteps (added ++ keptSteps trace) = gapSteps (keptSteps trace) := by
        rw [gapSteps, List.map_append, List.sum_append, ← gapSteps, gapSteps_prefix hadded,
          Nat.zero_add]
        rfl
      rw [hzero]
      omega
    target := htarget
    tiles := hall
    covers := .inl rfl
    cohorts := (cohortsDense_append_iff hne hadded fun step hstep => (hkept step hstep).1).mpr
      hcohorts
    chronological := by
      intro cohort
      by_cases hcohort : cohort = 0
      · rw [hcohort]
        exact isChain_target htarget hall
      · have hchain := Chronological.of_append (hrest.symm ▸ h.chronological) cohort
        rw [recomputed, entries_append, KeyedChain.ofKey_append,
          ofKey_entries_prefix hadded hcohort, List.nil_append, gapSteps_prefix hadded,
          Nat.add_zero]
        exact hchain }

/-- What the geometry without prefix cache should be. -/
structure Recomputes (trace : SchedulerGeometryTrace) (budget : ℕ)
    (result : SchedulerGeometryTrace) : Prop where
  returns : ∀ fuel, trace.val.initialComputedTokens < fuel →
    prefixCacheFullRecomputeGeometry fuel trace budget = some (.ok result)
  initial_eq : result.val.initialComputedTokens = 0
  /-- Its target slots tile the tokens, without a stop row. -/
  tiles : Tiles 0 trace.val.sequenceTokenCount (targetRuns result.val.steps)
  /-- It ends with the steps of the trace, and no added step exceeds the budget. -/
  ends : ∃ added, result.val.steps = added ++ keptSteps trace.val ∧
    ∀ step ∈ added, step.val.totalScheduledTokens ≤ budget
  idempotent : ∀ fuel, prefixCacheFullRecomputeGeometry fuel result budget = some (.ok result)

theorem fullRecompute_eq {fuel : ℕ} {trace : SchedulerGeometryTrace}
    (hinitial : 0 < trace.val.initialComputedTokens) (hbudget : 0 < budget)
    (hbudget32 : budget < 2 ^ 32)
    (hadded : prefixSteps trace.val.contextTokenCount trace.val.initialComputedTokens budget fuel 0 =
      some (.ok added)) (hlength : added.length + (keptSteps trace.val).length ≤ maxSteps) :
    prefixCacheFullRecomputeGeometry fuel trace budget =
      some (construct TraceFields.postInit (recomputed trace.val added)) := by
  have hu32 : positiveU32 budget "prefix-cache replay prefill token budget" = .ok budget :=
    positiveU32_eq_ok.mpr ⟨⟨hbudget, hbudget32⟩, rfl⟩
  rw [prefixCacheFullRecomputeGeometry, hu32]
  dsimp only
  have hguard : raiseIf (added.length + (keptSteps trace.val).length > maxSteps)
      (.proofV3Error "prefix-cache full recompute exceeds the scheduler step bound") = .ok () :=
    raiseIf_eq_ok.mpr (not_lt.mpr hlength)
  rw [if_neg hinitial.ne', hadded, Option.map_some]
  refine congrArg some ?_
  change (raiseIf _ _ >>= fun _ => construct _ _) = _
  rw [hguard]
  rfl

/-- For every trace with cached tokens and every positive budget that fits the bound on the steps,
the geometry is as it should be exactly when the budget is a 32-bit number and the cohorts of the
kept steps are numbered without a gap. -/
theorem prefixCacheFullRecompute_iff (trace : SchedulerGeometryTrace) (budget : ℕ)
    (hinitial : 0 < trace.val.initialComputedTokens) (hbudget : 0 < budget)
    (hsteps : blockCount budget trace.val.initialComputedTokens + (keptSteps trace.val).length ≤
      maxSteps) :
    (∃ result, Recomputes trace budget result) ↔
      budget < 2 ^ 32 ∧ CohortsDense (keptSteps trace.val) := by
  obtain ⟨observedEnd, hvalid⟩ := TraceFields.postInit_eq_ok.mp trace.property
  obtain ⟨added, hloop, htiles, hadded, hlength⟩ :=
    exists_prefixSteps hvalid.context_lt hvalid.initial_lt hbudget (Nat.zero_le _)
  rw [Nat.sub_zero] at hloop hlength
  have hbound : added.length + (keptSteps trace.val).length ≤ maxSteps := hlength ▸ hsteps
  have hne : added ≠ [] := by
    rintro rfl
    exact hinitial.ne htiles
  have hkept : ∀ step ∈ keptSteps trace.val, (targetSlot step).val.cohortId = 0 := by
    obtain ⟨rest, hrest⟩ := exists_keptSteps_append trace.val
    intro step hstep
    exact (hvalid.target step (hrest ▸ List.mem_append_left rest hstep)).1
  constructor
  · rintro ⟨result, hresult⟩
    have hreturns := hresult.returns _ (Nat.lt_succ_self _)
    have hbudget32 : budget < 2 ^ 32 := by
      by_contra hlarge
      have hu32 : positiveU32 budget "prefix-cache replay prefill token budget" =
          .error (.proofV3Error ("prefix-cache replay prefill token budget" ++
            " is out of range")) := by
        rw [positiveU32, raiseIf, if_pos (.inr (by exact_mod_cast not_lt.mp hlarge))]
        rfl
      rw [prefixCacheFullRecomputeGeometry, hu32] at hreturns
      cases hreturns
    rw [fullRecompute_eq hinitial hbudget hbudget32 (hloop _ (Nat.lt_succ_self _)) hbound,
      Option.some.injEq, construct_eq_ok] at hreturns
    obtain ⟨_, hresultValid⟩ := TraceFields.postInit_eq_ok.mp result.property
    rw [hreturns] at hresultValid
    exact ⟨hbudget32, (cohortsDense_append_iff hne hadded hkept).mp hresultValid.cohorts⟩
  · rintro ⟨hbudget32, hcohorts⟩
    have hresult := recomputed_valid hvalid hne hadded htiles hbound hcohorts
    refine ⟨⟨recomputed trace.val added, TraceFields.postInit_eq_ok.mpr ⟨_, hresult⟩⟩, ?_, rfl,
      hresult.tiles, ⟨added, rfl, fun step hstep => (hadded step hstep).total_le⟩, ?_⟩
    · intro fuel hfuel
      rw [fullRecompute_eq hinitial hbudget hbudget32 (hloop fuel hfuel) hbound, Option.some.injEq,
        construct_eq_ok]
    · intro fuel
      have hu32 : positiveU32 budget "prefix-cache replay prefill token budget" = .ok budget :=
        positiveU32_eq_ok.mpr ⟨⟨hbudget, hbudget32⟩, rfl⟩
      rw [prefixCacheFullRecomputeGeometry, hu32]
      exact if_pos rfl

/-! ## A cohort that only the stop row has -/

/-- The slot of the target, which computes one token. -/
def lateTarget (computed : ℕ) : SlotFields := ⟨0, 2, computed, 1, true⟩

/-- The only slot of another cohort. -/
def lateCompanion (cohort : ℕ) : SlotFields := ⟨cohort, 1, 0, 1, false⟩

/-- The step after the cached token: the target and cohort 2. -/
def lateFirstStep : StepFields :=
  ⟨0, 2, [⟨lateTarget 1, by decide⟩, ⟨lateCompanion 2, by decide⟩]⟩

/-- The step of the stop row: the target and cohort 1. -/
def lateStopStep : StepFields :=
  ⟨0, 2, [⟨lateTarget 2, by decide⟩, ⟨lateCompanion 1, by decide⟩]⟩

/-- A trace in which only the step of the stop row has cohort 1. -/
def lateTrace : SchedulerGeometryTrace :=
  ⟨{ contextTokenCount := 2
     sequenceTokenCount := 2
     steps := [⟨lateFirstStep, by decide⟩, ⟨lateStopStep, by decide⟩]
     initialComputedTokens := 1 }, by decide +kernel⟩

/-- The trace has cached tokens and two steps, and is refused when its stop row is left out. -/
theorem prefixCacheFullRecompute_refuses :
    0 < lateTrace.val.initialComputedTokens ∧
      blockCount 1 lateTrace.val.initialComputedTokens + (keptSteps lateTrace.val).length ≤
        maxSteps ∧
      prefixCacheFullRecomputeGeometry 2 lateTrace 1 =
        some (.error (.proofV3Error "scheduler cohort inventory is not canonical")) ∧
      ¬ ∃ result, Recomputes lateTrace 1 result := by
  have hrefuses : prefixCacheFullRecomputeGeometry 2 lateTrace 1 =
      some (.error (.proofV3Error "scheduler cohort inventory is not canonical")) := by
    decide +kernel
  refine ⟨by decide, by decide +kernel, hrefuses, ?_⟩
  rintro ⟨result, hresult⟩
  have hreturns := hresult.returns 2 (by decide)
  rw [show ((1 : ℕ) : ℤ) = 1 from rfl, hrefuses] at hreturns
  exact nomatch Option.some.inj hreturns

/-- The trace without the stop row. -/
def earlyTrace : SchedulerGeometryTrace :=
  ⟨{ contextTokenCount := 2
     sequenceTokenCount := 2
     steps := [⟨⟨0, 1, [⟨lateTarget 1, by decide⟩]⟩, by decide⟩]
     initialComputedTokens := 1 }, by decide +kernel⟩

/-- A trace of the target alone has a geometry without prefix cache. -/
theorem prefixCacheFullRecompute_iff_earlyTrace : ∃ result, Recomputes earlyTrace 1 result := by
  have hcohorts : CohortsDense (keptSteps earlyTrace.val) := by
    unfold CohortsDense
    decide +kernel
  exact (prefixCacheFullRecompute_iff earlyTrace 1 (by decide) (by decide)
    (by decide +kernel)).mpr ⟨by decide, hcohorts⟩

end Verathos.SchedulerGeometry
