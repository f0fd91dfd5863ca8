import Verathos.Lib.Chains
import Verathos.Lib.Intervals
import Verathos.SchedulerGeometry.Defs

/-!
# What the constructor of a trace accepts

The loop over all slots keeps three dictionaries by cohort. They describe the last slot of each
cohort, so the loop accepts exactly when the slots of every cohort follow one another
(`accepts_checkChronology_iff`). With this, `TraceFields.Valid` says what the constructor accepts, in
a form that can be carried over to another list of steps.
-/

namespace Verathos.SchedulerGeometry

open KeyedChain (Checked lastItems ofKey)

/-! ## The loop over all slots -/

/-- A slot and the number of gap steps up to its step. -/
abbrev Entry := ℕ × SchedulerGeometrySlot

/-- The cohort of an entry. -/
def Entry.cohort (entry : Entry) : ℕ := entry.2.val.cohortId

/-- Where the next slot of the cohort begins when nothing was missed. -/
def Entry.next (entry : Entry) : ℕ := entry.2.val.computedTokens + entry.2.val.scheduledTokens

/-- A slot of a cohort may come after another one. -/
structure Follows (before entry : Entry) : Prop where
  prompt_eq : before.2.val.promptTokens = entry.2.val.promptTokens
  next_le : before.next ≤ entry.2.val.computedTokens
  contiguous : entry.2.val.computedTokens = before.next ∨ before.1 ≠ entry.1

/-- The slots of some steps in order, after some gap steps. -/
def entries : ℕ → List SchedulerGeometryStep → List Entry
  | _, [] => []
  | gapTotal, step :: steps =>
    step.val.slots.map (Prod.mk (gapTotal + step.val.gapStepsBefore)) ++
      entries (gapTotal + step.val.gapStepsBefore) steps

/-- The dictionaries describe the last entries. -/
structure Describes (state : ChronologyState) (last : ℕ → Option Entry) : Prop where
  promptCounts : ∀ cohort, state.promptCounts cohort =
    (last cohort).map fun entry => entry.2.val.promptTokens
  nextComputed : ∀ cohort, state.nextComputed cohort = (last cohort).map Entry.next
  lastSeenGapTotal : ∀ cohort, state.lastSeenGapTotal cohort = (last cohort).map Prod.fst

/-- The dictionaries after an accepted slot. -/
def ChronologyState.after (state : ChronologyState) (slot : SchedulerGeometrySlot) :
    ChronologyState :=
  { state with
    promptCounts := Function.update state.promptCounts slot.val.cohortId
      (some slot.val.promptTokens)
    nextComputed := Function.update state.nextComputed slot.val.cohortId
      (some (slot.val.computedTokens + slot.val.scheduledTokens))
    lastSeenGapTotal := Function.update state.lastSeenGapTotal slot.val.cohortId
      (some state.gapTotal) }

variable {state state' : ChronologyState} {last : ℕ → Option Entry}
  {slot : SchedulerGeometrySlot} {slots : List SchedulerGeometrySlot}
  {steps steps' : List SchedulerGeometryStep}

theorem describes_start : Describes {} fun _ => none := ⟨fun _ => rfl, fun _ => rfl, fun _ => rfl⟩

theorem checkComputed_eq_ok (h : Describes state last) :
    checkComputed state slot.val = .ok () ↔ ∀ before, last slot.val.cohortId = some before →
      before.next ≤ slot.val.computedTokens ∧
        (slot.val.computedTokens = before.next ∨ before.1 ≠ state.gapTotal) := by
  rw [checkComputed, h.nextComputed, h.lastSeenGapTotal]
  cases last slot.val.cohortId with
  | none => simp
  | some before =>
    simp only [Option.map_some, Option.getD_some, bind_eq_ok, raiseIf_eq_ok, exists_const,
      not_lt, Option.some.injEq, forall_eq', not_and_or, not_not]

theorem checkSlot_eq_ok (h : Describes state last) :
    checkSlot state slot = .ok state' ↔
      (∀ before, last slot.val.cohortId = some before → Follows before (state.gapTotal, slot)) ∧
        state' = state.after slot := by
  simp only [checkSlot, bind_eq_ok, raiseIf_eq_ok, exists_const, not_not, pure_eq_ok,
    checkComputed_eq_ok h, h.promptCounts]
  cases hlast : last slot.val.cohortId with
  | none => simp [ChronologyState.after, eq_comm]
  | some before =>
    simp only [Option.map_some, Option.getD_some, Option.some.injEq, forall_eq']
    constructor
    · rintro ⟨hprompt, ⟨hnext, hcontiguous⟩, rfl⟩
      exact ⟨⟨hprompt, hnext, hcontiguous⟩, by rw [hprompt, ChronologyState.after]⟩
    · rintro ⟨⟨hprompt, hnext, hcontiguous⟩, rfl⟩
      exact ⟨hprompt, ⟨hnext, hcontiguous⟩, by rw [hprompt, ChronologyState.after]⟩

theorem Describes.after (h : Describes state last) :
    Describes (state.after slot)
      (Function.update last slot.val.cohortId (some (state.gapTotal, slot))) := by
  refine ⟨fun cohort => ?_, fun cohort => ?_, fun cohort => ?_⟩
  all_goals
    by_cases hcohort : cohort = slot.val.cohortId
    · subst hcohort
      simp [ChronologyState.after, Entry.next]
    · simp [ChronologyState.after, hcohort, h.promptCounts, h.nextComputed, h.lastSeenGapTotal]

theorem foldlM_checkSlot_eq_ok (h : Describes state last) :
    slots.foldlM checkSlot state = .ok state' ↔
      Checked Entry.cohort Follows last (slots.map (Prod.mk state.gapTotal)) ∧
        state' = slots.foldl ChronologyState.after state := by
  induction slots generalizing state last with
  | nil =>
    rw [List.foldlM_nil, pure_eq_ok, List.foldl_nil, eq_comm]
    exact (and_iff_right trivial).symm
  | cons slot slots ih =>
    simp only [List.foldlM_cons, bind_eq_ok, checkSlot_eq_ok h, List.map_cons, Checked,
      List.foldl_cons]
    constructor
    · rintro ⟨_, ⟨hslot, rfl⟩, hrest⟩
      obtain ⟨hchecked, hstate⟩ := (ih h.after).mp hrest
      exact ⟨⟨hslot, hchecked⟩, hstate⟩
    · rintro ⟨⟨hslot, hchecked⟩, hstate⟩
      exact ⟨_, ⟨hslot, rfl⟩, (ih h.after).mpr ⟨hchecked, hstate⟩⟩

@[simp]
theorem gapTotal_foldl_after :
    (slots.foldl ChronologyState.after state).gapTotal = state.gapTotal := by
  induction slots generalizing state with
  | nil => rfl
  | cons slot slots ih => exact ih

theorem Describes.foldl_after (h : Describes state last) :
    Describes (slots.foldl ChronologyState.after state)
      (lastItems Entry.cohort last (slots.map (Prod.mk state.gapTotal))) := by
  induction slots generalizing state last with
  | nil => exact h
  | cons slot slots ih => exact ih h.after

theorem accepts_foldlM_checkStep (h : Describes state last) :
    Accepts (steps.foldlM checkStep state) ↔
      Checked Entry.cohort Follows last (entries state.gapTotal steps) := by
  induction steps generalizing state last with
  | nil => exact iff_of_true ⟨state, rfl⟩ trivial
  | cons step steps ih =>
    set next : ChronologyState :=
      { state with gapTotal := state.gapTotal + step.val.gapStepsBefore } with hnext
    have hdescribes : Describes next last := ⟨h.promptCounts, h.nextComputed, h.lastSeenGapTotal⟩
    have hrest := ih (@Describes.foldl_after _ _ step.val.slots hdescribes)
    rw [gapTotal_foldl_after] at hrest
    rw [entries, KeyedChain.checked_append, ← hrest]
    simp only [Accepts, List.foldlM_cons, bind_eq_ok, checkStep]
    constructor
    · rintro ⟨result, state₁, hstep, hresult⟩
      obtain ⟨hchecked, rfl⟩ := (foldlM_checkSlot_eq_ok hdescribes).mp hstep
      exact ⟨hchecked, result, hresult⟩
    · rintro ⟨hchecked, result, hresult⟩
      exact ⟨result, _, (foldlM_checkSlot_eq_ok hdescribes).mpr ⟨hchecked, rfl⟩, hresult⟩

/-- The slots of every cohort follow one another. -/
def Chronological (steps : List SchedulerGeometryStep) : Prop :=
  ∀ cohort, (ofKey Entry.cohort cohort (entries 0 steps)).IsChain Follows

theorem accepts_checkChronology_iff : Accepts (checkChronology steps) ↔ Chronological steps :=
  (accepts_foldlM_checkStep describes_start).trans KeyedChain.checked_iff

/-! ## The loop over the target slots -/

/-- The tokens that a slot computes. -/
def SlotFields.run (slot : SlotFields) : ℕ × ℕ := (slot.computedTokens, slot.scheduledTokens)

/-- The tokens that the target computes in some steps. -/
def targetRuns (steps : List SchedulerGeometryStep) : List (ℕ × ℕ) :=
  steps.map fun step => (targetSlot step).val.run

theorem checkTargets_eq_ok {start stop : ℕ} :
    checkTargets slots start = .ok stop ↔
      Tiling.Tiles start stop (slots.map fun slot => slot.val.run) := by
  induction slots generalizing start with
  | nil => simp [checkTargets]
  | cons slot slots ih =>
    have hpos := (valid_slot slot).scheduledTokens_pos
    simp only [checkTargets, bind_eq_ok, raiseIf_eq_ok, not_not, exists_const, ih, List.map_cons,
      Tiling.tiles_cons, SlotFields.run, hpos, true_and]

/-! ## The constructor of a trace -/

/-- The numbers of the cohorts have no gap. -/
def CohortsDense (steps : List SchedulerGeometryStep) : Prop :=
  ∀ cohort ∈ cohortsOf steps, ∀ smaller < cohort, smaller ∈ cohortsOf steps

/-- What the constructor of a trace accepts, the end of the target rows being `observedEnd`. -/
structure TraceFields.Valid (trace : TraceFields) (observedEnd : ℕ) : Prop where
  context_lt : trace.contextTokenCount < 2 ^ 32
  sequence_pos : 0 < trace.sequenceTokenCount
  sequence_lt : trace.sequenceTokenCount < 2 ^ 32
  initial_lt : trace.initialComputedTokens < trace.contextTokenCount
  steps_ne_nil : trace.steps ≠ []
  length_steps_le : trace.steps.length ≤ maxSteps
  first_gap : ∀ step ∈ trace.steps.head?, step.val.gapStepsBefore = 0
  gaps_le : (trace.steps.map fun step => step.val.gapStepsBefore).sum ≤ maxGapSteps
  target : ∀ step ∈ trace.steps, (targetSlot step).val.cohortId = 0 ∧
    (targetSlot step).val.promptTokens = trace.contextTokenCount
  tiles : Tiling.Tiles trace.initialComputedTokens observedEnd (targetRuns trace.steps)
  covers : observedEnd = trace.sequenceTokenCount ∨
    TrailingStopRow (trace.steps.map targetSlot) observedEnd trace.sequenceTokenCount
  cohorts : CohortsDense trace.steps
  chronological : Chronological trace.steps

theorem isTarget_targetSlot (step : SchedulerGeometryStep) :
    (targetSlot step).val.isTarget = true :=
  List.findIdx_getElem (w := targetIndex_lt step)

theorem cohort_mem_cohortsOf {step : SchedulerGeometryStep} (hstep : step ∈ steps)
    (hslot : slot ∈ step.val.slots) : slot.val.cohortId ∈ cohortsOf steps := by
  rw [cohortsOf, List.mem_toFinset, List.mem_flatMap]
  exact ⟨step, hstep, List.mem_map_of_mem hslot⟩

theorem mem_cohortsOf {cohort : ℕ} : cohort ∈ cohortsOf steps ↔
    ∃ step ∈ steps, ∃ slot ∈ step.val.slots, slot.val.cohortId = cohort := by
  simp only [cohortsOf, List.mem_toFinset, List.mem_flatMap, List.mem_map]

theorem cohortsOf_eq_range_iff (hsteps : steps ≠ []) :
    cohortsOf steps = Finset.range ((cohortsOf steps).sup id + 1) ↔ CohortsDense steps := by
  constructor
  · intro h cohort hcohort smaller hlt
    rw [h, Finset.mem_range] at hcohort ⊢
    omega
  · intro h
    obtain ⟨step, hstep⟩ := List.exists_mem_of_ne_nil steps hsteps
    obtain ⟨slot, hslot⟩ := List.exists_mem_of_ne_nil _ (valid_step step).slots_ne_nil
    have hnonempty : (cohortsOf steps).Nonempty := ⟨_, cohort_mem_cohortsOf hstep hslot⟩
    obtain ⟨greatest, hgreatest, hsup⟩ := Finset.exists_mem_eq_sup _ hnonempty id
    ext cohort
    rw [Finset.mem_range]
    constructor
    · intro hcohort
      exact Nat.lt_succ_of_le (Finset.le_sup (f := id) hcohort)
    · intro hlt
      rw [hsup, id_eq, Nat.lt_succ_iff] at hlt
      rcases hlt.eq_or_lt with rfl | hlt
      · exact hgreatest
      · exact h greatest hgreatest cohort hlt

theorem TraceFields.postInit_eq_ok {trace : TraceFields} :
    trace.postInit = .ok () ↔ ∃ observedEnd, trace.Valid observedEnd := by
  simp only [TraceFields.postInit, bind_eq_ok, u32_eq_ok, positiveU32_eq_ok, raiseIf_eq_ok,
    Nat.cast_inj, exists_const, not_or, not_not, not_lt, not_le, checkTargets_eq_ok, not_exists,
    not_and, pure_eq_ok, and_true]
  constructor
  · rintro ⟨_, ⟨⟨hcontext, hcontext'⟩, rfl⟩, _, ⟨⟨hsequence, hsequence'⟩, rfl⟩, _, ⟨hinitial, rfl⟩,
      hlt, ⟨hnil, hlength⟩, hgap, hgaps, hcohort, hprompt, hbegin, observedEnd, htiles, hcovers,
      hrange, hchronology⟩
    refine ⟨observedEnd, hcontext', hsequence, hsequence', hlt, hnil, hlength, hgap, hgaps, ?_, ?_,
      ?_, (cohortsOf_eq_range_iff hnil).mp hrange, accepts_checkChronology_iff.mp hchronology⟩
    · intro step hstep
      have hslot := List.mem_map_of_mem (f := targetSlot) hstep
      exact ⟨(hcohort _ hslot).1, hprompt _ hslot⟩
    · rwa [List.map_map] at htiles
    · exact or_iff_not_imp_left.mpr hcovers
  · rintro ⟨observedEnd, h⟩
    have hcontext : 0 < trace.contextTokenCount := (Nat.zero_le _).trans_lt h.initial_lt
    have hinitial : trace.initialComputedTokens < 2 ^ 32 := h.initial_lt.trans h.context_lt
    refine ⟨_, ⟨⟨hcontext, h.context_lt⟩, rfl⟩, _, ⟨⟨h.sequence_pos, h.sequence_lt⟩, rfl⟩, _,
      ⟨hinitial, rfl⟩, h.initial_lt, ⟨h.steps_ne_nil, h.length_steps_le⟩, h.first_gap, h.gaps_le,
      ?_, ?_, ?_, observedEnd, ?_, or_iff_not_imp_left.mp h.covers,
      (cohortsOf_eq_range_iff h.steps_ne_nil).mpr h.cohorts,
      accepts_checkChronology_iff.mpr h.chronological⟩
    · intro slot hslot
      obtain ⟨step, hstep, rfl⟩ := List.mem_map.mp hslot
      exact ⟨(h.target step hstep).1, by simp [isTarget_targetSlot]⟩
    · intro slot hslot
      obtain ⟨step, hstep, rfl⟩ := List.mem_map.mp hslot
      exact (h.target step hstep).2
    · -- the first run of the tiling begins at the cache boundary
      intro slot hslot
      have htiles := h.tiles
      cases hsteps : trace.steps with
      | nil => exact absurd hsteps h.steps_ne_nil
      | cons step steps =>
        rw [hsteps] at hslot htiles
        obtain rfl := Option.some.inj hslot
        exact htiles.1
    · rw [List.map_map]
      exact h.tiles

end Verathos.SchedulerGeometry
