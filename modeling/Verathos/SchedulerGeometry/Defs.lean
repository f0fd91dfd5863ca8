import Verathos.PrefixCache.Defs

/-!
# Scheduler geometry

A translation of the records of `scheduler_geometry.py`: slots, steps and traces with what their
constructors check, and the geometry of a replay without prefix cache.

The fields of a record are natural numbers. Where the source hands an integer of unknown sign to a
constructor, `u32` and `positiveU32` convert it, as `_u32` refuses what is negative. A dictionary
that is only looked up is a function.
-/

namespace Verathos.SchedulerGeometry

open PrefixCache (Constructed construct)

/-! ## Bounds -/

/-- `MAX_SCHEDULER_GEOMETRY_STEPS_V3`. -/
def maxSteps : ℕ := 16384

/-- `MAX_SCHEDULER_GEOMETRY_GAP_STEPS_V3`. -/
def maxGapSteps : ℕ := 4096

/-- `MAX_SCHEDULER_GEOMETRY_SLOTS_V3`. -/
def maxSlots : ℕ := 256

/-- `MAX_SCHEDULER_GEOMETRY_COHORTS_V3`. -/
def maxCohorts : ℕ := 4096

def u32 (value : ℤ) (name : String) : Result ℕ := do
  raiseIf (value < 0 ∨ value ≥ 2 ^ 32) (.proofV3Error (name ++ " is out of range"))
  return value.toNat

/-- `_u32(value, name, positive=True)`. -/
def positiveU32 (value : ℤ) (name : String) : Result ℕ := do
  raiseIf (value < 1 ∨ value ≥ 2 ^ 32) (.proofV3Error (name ++ " is out of range"))
  return value.toNat

/-! ## Slots -/

/-- The fields of `SchedulerGeometrySlotV3`. -/
structure SlotFields where
  cohortId : ℕ
  promptTokens : ℕ
  computedTokens : ℕ
  scheduledTokens : ℕ
  isTarget : Bool
deriving DecidableEq

def SlotFields.postInit (slot : SlotFields) : Result Unit := do
  let cohortId ← u32 slot.cohortId "scheduler cohort id"
  raiseIf (cohortId ≥ maxCohorts) (.proofV3Error "scheduler cohort id exceeds the bound")
  let _ ← positiveU32 slot.promptTokens "scheduler prompt token count"
  let _ ← u32 slot.computedTokens "scheduler computed token count"
  let _ ← positiveU32 slot.scheduledTokens "scheduler scheduled token count"

/-- `SchedulerGeometrySlotV3`. -/
abbrev SchedulerGeometrySlot := Constructed SlotFields.postInit

/-! ## Steps -/

/-- The fields of `SchedulerGeometryStepV3`. -/
structure StepFields where
  gapStepsBefore : ℕ
  totalScheduledTokens : ℕ
  slots : List SchedulerGeometrySlot
deriving DecidableEq

def StepFields.postInit (step : StepFields) : Result Unit := do
  let _ ← u32 step.gapStepsBefore "scheduler gap count"
  let _ ← positiveU32 step.totalScheduledTokens "scheduler total token count"
  raiseIf (step.slots = [] ∨ step.slots.length > maxSlots)
    (.proofV3Error "scheduler slot inventory is malformed")
  raiseIf ((step.slots.map fun slot => slot.val.scheduledTokens).sum ≠ step.totalScheduledTokens)
    (.proofV3Error "scheduler slot token counts do not sum")
  raiseIf (step.slots.countP (fun slot => slot.val.isTarget) ≠ 1)
    (.proofV3Error "scheduler step must contain exactly one target slot")
  raiseIf (¬ (step.slots.map fun slot => slot.val.cohortId).Nodup)
    (.proofV3Error "scheduler step repeats a cohort")

/-- `SchedulerGeometryStepV3`. -/
abbrev SchedulerGeometryStep := Constructed StepFields.postInit

def StepFields.targetIndex (step : StepFields) : ℕ :=
  step.slots.findIdx fun slot => slot.val.isTarget

theorem u32_eq_ok {value : ℤ} {name : String} {n : ℕ} :
    u32 value name = .ok n ↔ n < 2 ^ 32 ∧ value = n := by
  simp only [u32, bind_eq_ok, raiseIf_eq_ok, pure_eq_ok, exists_const]
  omega

theorem positiveU32_eq_ok {value : ℤ} {name : String} {n : ℕ} :
    positiveU32 value name = .ok n ↔ (0 < n ∧ n < 2 ^ 32) ∧ value = n := by
  simp only [positiveU32, bind_eq_ok, raiseIf_eq_ok, pure_eq_ok, exists_const]
  omega

/-- What the constructor of a slot accepts. -/
structure SlotFields.Valid (slot : SlotFields) : Prop where
  cohortId_lt : slot.cohortId < maxCohorts
  promptTokens_pos : 0 < slot.promptTokens
  promptTokens_lt : slot.promptTokens < 2 ^ 32
  computedTokens_lt : slot.computedTokens < 2 ^ 32
  scheduledTokens_pos : 0 < slot.scheduledTokens
  scheduledTokens_lt : slot.scheduledTokens < 2 ^ 32

theorem SlotFields.postInit_eq_ok {slot : SlotFields} : slot.postInit = .ok () ↔ slot.Valid := by
  simp only [SlotFields.postInit, bind_eq_ok, u32_eq_ok, positiveU32_eq_ok, raiseIf_eq_ok,
    Nat.cast_inj, exists_const, not_le, pure_eq_ok, and_true]
  constructor
  · rintro ⟨_, ⟨hcohort, rfl⟩, hbound, _, ⟨⟨hprompt, hprompt'⟩, rfl⟩, _, ⟨hcomputed, rfl⟩, _,
      ⟨hscheduled, hscheduled'⟩, rfl⟩
    exact ⟨hbound, hprompt, hprompt', hcomputed, hscheduled, hscheduled'⟩
  · rintro ⟨hbound, hprompt, hprompt', hcomputed, hscheduled, hscheduled'⟩
    have hcohort : slot.cohortId < 2 ^ 32 := hbound.trans (by decide)
    exact ⟨_, ⟨hcohort, rfl⟩, hbound, _, ⟨⟨hprompt, hprompt'⟩, rfl⟩, _, ⟨hcomputed, rfl⟩, _,
      ⟨hscheduled, hscheduled'⟩, rfl⟩

/-- What the constructor of a step accepts. -/
structure StepFields.Valid (step : StepFields) : Prop where
  gapStepsBefore_lt : step.gapStepsBefore < 2 ^ 32
  total_pos : 0 < step.totalScheduledTokens
  total_lt : step.totalScheduledTokens < 2 ^ 32
  slots_ne_nil : step.slots ≠ []
  length_slots_le : step.slots.length ≤ maxSlots
  sum_eq : (step.slots.map fun slot => slot.val.scheduledTokens).sum = step.totalScheduledTokens
  one_target : step.slots.countP (fun slot => slot.val.isTarget) = 1
  cohorts_nodup : (step.slots.map fun slot => slot.val.cohortId).Nodup

theorem StepFields.postInit_eq_ok {step : StepFields} : step.postInit = .ok () ↔ step.Valid := by
  simp only [StepFields.postInit, bind_eq_ok, u32_eq_ok, positiveU32_eq_ok, raiseIf_eq_ok,
    Nat.cast_inj, exists_const, not_or, not_not, not_lt]
  constructor
  · rintro ⟨_, ⟨hgap, rfl⟩, _, ⟨⟨htotal, htotal'⟩, rfl⟩, ⟨hnil, hlength⟩, hsum, htarget, hnodup⟩
    exact ⟨hgap, htotal, htotal', hnil, hlength, hsum, htarget, hnodup⟩
  · rintro ⟨hgap, htotal, htotal', hnil, hlength, hsum, htarget, hnodup⟩
    exact ⟨_, ⟨hgap, rfl⟩, _, ⟨⟨htotal, htotal'⟩, rfl⟩, ⟨hnil, hlength⟩, hsum, htarget, hnodup⟩

theorem valid_slot (slot : SchedulerGeometrySlot) : slot.val.Valid :=
  SlotFields.postInit_eq_ok.mp slot.property

theorem valid_step (step : SchedulerGeometryStep) : step.val.Valid :=
  StepFields.postInit_eq_ok.mp step.property

theorem targetIndex_lt (step : SchedulerGeometryStep) :
    step.val.targetIndex < step.val.slots.length := by
  rw [StepFields.targetIndex, List.findIdx_lt_length]
  have hpos : 0 < step.val.slots.countP fun slot => slot.val.isTarget := by
    rw [(valid_step step).one_target]
    exact Nat.one_pos
  exact List.countP_pos_iff.mp hpos

/-- `step.slots[step.target_index]`. -/
def targetSlot (step : SchedulerGeometryStep) : SchedulerGeometrySlot :=
  step.val.slots.get ⟨step.val.targetIndex, targetIndex_lt step⟩

/-! ## Traces -/

/-- The fields of `SchedulerGeometryTraceV3`. -/
structure TraceFields where
  contextTokenCount : ℕ
  sequenceTokenCount : ℕ
  steps : List SchedulerGeometryStep
  initialComputedTokens : ℕ := 0
deriving DecidableEq

/-- The cohorts of some steps. -/
def cohortsOf (steps : List SchedulerGeometryStep) : Finset ℕ :=
  (steps.flatMap fun step => step.val.slots.map fun slot => slot.val.cohortId).toFinset

/-- The loop over the target slots: where the next one has to begin. -/
def checkTargets : List SchedulerGeometrySlot → ℕ → Result ℕ
  | [], expectedComputed => return expectedComputed
  | slot :: slots, expectedComputed => do
    raiseIf (slot.val.computedTokens ≠ expectedComputed)
      (.proofV3Error "scheduler target chronology is not contiguous")
    checkTargets slots (expectedComputed + slot.val.scheduledTokens)

/-- The last target slot is the row of a stop token that is not exposed. -/
def TrailingStopRow (targetSlots : List SchedulerGeometrySlot) (observedEnd sequenceTokenCount : ℕ) :
    Prop :=
  observedEnd = sequenceTokenCount + 1 ∧
    ∃ slot ∈ targetSlots.getLast?, slot.val.computedTokens = sequenceTokenCount ∧
      slot.val.scheduledTokens = 1

instance (targetSlots : List SchedulerGeometrySlot) (observedEnd sequenceTokenCount : ℕ) :
    Decidable (TrailingStopRow targetSlots observedEnd sequenceTokenCount) := by
  unfold TrailingStopRow
  infer_instance

/-- The dictionaries of the loop over all slots, and the gap steps before the current step. -/
structure ChronologyState where
  promptCounts : ℕ → Option ℕ := fun _ => none
  nextComputed : ℕ → Option ℕ := fun _ => none
  lastSeenGapTotal : ℕ → Option ℕ := fun _ => none
  gapTotal : ℕ := 0

/-- The check of the computed tokens of one slot. -/
def checkComputed (state : ChronologyState) (slot : SlotFields) : Result Unit :=
  match state.nextComputed slot.cohortId with
  | some expected => do
    raiseIf (slot.computedTokens < expected)
      (.proofV3Error "scheduler cohort chronology moved backwards")
    raiseIf (slot.computedTokens ≠ expected ∧
        (state.lastSeenGapTotal slot.cohortId).getD state.gapTotal = state.gapTotal)
      (.proofV3Error "scheduler cohort chronology is not contiguous")
  | none => .ok ()

/-- The check of one slot. -/
def checkSlot (state : ChronologyState) (slot : SchedulerGeometrySlot) :
    Result ChronologyState := do
  let cohort := slot.val.cohortId
  let previousPrompt := (state.promptCounts cohort).getD slot.val.promptTokens
  raiseIf (previousPrompt ≠ slot.val.promptTokens)
    (.proofV3Error "scheduler cohort prompt geometry changed")
  checkComputed state slot.val
  return { state with
    promptCounts := Function.update state.promptCounts cohort (some previousPrompt)
    nextComputed := Function.update state.nextComputed cohort
      (some (slot.val.computedTokens + slot.val.scheduledTokens))
    lastSeenGapTotal := Function.update state.lastSeenGapTotal cohort (some state.gapTotal) }

/-- The check of the slots of one step. -/
def checkStep (state : ChronologyState) (step : SchedulerGeometryStep) : Result ChronologyState :=
  step.val.slots.foldlM checkSlot { state with gapTotal := state.gapTotal + step.val.gapStepsBefore }

/-- The loop over all slots of all steps. -/
def checkChronology (steps : List SchedulerGeometryStep) : Result ChronologyState :=
  steps.foldlM checkStep {}

def TraceFields.postInit (trace : TraceFields) : Result Unit := do
  let _ ← positiveU32 trace.contextTokenCount "scheduler context token count"
  let _ ← positiveU32 trace.sequenceTokenCount "scheduler sequence token count"
  let initial ← u32 trace.initialComputedTokens "scheduler initial computed token count"
  raiseIf (initial ≥ trace.contextTokenCount)
    (.proofV3Error "scheduler initial computed tokens must precede prompt end")
  raiseIf (trace.steps = [] ∨ trace.steps.length > maxSteps)
    (.proofV3Error "scheduler geometry steps are malformed")
  let targetSlots := trace.steps.map targetSlot
  raiseIf (∃ step ∈ trace.steps.head?, step.val.gapStepsBefore ≠ 0)
    (.proofV3Error "scheduler geometry begins with an impossible target gap")
  raiseIf ((trace.steps.map fun step => step.val.gapStepsBefore).sum > maxGapSteps)
    (.proofV3Error "scheduler target gap count exceeds the bound")
  raiseIf (∃ slot ∈ targetSlots, slot.val.cohortId ≠ 0 ∨ slot.val.isTarget = false)
    (.proofV3Error "scheduler target cohort is not canonical")
  raiseIf (∃ slot ∈ targetSlots, slot.val.promptTokens ≠ trace.contextTokenCount)
    (.proofV3Error "scheduler target prompt count changed across steps")
  raiseIf (∃ slot ∈ targetSlots.head?, slot.val.computedTokens ≠ initial)
    (.proofV3Error "scheduler target did not begin at the committed cache boundary")
  let expectedComputed ← checkTargets targetSlots initial
  raiseIf (expectedComputed ≠ trace.sequenceTokenCount ∧
      ¬ TrailingStopRow targetSlots expectedComputed trace.sequenceTokenCount)
    (.proofV3Error ("scheduler target rows do not cover the committed sequence (observed=" ++
      toString expectedComputed ++ ", committed=" ++ toString trace.sequenceTokenCount ++ ")"))
  raiseIf (cohortsOf trace.steps ≠ Finset.range ((cohortsOf trace.steps).sup id + 1))
    (.proofV3Error "scheduler cohort inventory is not canonical")
  let _ ← checkChronology trace.steps

/-- `SchedulerGeometryTraceV3`. -/
abbrev SchedulerGeometryTrace := Constructed TraceFields.postInit

/-! ## The geometry without prefix cache -/

/-- The steps of a trace without that of a trailing stop row. -/
def keptSteps (trace : TraceFields) : List SchedulerGeometryStep :=
  let targetSlots := trace.steps.map targetSlot
  let observedEnd := trace.initialComputedTokens +
    (targetSlots.map fun slot => slot.val.scheduledTokens).sum
  if TrailingStopRow targetSlots observedEnd trace.sequenceTokenCount then trace.steps.dropLast
  else trace.steps

/-- One step of the prefix: the target alone. -/
def prefixStep (contextTokenCount computed scheduled : ℕ) : Result SchedulerGeometryStep := do
  let slot ← construct SlotFields.postInit {
    cohortId := 0
    promptTokens := contextTokenCount
    computedTokens := computed
    scheduledTokens := scheduled
    isTarget := true }
  construct StepFields.postInit {
    gapStepsBefore := 0
    totalScheduledTokens := scheduled
    slots := [slot] }

/-- `while computed < initial`, for at most `fuel` steps. -/
def prefixSteps (contextTokenCount initial budget : ℕ) :
    ℕ → ℕ → Option (Result (List SchedulerGeometryStep))
  | 0, _ => none
  | fuel + 1, computed =>
    if computed < initial then
      let scheduled := min budget (initial - computed)
      match prefixStep contextTokenCount computed scheduled with
      | .error error => some (.error error)
      | .ok step =>
        (prefixSteps contextTokenCount initial budget fuel (computed + scheduled)).map fun rest =>
          rest.map (step :: ·)
    else some (.ok [])

/-- `prefix_cache_full_recompute_geometry_v3`, whose loop takes at most `fuel` steps. -/
def prefixCacheFullRecomputeGeometry (fuel : ℕ) (trace : SchedulerGeometryTrace)
    (prefillTokenBudget : ℤ) : Option (Result SchedulerGeometryTrace) :=
  match positiveU32 prefillTokenBudget "prefix-cache replay prefill token budget" with
  | .error error => some (.error error)
  | .ok budget =>
    if trace.val.initialComputedTokens = 0 then some (.ok trace)
    else
      (prefixSteps trace.val.contextTokenCount trace.val.initialComputedTokens budget fuel 0).map
        fun result => do
          let added ← result
          raiseIf (added.length + (keptSteps trace.val).length > maxSteps)
            (.proofV3Error "prefix-cache full recompute exceeds the scheduler step bound")
          construct TraceFields.postInit {
            contextTokenCount := trace.val.contextTokenCount
            sequenceTokenCount := trace.val.sequenceTokenCount
            steps := added ++ keptSteps trace.val
            initialComputedTokens := 0 }

end Verathos.SchedulerGeometry
