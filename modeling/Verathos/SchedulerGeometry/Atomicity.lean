import Verathos.SchedulerGeometry.Builder

/-!
# Rejected observations

A call of `observe_step` that raises should leave the builder as it was. `Disturbs` says when it does
not: it is refused after it has numbered a new cohort, after it has recorded its step, or after it
has counted a gap step.

* `observeSlots_unchanged_iff`: the loop over the requests writes exactly when it reaches a request
  without a cohort while there is a number left. A number is never taken back, so what comes after
  does not matter.
* `builder_unchanged_iff`: a refused call leaves the builder unchanged exactly when it does not
  disturb it. In a run without disturbing calls, the refused calls can be left out.
-/

namespace Verathos.SchedulerGeometry

open Method
open PrefixCache (construct construct_eq_ok)

/-- The numbers of a scheduled request fit a slot. -/
def ScheduledRequest.InRange (request : ScheduledRequest) : Prop :=
  1 ≤ request.promptTokens ∧ request.promptTokens < 2 ^ 32 ∧ 0 ≤ request.computedTokens ∧
    request.computedTokens < 2 ^ 32 ∧ request.scheduledTokens < 2 ^ 32

namespace SchedulerGeometryTraceBuilder

variable {s s' : SchedulerGeometryTraceBuilder} {e : PyError} {u : Unit} {requestId : String}
  {cohort targetIndex index : ℕ} {request : ScheduledRequest} {requests : List ScheduledRequest}
  {slots : List SchedulerGeometrySlot}

/-- The numbers of the cohorts are below the bound. -/
def Numbered (s : SchedulerGeometryTraceBuilder) : Prop :=
  ∀ requestId cohort, s.cohorts.get requestId = some cohort → cohort < maxCohorts

/-- The builder with a new cohort. -/
def numbering (s : SchedulerGeometryTraceBuilder) (requestId : String) :
    SchedulerGeometryTraceBuilder :=
  { s with cohorts := s.cohorts.set requestId s.cohorts.entries.length }

/-- The loop reaches a request without a cohort while there is a number left. -/
def Allocates (s : SchedulerGeometryTraceBuilder) : List ScheduledRequest → Prop
  | [] => False
  | request :: requests =>
    if request.scheduledTokens ≤ 0 then s.Allocates requests
    else if (s.cohorts.get request.requestId).isSome then
      request.InRange ∧ s.Allocates requests
    else s.cohorts.entries.length < maxCohorts

/-! ## Cohorts -/

theorem returns_cohortOf : Returns (cohortOf requestId) s cohort s' ↔
    s.cohorts.get requestId = some cohort ∧ s' = s ∨
      s.cohorts.get requestId = none ∧ s.cohorts.entries.length < maxCohorts ∧
        cohort = s.cohorts.entries.length ∧ s' = s.numbering requestId := by
  simp only [cohortOf, returns_bind, returns_get]
  constructor
  · rintro ⟨_, _, ⟨rfl, rfl⟩, h⟩
    cases hget : s.cohorts.get requestId with
    | some number =>
      rw [hget] at h
      obtain ⟨rfl, rfl⟩ := returns_pure.mp h
      exact .inl ⟨rfl, rfl⟩
    | none =>
      simp only [hget, returns_bind, returns_check, returns_modify, returns_pure, not_le] at h
      obtain ⟨_, _, ⟨hlt, rfl⟩, _, _, rfl, rfl, rfl⟩ := h
      exact .inr ⟨rfl, hlt, rfl, rfl⟩
  · rintro (⟨hget, rfl⟩ | ⟨hget, hlt, rfl, rfl⟩)
    · refine ⟨_, _, ⟨rfl, rfl⟩, ?_⟩
      rw [hget]
      exact returns_pure.mpr ⟨rfl, rfl⟩
    · refine ⟨_, _, ⟨rfl, rfl⟩, ?_⟩
      simp only [hget, returns_bind, returns_check, returns_modify, returns_pure, not_le]
      exact ⟨(), s, ⟨hlt, rfl⟩, (), _, rfl, trivial, rfl⟩

theorem raises_cohortOf (h : Raises (cohortOf requestId) s e s') :
    s.cohorts.get requestId = none ∧ ¬ s.cohorts.entries.length < maxCohorts ∧ s' = s := by
  simp only [cohortOf, raises_bind, raises_get, returns_get, false_or] at h
  obtain ⟨_, _, ⟨rfl, rfl⟩, h⟩ := h
  cases hget : s.cohorts.get requestId with
  | some number =>
    rw [hget] at h
    exact absurd h raises_pure
  | none =>
    simp only [hget, raises_bind, raises_check, raises_modify, raises_pure, and_false,
      exists_false, or_false] at h
    obtain ⟨hge, -, rfl⟩ := h
    exact ⟨rfl, not_lt.mpr hge, rfl⟩

theorem accepts_slotOf (isTarget : Bool) (hcohort : cohort < maxCohorts)
    (hscheduled : ¬ request.scheduledTokens ≤ 0) :
    (∃ slot, slotOf cohort request isTarget = .ok slot) ↔ request.InRange := by
  simp only [slotOf, bind_eq_ok, positiveU32_eq_ok, u32_eq_ok]
  constructor
  · rintro ⟨slot, prompt, ⟨hprompt, hp⟩, computed, ⟨hcomputed, hc⟩, scheduled, ⟨hsched, hs⟩, -⟩
    exact ⟨by omega, by omega, by omega, by omega, by omega⟩
  · rintro ⟨hprompt, hprompt', hcomputed, hcomputed', hscheduled'⟩
    have hvalid : SlotFields.Valid ⟨cohort, request.promptTokens.toNat,
        request.computedTokens.toNat, request.scheduledTokens.toNat, isTarget⟩ := by
      constructor
      all_goals dsimp only; omega
    exact ⟨⟨_, SlotFields.postInit_eq_ok.mpr hvalid⟩, _, ⟨⟨by omega, by omega⟩, by omega⟩, _,
      ⟨by omega, by omega⟩, _, ⟨⟨by omega, by omega⟩, by omega⟩, construct_eq_ok.mpr rfl⟩

/-! ## The loop over the requests -/

/-- Every request with a cohort keeps one, the numbers stay below the bound, and the steps stay. -/
structure Extends (s s' : SchedulerGeometryTraceBuilder) : Prop where
  cohorts : ∀ requestId, (s.cohorts.get requestId).isSome → (s'.cohorts.get requestId).isSome
  numbered : s.Numbered → s'.Numbered
  steps_eq : s'.steps = s.steps

theorem Extends.refl (s : SchedulerGeometryTraceBuilder) : s.Extends s := ⟨fun _ => id, id, rfl⟩

theorem Extends.trans {s₁ : SchedulerGeometryTraceBuilder} (h : s.Extends s₁)
    (h' : s₁.Extends s') : s.Extends s' :=
  ⟨fun requestId hsome => h'.cohorts requestId (h.cohorts requestId hsome),
    fun hs => h'.numbered (h.numbered hs), h'.steps_eq.trans h.steps_eq⟩

theorem extends_numbering (hlt : s.cohorts.entries.length < maxCohorts) :
    s.Extends (s.numbering requestId) := by
  refine ⟨fun other hother => ?_, fun hs other cohort hcohort => ?_, rfl⟩
  · rw [numbering, OrderedDict.get_set]
    split_ifs
    · rfl
    · exact hother
  · rw [numbering, OrderedDict.get_set] at hcohort
    split_ifs at hcohort
    · obtain rfl := Option.some.inj hcohort
      exact hlt
    · exact hs other cohort hcohort

theorem extends_cohortOf (h : Returns (cohortOf requestId) s cohort s') : s.Extends s' := by
  rcases returns_cohortOf.mp h with ⟨-, rfl⟩ | ⟨-, hlt, -, rfl⟩
  · exact .refl _
  · exact extends_numbering hlt

theorem extends_observeSlots :
    (∀ slots s', Returns (observeSlots targetIndex index requests) s slots s' → s.Extends s') ∧
      ∀ e s', Raises (observeSlots targetIndex index requests) s e s' → s.Extends s' := by
  induction requests generalizing index s with
  | nil =>
    refine ⟨fun slots s' h => ?_, fun e s' h => absurd h raises_pure⟩
    obtain ⟨-, rfl⟩ := returns_pure.mp h
    exact .refl _
  | cons request requests ih =>
    rw [observeSlots]
    split_ifs with hscheduled
    · exact ih
    · constructor
      · intro slots s' h
        simp only [returns_bind, returns_call, returns_pure] at h
        obtain ⟨cohort, s₁, hcohort, slot, _, ⟨-, rfl⟩, rest, _, hrest, -, rfl⟩ := h
        exact (extends_cohortOf hcohort).trans (ih.1 _ _ hrest)
      · intro e s' h
        simp only [raises_bind, raises_call, returns_call, raises_pure, and_false, exists_false,
          or_false] at h
        rcases h with h | ⟨cohort, s₁, hcohort, ⟨-, rfl⟩ | ⟨slot, _, ⟨-, rfl⟩, hrest⟩⟩
        · obtain ⟨-, -, rfl⟩ := raises_cohortOf h
          exact .refl _
        · exact extends_cohortOf hcohort
        · exact (extends_cohortOf hcohort).trans (ih.2 _ _ hrest)

theorem ne_of_extends_numbering (hget : s.cohorts.get requestId = none)
    (h : (s.numbering requestId).Extends s') : s' ≠ s := by
  rintro rfl
  have hsome := h.cohorts requestId (by rw [numbering, OrderedDict.get_set_self]; rfl)
  rw [hget] at hsome
  exact absurd hsome (by simp)

theorem observeSlots_unchanged_iff (hs : s.Numbered) :
    (∀ slots s', Returns (observeSlots targetIndex index requests) s slots s' →
        (s' = s ↔ ¬ s.Allocates requests)) ∧
      ∀ e s', Raises (observeSlots targetIndex index requests) s e s' →
        (s' = s ↔ ¬ s.Allocates requests) := by
  induction requests generalizing index with
  | nil =>
    refine ⟨fun slots s' h => ?_, fun e s' h => absurd h raises_pure⟩
    exact iff_of_true (returns_pure.mp h).2.symm id
  | cons request requests ih =>
    rw [observeSlots, Allocates]
    split_ifs with hscheduled hknown
    · exact ih
    · -- the request has a cohort
      obtain ⟨number, hnumber⟩ := Option.isSome_iff_exists.mp hknown
      have hbuilt := accepts_slotOf (index = targetIndex) (hs _ _ hnumber) hscheduled
      have hcohortOf : ∀ cohort s₁, Returns (cohortOf request.requestId) s cohort s₁ →
          cohort = number ∧ s₁ = s := by
        intro cohort s₁ h
        rcases returns_cohortOf.mp h with ⟨hget, rfl⟩ | ⟨hget, -⟩
        · exact ⟨Option.some.inj (hget.symm.trans hnumber), rfl⟩
        · rw [hnumber] at hget
          cases hget
      constructor
      · intro slots s' h
        simp only [returns_bind, returns_call, returns_pure] at h
        obtain ⟨cohort, s₁, hcohort, slot, _, ⟨hslot, rfl⟩, rest, _, hrest, -, rfl⟩ := h
        obtain ⟨rfl, rfl⟩ := hcohortOf _ _ hcohort
        rw [(ih).1 _ _ hrest, and_iff_right (hbuilt.mp ⟨slot, hslot⟩)]
      · intro e s' h
        simp only [raises_bind, raises_call, returns_call, raises_pure, and_false, exists_false,
          or_false] at h
        rcases h with h | ⟨cohort, s₁, hcohort, ⟨hslot, rfl⟩ | ⟨slot, _, ⟨hslot, rfl⟩, hrest⟩⟩
        · obtain ⟨hget, -⟩ := raises_cohortOf h
          rw [hnumber] at hget
          cases hget
        · obtain ⟨rfl, rfl⟩ := hcohortOf _ _ hcohort
          refine iff_of_true rfl fun hallocates => ?_
          obtain ⟨slot, hok⟩ := hbuilt.mpr hallocates.1
          rw [hslot] at hok
          cases hok
        · obtain ⟨rfl, rfl⟩ := hcohortOf _ _ hcohort
          rw [(ih).2 _ _ hrest, and_iff_right (hbuilt.mp ⟨slot, hslot⟩)]
    · -- the request is new
      have hget : s.cohorts.get request.requestId = none := Option.not_isSome_iff_eq_none.mp hknown
      have hcohortOf : ∀ cohort s₁, Returns (cohortOf request.requestId) s cohort s₁ →
          s.cohorts.entries.length < maxCohorts ∧ s₁ = s.numbering request.requestId := by
        intro cohort s₁ h
        rcases returns_cohortOf.mp h with ⟨hsome, -⟩ | ⟨-, hlt, -, rfl⟩
        · rw [hget] at hsome
          cases hsome
        · exact ⟨hlt, rfl⟩
      constructor
      · intro slots s' h
        simp only [returns_bind, returns_call, returns_pure] at h
        obtain ⟨cohort, s₁, hcohort, slot, _, ⟨-, rfl⟩, rest, _, hrest, -, rfl⟩ := h
        obtain ⟨hlt, rfl⟩ := hcohortOf _ _ hcohort
        exact iff_of_false (ne_of_extends_numbering hget (extends_observeSlots.1 _ _ hrest))
          (not_not.mpr hlt)
      · intro e s' h
        simp only [raises_bind, raises_call, returns_call, raises_pure, and_false, exists_false,
          or_false] at h
        rcases h with h | ⟨cohort, s₁, hcohort, ⟨-, rfl⟩ | ⟨slot, _, ⟨-, rfl⟩, hrest⟩⟩
        · obtain ⟨-, hfull, rfl⟩ := raises_cohortOf h
          exact iff_of_true rfl hfull
        · obtain ⟨hlt, rfl⟩ := hcohortOf _ _ hcohort
          exact iff_of_false (ne_of_extends_numbering hget (.refl _)) (not_not.mpr hlt)
        · obtain ⟨hlt, rfl⟩ := hcohortOf _ _ hcohort
          exact iff_of_false (ne_of_extends_numbering hget (extends_observeSlots.2 _ _ hrest))
            (not_not.mpr hlt)

/-- The slots of requests that have their cohorts. -/
def slotsOf (s : SchedulerGeometryTraceBuilder) (targetIndex : ℕ) :
    ℕ → List ScheduledRequest → Result (List SchedulerGeometrySlot)
  | _, [] => return []
  | index, request :: requests =>
    if request.scheduledTokens ≤ 0 then s.slotsOf targetIndex (index + 1) requests
    else
      match s.cohorts.get request.requestId with
      | none => .error (.builtin "KeyError")
      | some cohort => do
        let slot ← slotOf cohort request (index = targetIndex)
        let slots ← s.slotsOf targetIndex (index + 1) requests
        return slot :: slots

theorem returns_observeSlots_iff : Returns (observeSlots targetIndex index requests) s slots s ↔
    s.slotsOf targetIndex index requests = .ok slots := by
  induction requests generalizing index slots with
  | nil =>
    rw [observeSlots, slotsOf, returns_pure, pure_eq_ok]
    exact and_iff_left rfl
  | cons request requests ih =>
    rw [observeSlots, slotsOf]
    split_ifs with hscheduled
    · exact ih
    · cases hget : s.cohorts.get request.requestId with
      | none =>
        -- a new cohort is not taken back
        refine iff_of_false (fun h => ?_) (by simp)
        simp only [returns_bind, returns_call, returns_pure] at h
        obtain ⟨cohort, s₁, hcohort, slot, _, ⟨-, rfl⟩, rest, _, hrest, -, rfl⟩ := h
        rcases returns_cohortOf.mp hcohort with ⟨hsome, -⟩ | ⟨-, -, -, rfl⟩
        · rw [hget] at hsome
          cases hsome
        · exact ne_of_extends_numbering hget (extends_observeSlots.1 _ _ hrest) rfl
      | some number =>
        simp only [returns_bind, returns_call, returns_pure, bind_eq_ok, pure_eq_ok]
        constructor
        · rintro ⟨cohort, s₁, hcohort, slot, _, ⟨hslot, rfl⟩, rest, _, hrest, rfl, rfl⟩
          rcases returns_cohortOf.mp hcohort with ⟨hsome, rfl⟩ | ⟨hnone, -⟩
          · obtain rfl := Option.some.inj (hsome.symm.trans hget)
            exact ⟨slot, hslot, rest, ih.mp hrest, rfl⟩
          · rw [hget] at hnone
            cases hnone
        · rintro ⟨slot, hslot, rest, hrest, rfl⟩
          exact ⟨number, s, returns_cohortOf.mpr (.inl ⟨hget, rfl⟩), slot, s, ⟨hslot, rfl⟩, rest, s,
            ih.mpr hrest, rfl, rfl⟩

/-! ## Recording a step -/

/-- The step that the builder would record for requests that have their cohorts. -/
def knownStep (s : SchedulerGeometryTraceBuilder) (targetIndex : ℕ)
    (requests : List ScheduledRequest) (totalScheduledTokens : ℤ) : Result SchedulerGeometryStep := do
  let slots ← s.slotsOf targetIndex 0 requests
  stepOf s.gapSteps totalScheduledTokens slots

/-- Recording numbers a cohort, or it records a well-formed step of known cohorts beyond the bound. -/
def RecordDisturbs (s : SchedulerGeometryTraceBuilder) (targetIndex : ℕ)
    (requests : List ScheduledRequest) (totalScheduledTokens : ℤ) : Prop :=
  s.Allocates requests ∨
    maxSteps ≤ s.steps.length ∧ Accepts (s.knownStep targetIndex requests totalScheduledTokens)

theorem recordStep_unchanged_iff {totalScheduledTokens : ℤ} (hs : s.Numbered)
    (h : Raises (recordStep targetIndex requests totalScheduledTokens) s e s') :
    s' = s ↔ ¬ s.RecordDisturbs targetIndex requests totalScheduledTokens := by
  simp only [recordStep, raises_bind, raises_get, returns_get, raises_call,
    returns_call, raises_modify, returns_modify, raises_check, returns_check, and_false,
    exists_false, or_false, false_or] at h
  rw [RecordDisturbs, not_or]
  rcases h with hloop | ⟨slots, s₁, hloop, _, _, ⟨rfl, rfl⟩, hstep⟩
  · -- the loop raises
    rw [(observeSlots_unchanged_iff hs).2 _ _ hloop]
    refine (and_iff_left_of_imp fun hallocates => ?_).symm
    rintro ⟨-, step, hknown⟩
    obtain ⟨slots, hslots, -⟩ := bind_eq_ok.mp hknown
    have hreturns := returns_observeSlots_iff.mpr hslots
    rw [Returns, show observeSlots targetIndex 0 requests s = .error e s' from hloop] at hreturns
    cases hreturns
  · have hiff := (observeSlots_unchanged_iff hs).1 _ _ hloop
    have hextends := extends_observeSlots.1 _ _ hloop
    rcases hstep with ⟨hstep, rfl⟩ | ⟨step, _, ⟨hstep, rfl⟩, _, s₂, rfl, hfull, -, rfl⟩
    · -- the step is refused
      rw [hiff]
      refine (and_iff_left_of_imp fun hallocates => ?_).symm
      obtain rfl := hiff.mpr hallocates
      rintro ⟨-, step, hknown⟩
      obtain ⟨slots', hslots, hok⟩ := bind_eq_ok.mp hknown
      rw [returns_observeSlots_iff.mp hloop, Except.ok.injEq] at hslots
      rw [← hslots, hstep] at hok
      cases hok
    · -- the step is recorded
      refine iff_of_false (fun heq => ?_) fun hnot => hnot.2 ?_
      · have hlength := congrArg (fun s => s.steps.length) heq
        rw [← hextends.steps_eq] at hlength
        simp at hlength
      · obtain rfl := hiff.mpr hnot.1
        rw [hextends.steps_eq] at hfull
        exact ⟨by omega, step, bind_eq_ok.mpr ⟨slots, returns_observeSlots_iff.mp hloop, hstep⟩⟩

theorem numbered_recordStep {totalScheduledTokens : ℤ} (hs : s.Numbered) :
    (∀ u s', Returns (recordStep targetIndex requests totalScheduledTokens) s u s' →
        s'.Numbered) ∧
      ∀ e s', Raises (recordStep targetIndex requests totalScheduledTokens) s e s' →
        s'.Numbered := by
  constructor
  · intro u s' h
    simp only [recordStep, returns_bind, returns_get, returns_call, returns_modify,
      returns_check] at h
    obtain ⟨slots, s₁, hloop, _, _, ⟨rfl, rfl⟩, step, _, ⟨-, rfl⟩, _, _, rfl, _, _, ⟨-, rfl⟩, rfl⟩ := h
    exact (extends_observeSlots.1 _ _ hloop).numbered hs
  · intro e s' h
    simp only [recordStep, raises_bind, raises_get, returns_get, raises_call, returns_call,
      raises_modify, returns_modify, raises_check, returns_check, and_false, exists_false, or_false,
      false_or] at h
    rcases h with hloop | ⟨slots, s₁, hloop, _, _, ⟨rfl, rfl⟩, ⟨-, rfl⟩ | ⟨step, _, ⟨-, rfl⟩, _, _, rfl, -, -, rfl⟩⟩
    · exact (extends_observeSlots.2 _ _ hloop).numbered hs
    · exact (extends_observeSlots.1 _ _ hloop).numbered hs
    · exact (extends_observeSlots.1 _ _ hloop).numbered hs

/-! ## Steps without the target -/

theorem returns_observeAbsentStep (h : Returns observeAbsentStep s u s') :
    s'.cohorts = s.cohorts := by
  simp only [observeAbsentStep, returns_bind, returns_get] at h
  obtain ⟨_, _, ⟨rfl, rfl⟩, h⟩ := h
  rw [returns_ite] at h
  rcases h with ⟨-, h⟩ | ⟨-, h⟩
  · simp only [returns_bind, returns_modify, returns_check] at h
    obtain ⟨_, _, rfl, -, rfl⟩ := h
    rfl
  · rw [(returns_pure.mp h).2]

theorem raises_observeAbsentStep (h : Raises observeAbsentStep s e s') :
    s.started = true ∧ s' = { s with gapSteps := s.gapSteps + 1 } := by
  simp only [observeAbsentStep, raises_bind, raises_get, returns_get, false_or] at h
  obtain ⟨_, _, ⟨rfl, rfl⟩, h⟩ := h
  rw [raises_ite] at h
  rcases h with ⟨hstarted, h⟩ | ⟨-, h⟩
  · simp only [raises_bind, raises_modify, returns_modify, raises_check, false_or] at h
    obtain ⟨_, _, rfl, -, -, rfl⟩ := h
    exact ⟨hstarted, rfl⟩
  · exact absurd h raises_pure

theorem ne_of_raises_observeAbsentStep (h : Raises observeAbsentStep s e s') :
    s.started = true ∧ s' ≠ s := by
  obtain ⟨hstarted, rfl⟩ := raises_observeAbsentStep h
  refine ⟨hstarted, fun heq => ?_⟩
  have hgap := congrArg SchedulerGeometryTraceBuilder.gapSteps heq
  exact absurd hgap (Nat.succ_ne_self s.gapSteps)

end SchedulerGeometryTraceBuilder

/-! ## Calls -/

open SchedulerGeometryTraceBuilder

/-- The four vectors have one length, which is not zero. -/
def VectorsAgree (requestIds : List String)
    (promptTokens computedTokens scheduledTokens : List ℤ) : Prop :=
  requestIds ≠ [] ∧ promptTokens.length = requestIds.length ∧
    computedTokens.length = requestIds.length ∧ scheduledTokens.length = requestIds.length

/-- The call, when it is refused, has written before: it numbers a cohort, or it records a step beyond
the bound, or it counts a gap step. -/
def BuilderCall.Disturbs (s : SchedulerGeometryTraceBuilder) : BuilderCall → Prop
  | .observeAbsentStep => s.started = true
  | .observeStep requestIds promptTokens computedTokens scheduledTokens totalScheduledTokens =>
    VectorsAgree requestIds promptTokens computedTokens scheduledTokens ∧
      let requests := scheduledRequests requestIds promptTokens computedTokens scheduledTokens
      if TargetScheduled s.targetRequestId requests then
        s.RecordDisturbs (requestIds.idxOf s.targetRequestId) requests totalScheduledTokens
      else s.started = true

variable {s s' : SchedulerGeometryTraceBuilder} {e : PyError} {call : BuilderCall}

theorem vectorsAgree_iff {requestIds : List String}
    {promptTokens computedTokens scheduledTokens : List ℤ} :
    (¬ (requestIds = [] ∨ promptTokens.length ≠ requestIds.length ∨
        computedTokens.length ≠ requestIds.length ∨ scheduledTokens.length ≠ requestIds.length)) ↔
      VectorsAgree requestIds promptTokens computedTokens scheduledTokens := by
  simp only [VectorsAgree, not_or, not_not, ne_eq]

/-- What a refused step can do: its vectors disagree, or it is refused while it is recorded, or as a
step without the target. -/
theorem raises_observeStep {requestIds : List String}
    {promptTokens computedTokens scheduledTokens : List ℤ} {totalScheduledTokens : ℤ} :
    Raises (SchedulerGeometryTraceBuilder.observeStep requestIds promptTokens computedTokens
        scheduledTokens totalScheduledTokens) s e s' →
      ¬ VectorsAgree requestIds promptTokens computedTokens scheduledTokens ∧ s' = s ∨
      VectorsAgree requestIds promptTokens computedTokens scheduledTokens ∧
        let requests := scheduledRequests requestIds promptTokens computedTokens scheduledTokens
        (TargetScheduled s.targetRequestId requests ∧
            Raises (recordStep (requestIds.idxOf s.targetRequestId) requests totalScheduledTokens)
              s e s' ∨
          ¬ TargetScheduled s.targetRequestId requests ∧
            Raises SchedulerGeometryTraceBuilder.observeAbsentStep s e s') := by
  intro h
  simp only [SchedulerGeometryTraceBuilder.observeStep, raises_bind, raises_check, returns_check,
    raises_get, returns_get, false_or, raises_ite] at h
  rcases h with ⟨hvectors, -, rfl⟩ | ⟨_, _, ⟨hvectors, rfl⟩, _, _, ⟨rfl, rfl⟩, h⟩
  · exact .inl ⟨fun hagree => vectorsAgree_iff.mpr hagree hvectors, rfl⟩
  · exact .inr ⟨vectorsAgree_iff.mp hvectors, h⟩

theorem BuilderCall.unchanged_iff (hs : s.Numbered) (h : Raises call.method s e s') :
    s' = s ↔ ¬ call.Disturbs s := by
  cases call with
  | observeAbsentStep =>
    obtain ⟨hstarted, hne⟩ := ne_of_raises_observeAbsentStep h
    exact iff_of_false hne (not_not.mpr hstarted)
  | observeStep requestIds promptTokens computedTokens scheduledTokens totalScheduledTokens =>
    rw [BuilderCall.Disturbs]
    rcases raises_observeStep h with ⟨hvectors, rfl⟩ | ⟨hvectors, ⟨htarget, h⟩ | ⟨htarget, h⟩⟩
    · exact iff_of_true rfl fun hnot => hvectors hnot.1
    · rw [and_iff_right hvectors, recordStep_unchanged_iff hs h]
      simp only [htarget, if_true]
    · obtain ⟨hstarted, hne⟩ := ne_of_raises_observeAbsentStep h
      simp only [hvectors, htarget, if_false, true_and]
      exact iff_of_false hne (not_not.mpr hstarted)

theorem numbered_of_cohorts_eq (hs : s.Numbered) (h : s'.cohorts = s.cohorts) : s'.Numbered := by
  intro requestId cohort hget
  rw [h] at hget
  exact hs requestId cohort hget

theorem numbered_after_observeAbsentStep (hs : s.Numbered) :
    (after SchedulerGeometryTraceBuilder.observeAbsentStep s).Numbered := by
  apply numbered_of_cohorts_eq hs
  rcases returns_or_raises SchedulerGeometryTraceBuilder.observeAbsentStep s with
    ⟨u, s', h⟩ | ⟨e, s', h⟩
  · rw [after_of_returns h, returns_observeAbsentStep h]
  · rw [after_of_raises h, (raises_observeAbsentStep h).2]

theorem numbered_after (call : BuilderCall) (s : SchedulerGeometryTraceBuilder) (hs : s.Numbered) :
    (after call.method s).Numbered := by
  have habsent := numbered_after_observeAbsentStep hs
  rcases returns_or_raises call.method s with ⟨u, s', h⟩ | ⟨e, s', h⟩
  · rw [after_of_returns h]
    cases call with
    | observeAbsentStep =>
      rw [BuilderCall.method] at h
      rwa [after_of_returns h] at habsent
    | observeStep requestIds promptTokens computedTokens scheduledTokens totalScheduledTokens =>
      simp only [BuilderCall.method, SchedulerGeometryTraceBuilder.observeStep, returns_bind,
        returns_check, returns_get, returns_ite] at h
      obtain ⟨_, _, ⟨-, rfl⟩, _, _, ⟨rfl, rfl⟩, ⟨-, h⟩ | ⟨-, h⟩⟩ := h
      · exact (numbered_recordStep hs).1 _ _ h
      · rwa [after_of_returns h] at habsent
  · rw [after_of_raises h]
    cases call with
    | observeAbsentStep =>
      rw [BuilderCall.method] at h
      rwa [after_of_raises h] at habsent
    | observeStep requestIds promptTokens computedTokens scheduledTokens totalScheduledTokens =>
      rcases raises_observeStep h with ⟨-, rfl⟩ | ⟨-, ⟨-, h⟩ | ⟨-, h⟩⟩
      · exact hs
      · exact (numbered_recordStep hs).2 _ _ h
      · rwa [after_of_raises h] at habsent

theorem numbered_of_init {targetRequestId : String} (h : init targetRequestId = .ok s) :
    s.Numbered := by
  simp only [init, bind_eq_ok, raiseIf_eq_ok, pure_eq_ok] at h
  obtain ⟨-, -, rfl⟩ := h
  intro requestId cohort hget
  rw [OrderedDict.get_set] at hget
  split_ifs at hget
  · obtain rfl := Option.some.inj hget
    exact Nat.zero_lt_succ _
  · cases hget

theorem numbered_afterAll {targetRequestId : String} (hstart : init targetRequestId = .ok s)
    (calls : List BuilderCall) : (afterAll BuilderCall.method s calls).Numbered :=
  afterAll_induction (numbered_of_init hstart) numbered_after

/-- A refused call on a reachable builder leaves it unchanged exactly when it does not disturb it.
When no refused call of a run disturbs the builder, the run without them gives the same builder, so
every continuation finalizes to the same trace. -/
theorem builder_unchanged_iff (targetRequestId : String) (start : SchedulerGeometryTraceBuilder)
    (hstart : init targetRequestId = .ok start) (calls : List BuilderCall) :
    (∀ (call : BuilderCall) (e : PyError) (s' : SchedulerGeometryTraceBuilder),
      Raises call.method (afterAll BuilderCall.method start calls) e s' →
        (s' = afterAll BuilderCall.method start calls ↔
          ¬ call.Disturbs (afterAll BuilderCall.method start calls))) ∧
      (RaisesOnly BuilderCall.method (fun call s => ¬ call.Disturbs s) start calls →
        ∀ (more : List BuilderCall) (contextTokenCount sequenceTokenCount : ℤ),
          finalize (afterAll BuilderCall.method start
              (accepted BuilderCall.method start calls ++ more))
              contextTokenCount sequenceTokenCount =
            finalize (afterAll BuilderCall.method start (calls ++ more))
              contextTokenCount sequenceTokenCount) := by
  constructor
  · intro call e s' h
    exact BuilderCall.unchanged_iff (numbered_afterAll hstart calls) h
  · intro hraises more contextTokenCount sequenceTokenCount
    have hsame := afterAll_accepted (numbered_of_init hstart) numbered_after
      (fun call s hs hcall e s' h => (BuilderCall.unchanged_iff hs h).mpr hcall) hraises
    rw [afterAll_append, afterAll_append, hsame]

/-- The builder of request `t` before any call. -/
def smallBuilder : SchedulerGeometryTraceBuilder :=
  ⟨"t", OrderedDict.empty.set "t" 0, [], false, 0⟩

/-- A call with two requests whose second one has no prompt. -/
def unpromptedCall : BuilderCall := .observeStep ["a", "t"] [5, 0] [0, 0] [1, 1] 2

/-- A call that covers the target. -/
def coveringCall : BuilderCall := .observeStep ["t", "b"] [2, 1] [0, 0] [2, 1] 3

/-- A refused call with vectors of two lengths can be left out. -/
theorem builder_unchanged_iff_mismatch :
    let refused := BuilderCall.observeStep ["t", "b"] [2] [0, 0] [2, 1] 3
    finalize (afterAll BuilderCall.method smallBuilder
        (accepted BuilderCall.method smallBuilder [refused] ++ [coveringCall])) 2 2 =
      finalize (afterAll BuilderCall.method smallBuilder ([refused] ++ [coveringCall])) 2 2 := by
  intro refused
  apply (builder_unchanged_iff "t" smallBuilder rfl [refused]).2
  refine ⟨fun e s' _ hdisturbs => ?_, trivial⟩
  exact absurd hdisturbs.1.2.1 (by decide)

/-- After the refused call the number of request `a` is taken, so the same covering call gives a trace
whose cohorts have a gap, which is refused. -/
theorem refused_observation_prevents_finalize :
    (∃ e s', Raises unpromptedCall.method smallBuilder e s' ∧ s' ≠ smallBuilder) ∧
      (∃ e, finalize (afterAll BuilderCall.method smallBuilder [unpromptedCall, coveringCall]) 2 2 =
        .error e) ∧
      ∃ trace, finalize (afterAll BuilderCall.method smallBuilder [coveringCall]) 2 2 =
        .ok trace := by
  have hrefused : succeeds unpromptedCall.method smallBuilder = false := by decide +kernel
  have hnumbered : ((after unpromptedCall.method smallBuilder).cohorts.get "a").isSome := by
    decide +kernel
  have hafter : (finalize (afterAll BuilderCall.method smallBuilder
      [unpromptedCall, coveringCall]) 2 2).isOk = false := by decide +kernel
  have hcovering : (finalize (afterAll BuilderCall.method smallBuilder [coveringCall]) 2 2).isOk =
      true := by decide +kernel
  refine ⟨?_, ?_, ?_⟩
  · obtain ⟨e, s', hraises⟩ := not_succeeds_iff.mp hrefused
    rw [after_of_raises hraises] at hnumbered
    refine ⟨e, s', hraises, ?_⟩
    rintro rfl
    exact absurd hnumbered (by decide +kernel)
  · cases hresult : finalize (afterAll BuilderCall.method smallBuilder
        [unpromptedCall, coveringCall]) 2 2 with
    | error e => exact ⟨e, rfl⟩
    | ok trace =>
      rw [hresult] at hafter
      exact nomatch hafter
  · cases hresult : finalize (afterAll BuilderCall.method smallBuilder [coveringCall]) 2 2 with
    | error e =>
      rw [hresult] at hcovering
      exact nomatch hcovering
    | ok trace => exact ⟨trace, rfl⟩

end Verathos.SchedulerGeometry
