import Verathos.Lib.Method
import Verathos.Lib.OrderedDict
import Verathos.SchedulerGeometry.Defs

/-!
# The builder of a scheduler trace

A translation of `SchedulerGeometryTraceBuilderV3`: a mutable object with the cohorts that are
numbered so far and the steps that are recorded. Its methods may raise after they have written.
-/

namespace Verathos.SchedulerGeometry

open Method
open PrefixCache (Constructed construct construct_eq_ok)

/-- `SchedulerGeometryTraceBuilderV3`. -/
structure SchedulerGeometryTraceBuilder where
  targetRequestId : String
  cohorts : OrderedDict String ℕ
  steps : List SchedulerGeometryStep := []
  started : Bool := false
  gapSteps : ℕ := 0

/-- One position of the four vectors of a call. -/
structure ScheduledRequest where
  requestId : String
  promptTokens : ℤ
  computedTokens : ℤ
  scheduledTokens : ℤ
deriving DecidableEq

/-- The positions of four vectors of one length. -/
def scheduledRequests (requestIds : List String)
    (promptTokens computedTokens scheduledTokens : List ℤ) : List ScheduledRequest :=
  List.zipWith (fun (requestId, prompt) (computed, scheduled) =>
    ⟨requestId, prompt, computed, scheduled⟩)
    (requestIds.zip promptTokens) (computedTokens.zip scheduledTokens)

namespace SchedulerGeometryTraceBuilder

def init (targetRequestId : String) : Result SchedulerGeometryTraceBuilder := do
  raiseIf (targetRequestId = "") (.proofV3Error "scheduler target request id is malformed")
  return { targetRequestId := targetRequestId, cohorts := OrderedDict.empty.set targetRequestId 0 }

def observeAbsentStep : EStateM PyError SchedulerGeometryTraceBuilder Unit := do
  let self ← get
  if self.started then do
    modify fun self => { self with gapSteps := self.gapSteps + 1 }
    check (self.gapSteps + 1 ≥ 2 ^ 32)
      (.proofV3Error "scheduler geometry gap count overflowed")
  else return ()

/-- The number of the cohort of a request, which a request that is new gets here. -/
def cohortOf (requestId : String) : EStateM PyError SchedulerGeometryTraceBuilder ℕ := do
  let self ← get
  match self.cohorts.get requestId with
  | some cohort => return cohort
  | none => do
    let cohort := self.cohorts.entries.length
    check (cohort ≥ maxCohorts) (.proofV3Error "scheduler geometry cohort bound exceeded")
    modify fun self => { self with cohorts := self.cohorts.set requestId cohort }
    return cohort

/-- `SchedulerGeometrySlotV3(…)`. The number of a cohort is below the bound, so its checks come
last. -/
def slotOf (cohort : ℕ) (request : ScheduledRequest) (isTarget : Bool) :
    Result SchedulerGeometrySlot := do
  let promptTokens ← positiveU32 request.promptTokens "scheduler prompt token count"
  let computedTokens ← u32 request.computedTokens "scheduler computed token count"
  let scheduledTokens ← positiveU32 request.scheduledTokens "scheduler scheduled token count"
  construct SlotFields.postInit {
    cohortId := cohort
    promptTokens := promptTokens
    computedTokens := computedTokens
    scheduledTokens := scheduledTokens
    isTarget := isTarget }

/-- `SchedulerGeometryStepV3(…)`. -/
def stepOf (gapSteps : ℕ) (totalScheduledTokens : ℤ) (slots : List SchedulerGeometrySlot) :
    Result SchedulerGeometryStep := do
  let gap ← u32 gapSteps "scheduler gap count"
  let total ← positiveU32 totalScheduledTokens "scheduler total token count"
  construct StepFields.postInit {
    gapStepsBefore := gap
    totalScheduledTokens := total
    slots := slots }

/-- The loop over the requests from an index on. -/
def observeSlots (targetIndex : ℕ) : ℕ → List ScheduledRequest →
    EStateM PyError SchedulerGeometryTraceBuilder (List SchedulerGeometrySlot)
  | _, [] => return []
  | index, request :: requests =>
    if request.scheduledTokens ≤ 0 then observeSlots targetIndex (index + 1) requests
    else do
      let cohort ← cohortOf request.requestId
      let slot ← call (slotOf cohort request (index = targetIndex))
      let slots ← observeSlots targetIndex (index + 1) requests
      return slot :: slots

/-- The part of `observe_step` after the target is found among the scheduled requests. -/
def recordStep (targetIndex : ℕ) (requests : List ScheduledRequest) (totalScheduledTokens : ℤ) :
    EStateM PyError SchedulerGeometryTraceBuilder Unit := do
  let slots ← observeSlots targetIndex 0 requests
  let self ← get
  let step ← call (stepOf self.gapSteps totalScheduledTokens slots)
  modify fun self => { self with steps := self.steps ++ [step] }
  check (self.steps.length + 1 > maxSteps)
    (.proofV3Error "scheduler geometry step bound exceeded")
  modify fun self => { self with started := true, gapSteps := 0 }

/-- The first position of the target is scheduled. -/
def TargetScheduled (targetRequestId : String) (requests : List ScheduledRequest) : Prop :=
  ∃ request ∈ requests.find? (fun request => request.requestId = targetRequestId),
    0 < request.scheduledTokens

instance (targetRequestId : String) (requests : List ScheduledRequest) :
    Decidable (TargetScheduled targetRequestId requests) := by
  unfold TargetScheduled
  infer_instance

def observeStep (requestIds : List String) (promptTokens computedTokens scheduledTokens : List ℤ)
    (totalScheduledTokens : ℤ) : EStateM PyError SchedulerGeometryTraceBuilder Unit := do
  check (requestIds = [] ∨ promptTokens.length ≠ requestIds.length ∨
      computedTokens.length ≠ requestIds.length ∨ scheduledTokens.length ≠ requestIds.length)
    (.proofV3Error "scheduler geometry vectors disagree")
  let self ← get
  let requests := scheduledRequests requestIds promptTokens computedTokens scheduledTokens
  if TargetScheduled self.targetRequestId requests then
    recordStep (requestIds.idxOf self.targetRequestId) requests totalScheduledTokens
  else observeAbsentStep

def finalize (self : SchedulerGeometryTraceBuilder) (contextTokenCount sequenceTokenCount : ℤ) :
    Result SchedulerGeometryTrace := do
  let context ← positiveU32 contextTokenCount "scheduler context token count"
  let sequence ← positiveU32 sequenceTokenCount "scheduler sequence token count"
  construct TraceFields.postInit {
    contextTokenCount := context
    sequenceTokenCount := sequence
    steps := self.steps
    initialComputedTokens := match self.steps with
      | [] => 0
      | first :: _ => (targetSlot first).val.computedTokens }

end SchedulerGeometryTraceBuilder

/-- A call of a method of the builder that writes. -/
inductive BuilderCall where
  | observeAbsentStep
  | observeStep (requestIds : List String)
      (promptTokens computedTokens scheduledTokens : List ℤ) (totalScheduledTokens : ℤ)

/-- What a call does. -/
def BuilderCall.method : BuilderCall → EStateM PyError SchedulerGeometryTraceBuilder Unit
  | .observeAbsentStep => SchedulerGeometryTraceBuilder.observeAbsentStep
  | .observeStep requestIds promptTokens computedTokens scheduledTokens totalScheduledTokens =>
    SchedulerGeometryTraceBuilder.observeStep requestIds promptTokens computedTokens
      scheduledTokens totalScheduledTokens

end Verathos.SchedulerGeometry
