import Verathos.Lib.OrderedDict
import Verathos.Lib.Transition

/-!
# The probation tracker

A translation of `ProbationTracker` of `neurons/scoring.py`: entering probation, passes, failures,
the migration of an entry to a new model index, and the state file.

The file is a list of JSON objects. Writing it can fail, which the code reports and ignores; each
operation takes whether its write succeeds. A restart takes whether the file can be read.
-/

namespace Verathos.Probation

structure ProbationState where
  enteredAtEpoch : ℤ
  consecutivePasses : ℤ := 0
  requiredPasses : ℤ := 3
  escalationEpochs : ℤ := 5
  endpoint : String := ""
deriving DecidableEq

/-- A miner address with a model index. -/
abbrev Key := String × ℤ

/-- The fields of a `ProbationTracker`. -/
structure ProbationTracker where
  requiredPasses : ℤ
  escalationEpochs : ℤ
  probation : OrderedDict Key ProbationState

/-- An object of the state file; a missing member is `none`. -/
structure FileRecord where
  address : Option String
  modelIndex : Option ℤ
  enteredAtEpoch : Option ℤ
  consecutivePasses : Option ℤ
  requiredPasses : Option ℤ
  escalationEpochs : Option ℤ
  endpoint : Option String
deriving DecidableEq

/-- The tracker of the running process and the state file. -/
structure World where
  tracker : ProbationTracker
  file : Option (List FileRecord)

/-- The entry of a key. -/
def World.entry (w : World) (key : Key) : Option ProbationState := w.tracker.probation.get key

def World.IsOnProbation (w : World) (key : Key) : Prop := (w.entry key).isSome

instance (w : World) (key : Key) : Decidable (w.IsOnProbation key) :=
  inferInstanceAs (Decidable (_ = true))

/-! ## The state file -/

/-- What `_save` writes for an entry. -/
def fileRecord (item : Key × ProbationState) : FileRecord where
  address := some item.1.1
  modelIndex := some item.1.2
  enteredAtEpoch := some item.2.enteredAtEpoch
  consecutivePasses := some item.2.consecutivePasses
  requiredPasses := some item.2.requiredPasses
  escalationEpochs := some item.2.escalationEpochs
  endpoint := some item.2.endpoint

def World.save (saved : Bool) (w : World) : World :=
  if saved then { w with file := some (w.tracker.probation.entries.map fileRecord) } else w

/-- The loop of `_load`, which a missing member ends. -/
def loadRecords (requiredPasses escalationEpochs : ℤ) :
    List FileRecord → OrderedDict Key ProbationState → OrderedDict Key ProbationState
  | [], probation => probation
  | record :: records, probation =>
    match record.address, record.modelIndex, record.enteredAtEpoch with
    | some address, some modelIndex, some enteredAtEpoch =>
      loadRecords requiredPasses escalationEpochs records
        (probation.set (address, modelIndex)
          { enteredAtEpoch
            consecutivePasses := record.consecutivePasses.getD 0
            requiredPasses := record.requiredPasses.getD requiredPasses
            escalationEpochs := record.escalationEpochs.getD escalationEpochs
            endpoint := record.endpoint.getD "" })
    | _, _, _ => probation

/-- `__init__` in a new process, which calls `_load`. -/
def World.restart (requiredPasses escalationEpochs : ℤ) (readable : Bool) (w : World) : World where
  tracker :=
    { requiredPasses, escalationEpochs
      probation :=
        if readable then loadRecords requiredPasses escalationEpochs (w.file.getD []) .empty
        else .empty }
  file := w.file

/-! ## The operations -/

/-- Replace the dictionary of entries. -/
def World.withProbation (w : World) (probation : OrderedDict Key ProbationState) : World :=
  { w with
    tracker := { w.tracker with probation } }

def enterProbation (saved : Bool) (key : Key) (epoch : ℤ) (endpoint : String) (w : World) :
    World :=
  let state :=
    match w.entry key with
    | some state =>
      { state with
        consecutivePasses := 0
        endpoint := if endpoint ≠ "" then endpoint else state.endpoint }
    | none =>
      { enteredAtEpoch := epoch
        requiredPasses := w.tracker.requiredPasses
        escalationEpochs := w.tracker.escalationEpochs
        endpoint }
  (w.withProbation (w.tracker.probation.set key state)).save saved

/-- `record_pass`: whether probation is lifted, and what is left. -/
def recordPass (saved : Bool) (key : Key) (w : World) : Bool × World :=
  match w.entry key with
  | none => (false, w)
  | some state =>
    let passes := state.consecutivePasses + 1
    if passes ≥ state.requiredPasses then
      (true, (w.withProbation (w.tracker.probation.erase key)).save saved)
    else
      (false, (w.withProbation (w.tracker.probation.set key
        { state with consecutivePasses := passes })).save saved)

def recordFailure (saved : Bool) (key : Key) (w : World) : World :=
  match w.entry key with
  | none => w
  | some state =>
    (w.withProbation (w.tracker.probation.set key
      { state with consecutivePasses := 0 })).save saved

/-- The endpoints are known and differ. -/
def Differ (oldEndpoint newEndpoint : String) : Prop :=
  oldEndpoint ≠ "" ∧ newEndpoint ≠ "" ∧ oldEndpoint ≠ newEndpoint

instance (oldEndpoint newEndpoint : String) : Decidable (Differ oldEndpoint newEndpoint) :=
  inferInstanceAs (Decidable (_ ∧ _))

/-- The entry that `migrate_index` looks at: the first one of the address at another index. -/
def firstOther (w : World) (address : String) (newIndex : ℤ) : Option (Key × ProbationState) :=
  w.tracker.probation.entries.find? fun item => item.1.1 = address ∧ item.1.2 ≠ newIndex

/-- `migrate_index`: whether an entry was re-keyed, and what is left. -/
def migrateIndex (saved : Bool) (address : String) (newIndex : ℤ) (newEndpoint : String)
    (w : World) : Bool × World :=
  if w.IsOnProbation (address, newIndex) then (false, w)
  else
    match firstOther w address newIndex with
    | none => (false, w)
    | some (oldKey, oldState) =>
      if Differ oldState.endpoint newEndpoint then (false, w)
      else
        (true, (w.withProbation ((w.tracker.probation.erase oldKey).set (address, newIndex)
          oldState)).save saved)

/-- A call of the tracker, or a new process. -/
inductive Op
  | enterProbation (saved : Bool) (key : Key) (epoch : ℤ) (endpoint : String)
  | recordPass (saved : Bool) (key : Key)
  | recordFailure (saved : Bool) (key : Key)
  | migrateIndex (saved : Bool) (address : String) (newIndex : ℤ) (newEndpoint : String)
  | restart (requiredPasses escalationEpochs : ℤ) (readable : Bool)

/-- One operation. -/
def World.after (w : World) : Op → World
  | .enterProbation saved key epoch endpoint => Probation.enterProbation saved key epoch endpoint w
  | .recordPass saved key => (Probation.recordPass saved key w).2
  | .recordFailure saved key => Probation.recordFailure saved key w
  | .migrateIndex saved address newIndex newEndpoint =>
    (Probation.migrateIndex saved address newIndex newEndpoint w).2
  | .restart requiredPasses escalationEpochs readable =>
    w.restart requiredPasses escalationEpochs readable

/-- A first process without a state file. -/
def World.fresh (requiredPasses escalationEpochs : ℤ) : World where
  tracker := { requiredPasses, escalationEpochs, probation := .empty }
  file := none

end Verathos.Probation
