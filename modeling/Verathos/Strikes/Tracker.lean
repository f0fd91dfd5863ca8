import Mathlib.Data.Finset.Sort
import Mathlib.Data.List.DropRight
import Mathlib.Data.Prod.Lex
import Verathos.Lib.Json
import Verathos.Lib.StableSort

/-!
# The tracker of hard-proof strikes

A translation of `neurons/proof_v3_failure_strikes.py`: the epochs in which a miner failed a hard
audit, the clean epochs that let a strike lapse, the migration of an entry to a new model index and
the text that a restart reads.

A call that raises has not changed the tracker. Integers are read from ASCII digits.
-/

namespace Verathos.Strikes

structure HardProofStrikeState where
  failureEpochs : Finset ℤ := ∅
  cleanEpochs : Finset ℤ := ∅
  penaltyRequired : Bool := false
  endpoint : String := ""
deriving DecidableEq

/-- A miner address with a model index. -/
abbrev Key := String × ℤ

/-- The fields of a `HardProofStrikeTracker`. -/
structure HardProofStrikeTracker where
  states : OrderedDict Key HardProofStrikeState
  failureEpochsForPenalty : ℤ
  cleanHardAuditEpochsForReset : ℤ

/-- What a call raises. -/
inductive Failure
  | valueError (message : String)
  | decodeError
  | literalError
deriving DecidableEq

/-- `text.rstrip("/")`. -/
def rstripSlash (text : String) : String :=
  String.ofList (text.toList.rdropWhile fun c => c = '/')

section

variable (lc : LowerCase)

/-- `_key`. -/
def canonicalKey (key : Key) : Key := (lc.lower key.1, key.2)

/-- `penalty_required` after the loops of `configure` and `from_json`, which only ever set it. -/
def HardProofStrikeState.applyThreshold (failures : ℤ) (state : HardProofStrikeState) :
    HardProofStrikeState :=
  if failures ≤ state.failureEpochs.card then { state with penaltyRequired := true } else state

def configure (failures clean : ℤ) (t : HardProofStrikeTracker) :
    Except Failure HardProofStrikeTracker :=
  if ¬ (1 ≤ failures ∧ failures ≤ 10) then
    .error (.valueError "failure epoch threshold is outside [1, 10]")
  else if ¬ (1 ≤ clean ∧ clean ≤ 100) then
    .error (.valueError "clean epoch threshold is outside [1, 100]")
  else
    .ok
      { states := t.states.mapValues (·.applyThreshold failures)
        failureEpochsForPenalty := failures
        cleanHardAuditEpochsForReset := clean }

/-- `__init__`. -/
def create (failures clean : ℤ) : Except Failure HardProofStrikeTracker :=
  configure failures clean
    { states := .empty, failureEpochsForPenalty := 0, cleanHardAuditEpochsForReset := 0 }

/-- Store the state of an entry. -/
def HardProofStrikeTracker.put (t : HardProofStrikeTracker) (key : Key)
    (state : HardProofStrikeState) : HardProofStrikeTracker :=
  { t with states := t.states.set key state }

/-- Remove an entry. -/
def HardProofStrikeTracker.drop (t : HardProofStrikeTracker) (key : Key) :
    HardProofStrikeTracker :=
  { t with states := t.states.erase key }

/-- A state with a further failed epoch, which makes the clean epochs void. -/
def HardProofStrikeState.fail (epoch : ℤ) (state : HardProofStrikeState) :
    HardProofStrikeState :=
  { state with failureEpochs := insert epoch state.failureEpochs, cleanEpochs := ∅ }

/-- `state.endpoint` after `if endpoint: …`. -/
def HardProofStrikeState.withEndpoint (endpoint : String) (state : HardProofStrikeState) :
    HardProofStrikeState :=
  if endpoint ≠ "" then { state with endpoint := rstripSlash endpoint } else state

/-- What `record_failure` makes of the state of an entry. -/
def HardProofStrikeState.recordFailure (threshold epoch : ℤ) (endpoint : String)
    (alreadyOnProbation : Bool) (state : HardProofStrikeState) : HardProofStrikeState :=
  let state := state.withEndpoint endpoint
  if alreadyOnProbation then { state.fail epoch with penaltyRequired := true }
  else if epoch ∈ state.failureEpochs then state
  else (state.fail epoch).applyThreshold threshold

/-- `record_failure`: whether the penalty applies, and the tracker. -/
def recordFailure (key : Key) (epoch : ℤ) (endpoint : String) (alreadyOnProbation : Bool)
    (t : HardProofStrikeTracker) : Except Failure (Bool × HardProofStrikeTracker) :=
  if epoch < 0 then .error (.valueError "source epoch must be non-negative")
  else
    let canonical := canonicalKey lc key
    let state := ((t.states.get canonical).getD {}).recordFailure t.failureEpochsForPenalty epoch
      endpoint alreadyOnProbation
    .ok (state.penaltyRequired, t.put canonical state)

/-- `record_clean_pass`: whether a strike lapsed, and the tracker. -/
def recordCleanPass (key : Key) (epoch : ℤ) (t : HardProofStrikeTracker) :
    Except Failure (Bool × HardProofStrikeTracker) :=
  let canonical := canonicalKey lc key
  match t.states.get canonical with
  | none => .ok (false, t)
  | some state =>
    if state.penaltyRequired ∨ state.failureEpochs = ∅ then .ok (false, t)
    else if epoch < 0 then .error (.valueError "source epoch must be non-negative")
    -- `epoch <= max(state.failure_epochs)`
    else if ∃ failed ∈ state.failureEpochs, epoch ≤ failed then .ok (false, t)
    else
      let clean := insert epoch state.cleanEpochs
      if (clean.card : ℤ) < t.cleanHardAuditEpochsForReset then
        .ok (false, t.put canonical { state with cleanEpochs := clean })
      else .ok (true, t.drop canonical)

def clear (key : Key) (t : HardProofStrikeTracker) : Bool × HardProofStrikeTracker :=
  ((t.states.get (canonicalKey lc key)).isSome, t.drop (canonicalKey lc key))

def clearAll (t : HardProofStrikeTracker) : ℕ × HardProofStrikeTracker :=
  (t.states.entries.length, { t with states := .empty })

/-- The entries that `migrate_index` may move. -/
def migrationCandidates (newKey : Key) (newEndpoint : String) (t : HardProofStrikeTracker) :
    List (Key × HardProofStrikeState) :=
  t.states.entries.filter fun item =>
    item.1.1 = newKey.1 ∧ item.1.2 ≠ newKey.2 ∧
      (item.2.endpoint = "" ∨ newEndpoint = "" ∨ item.2.endpoint = rstripSlash newEndpoint)

/-- The entry that `migrate_index` moves: the only candidate, when there is no entry under the new
key. -/
def migrationSource (newKey : Key) (newEndpoint : String) (t : HardProofStrikeTracker) :
    Option (Key × HardProofStrikeState) :=
  if (t.states.get newKey).isSome then none
  else
    match migrationCandidates newKey newEndpoint t with
    | [item] => some item
    | _ => none

def migrateIndex (address : String) (newIndex : ℤ) (newEndpoint : String)
    (t : HardProofStrikeTracker) : Bool × HardProofStrikeTracker :=
  let newKey := canonicalKey lc (address, newIndex)
  match migrationSource newKey newEndpoint t with
  | none => (false, t)
  | some (oldKey, state) =>
    (true, (t.drop oldKey).put newKey (state.withEndpoint newEndpoint))

end

/-! ## The state file -/

/-- `f"{address}|{model_index}"`. -/
def encodeKey (key : Key) : String :=
  String.ofList (key.1.toList ++ '|' :: Json.dumpsInt key.2)

/-- A sorted list of epochs. -/
def epochsJson (epochs : Finset ℤ) : Json :=
  .arr ((epochs.sort (· ≤ ·)).map .int)

/-- The object that `to_json` writes for an entry. -/
def stateJson (state : HardProofStrikeState) : Json :=
  .obj [("failure_epochs", epochsJson state.failureEpochs),
    ("clean_epochs", epochsJson state.cleanEpochs),
    ("penalty_required", .bool state.penaltyRequired),
    ("endpoint", .str state.endpoint)]

/-- The dictionary `entries` of `to_json`. -/
def entriesJson (t : HardProofStrikeTracker) : OrderedDict String Json :=
  .ofList ((StableSort.sortBy (fun item => toLex item.1) t.states.entries).map fun item =>
    (encodeKey item.1, stateJson item.2))

def toJson (t : HardProofStrikeTracker) : String :=
  Json.dumpsSorted (.obj [("version", .int 1), ("entries", .obj (entriesJson t).entries)])

/-- `text.rsplit("|", 1)` of a text that has the bar, and nothing for one that has not. -/
def rsplitBar : List Char → Option (List Char × List Char)
  | [] => none
  | c :: text =>
    match rsplitBar text with
    | some (front, back) => some (c :: front, back)
    | none => if c = '|' then some ([], text) else none

/-- A character that `int(…)` strips. -/
def isSpace (c : Char) : Bool :=
  c.toNat = 32 || (9 ≤ c.toNat && c.toNat ≤ 13) || (28 ≤ c.toNat && c.toNat ≤ 31)

/-- Digits, with single underscores between them, after a digit or a sign. -/
def digitGroups (afterDigit : Bool) : List Char → Option (List Char)
  | [] => if afterDigit then some [] else none
  | c :: text =>
    if c.isDigit then (digitGroups true text).map fun digits => c :: digits
    else if c = '_' ∧ afterDigit then digitGroups false text
    else none

/-- `int(text)`. -/
def intLiteral (text : List Char) : Option ℤ :=
  let body := (text.dropWhile isSpace).rdropWhile isSpace
  let magnitude := (digitGroups false (Json.skipSign body)).map fun digits =>
    (Nat.ofDigitChars 10 digits 0 : ℤ)
  magnitude.map fun n => if body.head? = some '-' then -n else n

/-- `value.get("version") == 1`, which also holds of `True` and of a float that is one. -/
def isVersionOne : Option Json → Bool
  | some (.int n) => n = 1
  | some (.bool b) => b
  | some (.float text) => Json.floatIsOne text
  | _ => false

/-- A list of integers that are not negative. -/
def epochList : Option Json → Option (List ℤ)
  | some (.arr items) => items.mapM fun item =>
    match item with
    | .int n => if 0 ≤ n then some n else none
    | _ => none
  | _ => none

/-- The members of an entry. -/
def entryFields : List String := ["failure_epochs", "clean_epochs", "penalty_required", "endpoint"]

/-- `hard-proof strike entry is malformed`. -/
def malformedEntry : Failure := .valueError "hard-proof strike entry is malformed"

section

variable (lc : LowerCase)

/-- One turn of the loop of `from_json`: the entry that it stores. -/
def decodeEntry (threshold : ℤ) (encoded : String) (item : Json) :
    Except Failure (Key × HardProofStrikeState) :=
  match rsplitBar encoded.toList, item with
  | some (address, rawIndex), .obj members =>
    let item := Json.dict members
    if (item.entries.map Prod.fst).toFinset ≠ entryFields.toFinset then .error malformedEntry
    else
      match intLiteral rawIndex with
      | none => .error .literalError
      | some modelIndex =>
        match epochList (item.get "failure_epochs"), epochList (item.get "clean_epochs"),
          item.get "penalty_required", item.get "endpoint" with
        | some failures, some clean, some (.bool penalty), some (.str endpoint) =>
          if address = [] ∨ modelIndex < 0 ∨ failures = [] ∨ ¬ failures.Nodup ∨ ¬ clean.Nodup then
            .error malformedEntry
          else if ∃ epoch ∈ clean, epoch ∈ failures then
            .error (.valueError "hard-proof strike epochs overlap")
          else
            .ok (canonicalKey lc (String.ofList address, modelIndex),
              HardProofStrikeState.applyThreshold threshold
                { failureEpochs := failures.toFinset
                  cleanEpochs := clean.toFinset
                  penaltyRequired := penalty
                  endpoint })
        | _, _, _, _ => .error malformedEntry
  | _, _ => .error malformedEntry

def fromJson (raw : String) (failures clean : ℤ) : Except Failure HardProofStrikeTracker := do
  let tracker ← create failures clean
  if raw = "" then return tracker
  match Json.ofString raw with
  | none => throw .decodeError
  | some (.obj members) =>
    let value := Json.dict members
    match isVersionOne (value.get "version"), value.get "entries" with
    | true, some (.obj entries) =>
      let items ← (Json.dict entries).entries.mapM fun entry =>
        decodeEntry lc failures entry.1 entry.2
      return { tracker with states := .ofList items }
    | _, _ => throw (.valueError "hard-proof strike state is malformed")
  | some _ => throw (.valueError "hard-proof strike state is malformed")

end

end Verathos.Strikes
