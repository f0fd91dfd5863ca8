import Verathos.Lib.Texts
import Verathos.Lib.OrderedDict
import Verathos.Lib.Transition

/-!
# Probation in the validator database

A translation of `upsert_entry`, `enter_probation`, `record_pass`, `record_failure`,
`is_on_probation` and `migrate_probation` of `neurons/validator_db.py`, over the table
`miner_entries`. The columns `created_at` and `updated_at`, which hold the times of the calls, are
left out; the log lines are too.
-/

namespace Verathos.ProbationStore

/-- The primary key: an address and a model index. -/
abbrev Key := String × ℤ

/-- The probation columns of a row. -/
structure ProbationColumns where
  enteredEpoch : Option ℤ
  consecutivePasses : ℤ
  requiredPasses : ℤ
  escalationEpochs : ℤ
deriving DecidableEq

/-- A row of `miner_entries`. -/
structure EntryRow where
  modelId : String
  endpoint : String
  quant : String
  maxContextLen : ℤ
  hotkeySs58 : String
  coldkeySs58 : String
  firstSeenEpoch : ℤ
  lastSeenEpoch : ℤ
  isActive : Bool
  emaScore : ℚ
  totalEpochs : ℤ
  scoredEpochs : ℤ
  probation : ProbationColumns
  teeEnabled : Bool
  teePlatform : String
  gpuName : String
  gpuCount : ℤ
  vramGb : ℤ
  computeCapability : String
  gpuUuids : String
deriving DecidableEq

/-- The table `miner_entries`. -/
abbrev Table := OrderedDict Key EntryRow

/-- What discovery passes to `upsert_entry`. -/
structure Discovery where
  modelId : String
  endpoint : String
  quant : String
  maxContextLen : ℤ
  epoch : ℤ
  hotkeySs58 : String := ""
  coldkeySs58 : String := ""
  teeEnabled : Bool := false
  teePlatform : String := ""
  gpuName : String := ""
  gpuCount : ℤ := 0
  vramGb : ℤ := 0
  computeCapability : String := ""
  gpuUuids : String := "[]"

variable (lc : LowerCase)

/-- The key of a call: the address in lower case and the index. -/
def entryKey (address : String) (modelIndex : ℤ) : Key := (lc.lower address, modelIndex)

/-! ## Discovery -/

def coalesce (new old : String) : String := if new = "" then old else new

/-- The columns that the `INSERT` gives a new entry. -/
def freshProbation : ProbationColumns := ⟨none, 0, 3, 5⟩

/-- The row of a new entry. -/
def Discovery.newRow (d : Discovery) : EntryRow where
  modelId := d.modelId
  endpoint := d.endpoint
  quant := d.quant
  maxContextLen := d.maxContextLen
  hotkeySs58 := d.hotkeySs58
  coldkeySs58 := d.coldkeySs58
  firstSeenEpoch := d.epoch
  lastSeenEpoch := d.epoch
  isActive := true
  emaScore := 0
  totalEpochs := 0
  scoredEpochs := 0
  probation := freshProbation
  teeEnabled := d.teeEnabled
  teePlatform := d.teePlatform
  gpuName := d.gpuName
  gpuCount := max 0 d.gpuCount
  vramGb := max 0 d.vramGb
  computeCapability := d.computeCapability
  gpuUuids := d.gpuUuids

/-- The row after a switch to another model: the score and the probation are reset. -/
def Discovery.switchedRow (d : Discovery) (row : EntryRow) : EntryRow :=
  { d.newRow with
    firstSeenEpoch := row.firstSeenEpoch
    probation := { row.probation with enteredEpoch := none, consecutivePasses := 0 }
    hotkeySs58 := coalesce d.hotkeySs58 row.hotkeySs58
    coldkeySs58 := coalesce d.coldkeySs58 row.coldkeySs58 }

/-- The row after a discovery with the same model. Hardware that is not reported is kept unless the
registration changed. -/
def Discovery.sameModelRow (d : Discovery) (row : EntryRow) : EntryRow :=
  let changed := row.endpoint ≠ d.endpoint ∨ row.quant ≠ d.quant ∨
    row.maxContextLen ≠ d.maxContextLen
  let gpuCount := max 0 d.gpuCount
  let vramGb := max 0 d.vramGb
  { row with
    endpoint := d.endpoint
    quant := d.quant
    maxContextLen := d.maxContextLen
    lastSeenEpoch := d.epoch
    isActive := true
    teeEnabled := d.teeEnabled
    teePlatform := d.teePlatform
    gpuName := if changed then d.gpuName else coalesce d.gpuName row.gpuName
    gpuCount := if changed ∨ gpuCount > 0 then gpuCount else row.gpuCount
    vramGb := if changed ∨ vramGb > 0 then vramGb else row.vramGb
    computeCapability := if changed then d.computeCapability
      else coalesce d.computeCapability row.computeCapability
    gpuUuids := if changed ∨ d.gpuUuids ≠ "[]" then d.gpuUuids else row.gpuUuids
    hotkeySs58 := coalesce d.hotkeySs58 row.hotkeySs58
    coldkeySs58 := coalesce d.coldkeySs58 row.coldkeySs58 }

/-- `upsert_entry`: whether the model was switched, and the table after it. -/
def upsertEntry (key : Key) (d : Discovery) (table : Table) : Bool × Table :=
  match table.get key with
  | none => (false, table.set key d.newRow)
  | some row =>
    if row.modelId ≠ d.modelId then (true, table.set key (d.switchedRow row))
    else (false, table.set key (d.sameModelRow row))

/-! ## Probation -/

/-- The probation columns of an entry. -/
def columns (table : Table) (key : Key) : Option ProbationColumns :=
  (table.get key).map EntryRow.probation

/-- An `UPDATE` of the probation columns of one entry. -/
def updateProbation (table : Table) (key : Key) (f : ProbationColumns → ProbationColumns) : Table :=
  match table.get key with
  | none => table
  | some row => table.set key { row with probation := f row.probation }

def IsOnProbation (table : Table) (key : Key) : Prop :=
  ∃ c ∈ columns table key, c.enteredEpoch.isSome

instance (table : Table) (key : Key) : Decidable (IsOnProbation table key) :=
  inferInstanceAs (Decidable (∃ c ∈ columns table key, _))

/-- Columns without a pass. -/
def ProbationColumns.restarted (c : ProbationColumns) : ProbationColumns :=
  { c with consecutivePasses := 0 }

/-- Columns off probation. -/
def ProbationColumns.lifted (c : ProbationColumns) : ProbationColumns :=
  { c with enteredEpoch := none, consecutivePasses := 0 }

def enterProbation (key : Key) (epoch : ℤ) (table : Table) : Table :=
  if IsOnProbation table key then updateProbation table key ProbationColumns.restarted
  else updateProbation table key fun c =>
    { c with enteredEpoch := some epoch, consecutivePasses := 0 }

/-- `record_pass`: whether probation is lifted, and the table after it. -/
def recordPass (key : Key) (table : Table) : Bool × Table :=
  match columns table key with
  | none => (false, table)
  | some c =>
    if c.enteredEpoch = none then (false, table)
    else if c.consecutivePasses + 1 ≥ c.requiredPasses then
      (true, updateProbation table key ProbationColumns.lifted)
    else
      (false, updateProbation table key fun c =>
        { c with consecutivePasses := c.consecutivePasses + 1 })

def recordFailure (key : Key) (table : Table) : Table :=
  if IsOnProbation table key then updateProbation table key ProbationColumns.restarted else table

/-- `migrate_probation`: whether a migration occurred, and the table after it. -/
def migrateProbation (oldKey newKey : Key) (table : Table) : Bool × Table :=
  match columns table oldKey with
  | none => (false, table)
  | some old =>
    if old.enteredEpoch = none then (false, table)
    else if columns table newKey = none then (false, table)
    else
      (true, updateProbation (updateProbation table newKey fun _ => old) oldKey
        ProbationColumns.lifted)

/-! ## Calls -/

/-- A call. -/
inductive Op
  | upsertEntry (address : String) (modelIndex : ℤ) (d : Discovery)
  | enterProbation (address : String) (modelIndex epoch : ℤ)
  | recordPass (address : String) (modelIndex : ℤ)
  | recordFailure (address : String) (modelIndex : ℤ)
  | migrateProbation (address : String) (oldIndex newIndex : ℤ)

/-- The table after a call. -/
def Op.after (op : Op) (table : Table) : Table :=
  match op with
  | upsertEntry address modelIndex d =>
    (ProbationStore.upsertEntry (entryKey lc address modelIndex) d table).2
  | enterProbation address modelIndex epoch =>
    ProbationStore.enterProbation (entryKey lc address modelIndex) epoch table
  | recordPass address modelIndex =>
    (ProbationStore.recordPass (entryKey lc address modelIndex) table).2
  | recordFailure address modelIndex =>
    ProbationStore.recordFailure (entryKey lc address modelIndex) table
  | migrateProbation address oldIndex newIndex =>
    (ProbationStore.migrateProbation (entryKey lc address oldIndex) (entryKey lc address newIndex)
      table).2

/-- A call of `upsert_entry` for an entry that exists names its model. -/
def Op.SameModel (op : Op) (table : Table) : Prop :=
  match op with
  | upsertEntry address modelIndex d =>
    ∀ row, table.get (entryKey lc address modelIndex) = some row → row.modelId = d.modelId
  | _ => True

/-! ## The columns after a call -/

variable {table : Table} {key : Key} {c : ProbationColumns}

theorem columns_set (row : EntryRow) (k : Key) :
    columns (table.set key row) k = if k = key then some row.probation else columns table k := by
  rw [columns, columns, OrderedDict.get_set]
  split_ifs <;> rfl

theorem columns_updateProbation (f : ProbationColumns → ProbationColumns) (k : Key) :
    columns (updateProbation table key f) k =
      if k = key then (columns table k).map f else columns table k := by
  unfold updateProbation
  cases hrow : table.get key with
  | none =>
    split_ifs with hk
    · rw [columns, hk, hrow]
      rfl
    · rfl
  | some row =>
    simp only [columns_set]
    split_ifs with hk
    · rw [columns, hk, hrow]
      rfl
    · rfl

theorem get_updateProbation_of_ne (f : ProbationColumns → ProbationColumns) {k : Key}
    (hk : k ≠ key) : (updateProbation table key f).get k = table.get k := by
  unfold updateProbation
  cases table.get key with
  | none => rfl
  | some row => exact OrderedDict.get_set_of_ne _ _ hk

theorem isOnProbation_iff : IsOnProbation table key ↔
    ∃ c, columns table key = some c ∧ c.enteredEpoch.isSome := by
  simp only [IsOnProbation, Option.mem_def]

theorem columns_upsertEntry {d : Discovery}
    (hmodel : ∀ row, table.get key = some row → row.modelId = d.modelId) (k : Key) :
    columns (upsertEntry key d table).2 k =
      if k = key ∧ columns table k = none then some freshProbation else columns table k := by
  unfold upsertEntry
  cases hrow : table.get key with
  | none =>
    simp only [columns_set]
    by_cases hk : k = key
    · simp [hk, columns, hrow, Discovery.newRow]
    · simp [hk]
  | some row =>
    simp only [hmodel row hrow, ne_eq, not_true_eq_false, if_false, columns_set]
    by_cases hk : k = key
    · simp [hk, columns, hrow, Discovery.sameModelRow]
    · simp [hk]

/-- The columns of a key after it enters probation. -/
def ProbationColumns.entered (epoch : ℤ) (c : ProbationColumns) : ProbationColumns :=
  { c with enteredEpoch := some (c.enteredEpoch.getD epoch), consecutivePasses := 0 }

theorem columns_enterProbation (epoch : ℤ) (k : Key) :
    columns (enterProbation key epoch table) k =
      if k = key then (columns table k).map (ProbationColumns.entered epoch)
      else columns table k := by
  unfold enterProbation
  split_ifs with hon hk hk
  · obtain ⟨c, hc, hentered⟩ := isOnProbation_iff.mp hon
    obtain ⟨entered, hepoch⟩ := Option.isSome_iff_exists.mp hentered
    rw [columns_updateProbation, if_pos hk, hk, hc, Option.map_some, Option.map_some,
      ProbationColumns.restarted, ProbationColumns.entered, hepoch, Option.getD_some]
  · rw [columns_updateProbation, if_neg hk]
  · rw [columns_updateProbation, if_pos hk, hk]
    cases hc : columns table key with
    | none => rfl
    | some c =>
      have hnone : c.enteredEpoch = none := by
        rw [← Option.not_isSome_iff_eq_none]
        exact fun hentered => hon (isOnProbation_iff.mpr ⟨c, hc, hentered⟩)
      rw [Option.map_some, Option.map_some, ProbationColumns.entered, hnone, Option.getD_none]
  · rw [columns_updateProbation, if_neg hk]

/-- The columns of a key on probation after a pass. -/
def ProbationColumns.passed (c : ProbationColumns) : ProbationColumns :=
  if c.consecutivePasses + 1 ≥ c.requiredPasses then c.lifted
  else { c with consecutivePasses := c.consecutivePasses + 1 }

theorem columns_recordPass (k : Key) :
    columns (recordPass key table).2 k =
      if k = key ∧ IsOnProbation table key then (columns table k).map ProbationColumns.passed
      else columns table k := by
  unfold recordPass
  cases hc : columns table key with
  | none =>
    have hoff : ¬ IsOnProbation table key := by simp [IsOnProbation, hc]
    simp [hoff]
  | some c =>
    by_cases hentered : c.enteredEpoch = none
    · have hoff : ¬ IsOnProbation table key := by simp [IsOnProbation, hc, hentered]
      simp [hentered, hoff]
    · have hon : IsOnProbation table key :=
        isOnProbation_iff.mpr ⟨c, hc, Option.isSome_iff_ne_none.mpr hentered⟩
      simp only [hentered, if_false, hon, and_true]
      by_cases hk : k = key
      · subst hk
        rw [if_pos rfl, hc, Option.map_some, ProbationColumns.passed]
        split_ifs with hle
        · rw [columns_updateProbation, if_pos rfl, hc, Option.map_some]
        · rw [columns_updateProbation, if_pos rfl, hc, Option.map_some]
      · rw [if_neg hk]
        split_ifs with hle
        · rw [columns_updateProbation, if_neg hk]
        · rw [columns_updateProbation, if_neg hk]

theorem recordPass_fst (hc : columns table key = some c) (hentered : c.enteredEpoch.isSome) :
    (recordPass key table).1 = true ↔ c.requiredPasses ≤ c.consecutivePasses + 1 := by
  have hne : c.enteredEpoch ≠ none := Option.isSome_iff_ne_none.mp hentered
  simp only [recordPass, hc, if_neg hne]
  split_ifs with hle
  · simpa using hle
  · simpa using hle

theorem columns_recordFailure (k : Key) :
    columns (recordFailure key table) k =
      if k = key ∧ IsOnProbation table key then (columns table k).map ProbationColumns.restarted
      else columns table k := by
  unfold recordFailure
  by_cases hon : IsOnProbation table key
  · simp only [hon, if_true, and_true, columns_updateProbation]
  · simp only [hon, if_false, and_false]

theorem migrateProbation_fst (oldKey newKey : Key) :
    (migrateProbation oldKey newKey table).1 = true ↔
      IsOnProbation table oldKey ∧ columns table newKey ≠ none := by
  unfold migrateProbation IsOnProbation
  cases hc : columns table oldKey with
  | none => simp
  | some old =>
    cases hentered : old.enteredEpoch <;> cases columns table newKey <;> simp [hentered]

variable {oldKey newKey : Key}

theorem columns_migrateProbation {old : ProbationColumns} (hold : columns table oldKey = some old)
    (hgo : (migrateProbation oldKey newKey table).1 = true) (k : Key) :
    columns (migrateProbation oldKey newKey table).2 k =
      if k = oldKey then some old.lifted
      else if k = newKey then some old else columns table k := by
  obtain ⟨hon, hnew⟩ := (migrateProbation_fst oldKey newKey).mp hgo
  have hentered : old.enteredEpoch ≠ none := by
    obtain ⟨c, hc, hsome⟩ := isOnProbation_iff.mp hon
    obtain rfl := Option.some.inj (hold.symm.trans hc)
    exact Option.isSome_iff_ne_none.mp hsome
  obtain ⟨new, hnewColumns⟩ := Option.ne_none_iff_exists'.mp hnew
  simp only [migrateProbation, hold, if_neg hentered, if_neg hnew, columns_updateProbation]
  split_ifs with hk hkeys hkNew
  · rw [hk, hold]
    rfl
  · rw [hk, hold]
    rfl
  · rw [hkNew, hnewColumns]
    rfl
  · rfl

theorem get_migrateProbation_of_ne {k : Key} (hold : k ≠ oldKey) (hnew : k ≠ newKey) :
    (migrateProbation oldKey newKey table).2.get k = table.get k := by
  unfold migrateProbation
  split
  · rfl
  · split_ifs
    · rfl
    · rfl
    · rw [get_updateProbation_of_ne _ hold, get_updateProbation_of_ne _ hnew]

theorem migrateProbation_of_false (hgo : (migrateProbation oldKey newKey table).1 ≠ true) :
    (migrateProbation oldKey newKey table).2 = table := by
  revert hgo
  unfold migrateProbation
  split
  · simp
  · split_ifs <;> simp

end Verathos.ProbationStore
