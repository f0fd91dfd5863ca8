import Verathos.ValidatorDb.ProbationStore

/-!
# Earning the way out of probation

An observer keeps the failures that are still open: where the failed entry is now, and how many
passes were recorded there since. In a run whose migrations go to another entry, with at least as
many passes when it is on probation itself, no entry leaves probation before a pass completes what
each of its open failures asks for.

* `Failure`, `Tracked`: the open failures and what a call does to them;
* `Meets`: the condition on a migration;
* `StepHolds`: what a call may do;
* `probationStore_holds_iff`: a call does so exactly when it meets the condition.
-/

namespace Verathos.ProbationStore

open Transition (Reachable)

/-! ## Open failures -/

/-- An open failure. -/
structure Failure where
  location : Key
  passes : ℕ
deriving DecidableEq

/-- A table with its open failures. -/
structure Tracked where
  table : Table
  failures : List Failure

/-- One more pass for the failures at a key. -/
def Failure.passed (key : Key) (f : Failure) : Failure :=
  if f.location = key then { f with passes := f.passes + 1 } else f

/-- The failures at a key follow the entry to another one. -/
def Failure.moved (oldKey newKey : Key) (f : Failure) : Failure :=
  if f.location = oldKey then { f with location := newKey } else f

variable (lc : LowerCase)

/-- The open failures after a call. A failure opens when an entry enters probation or fails while on
it, and closes with the pass that lifts probation. -/
def failuresAfter (op : Op) (t : Tracked) : List Failure :=
  match op with
  | .upsertEntry _ _ _ => t.failures
  | .enterProbation address modelIndex _ =>
    let key := entryKey lc address modelIndex
    if columns t.table key = none then t.failures else ⟨key, 0⟩ :: t.failures
  | .recordPass address modelIndex =>
    let key := entryKey lc address modelIndex
    if ¬ IsOnProbation t.table key then t.failures
    else if (recordPass key t.table).1 then t.failures.filter fun f => f.location ≠ key
    else t.failures.map (Failure.passed key)
  | .recordFailure address modelIndex =>
    let key := entryKey lc address modelIndex
    if IsOnProbation t.table key then ⟨key, 0⟩ :: t.failures else t.failures
  | .migrateProbation address oldIndex newIndex =>
    let oldKey := entryKey lc address oldIndex
    let newKey := entryKey lc address newIndex
    if (migrateProbation oldKey newKey t.table).1 then t.failures.map (Failure.moved oldKey newKey)
    else t.failures

/-- A call, observed. -/
def trackedStep (op : Op) (t : Tracked) : Option Tracked :=
  some ⟨op.after lc t.table, failuresAfter lc op t⟩

/-- An empty table. -/
def Tracked.empty : Tracked := ⟨.empty, []⟩

/-- Where an entry is after a call. -/
def locationAfter (op : Op) (table : Table) (key : Key) : Key :=
  match op with
  | .migrateProbation address oldIndex newIndex =>
    let oldKey := entryKey lc address oldIndex
    let newKey := entryKey lc address newIndex
    if (migrateProbation oldKey newKey table).1 = true ∧ key = oldKey then newKey else key
  | _ => key

/-! ## The properties -/

/-- A migration that happens goes to another entry, which has at least as many passes when it is on
probation. -/
def Meets (op : Op) (t : Tracked) : Prop :=
  match op with
  | .migrateProbation address oldIndex newIndex =>
    let oldKey := entryKey lc address oldIndex
    let newKey := entryKey lc address newIndex
    (migrateProbation oldKey newKey t.table).1 = true →
      oldKey ≠ newKey ∧ ∀ old new, columns t.table oldKey = some old →
        columns t.table newKey = some new → new.enteredEpoch.isSome →
          old.consecutivePasses ≤ new.consecutivePasses
  | _ => True

/-- An entry with an open failure stays on probation, there or where it is migrated to, or the call
is the pass that completes the passes that the failure asks for. -/
def LiftsOnlyEarned (op : Op) (t : Tracked) : Prop :=
  ∀ f ∈ t.failures, ∀ c, columns t.table f.location = some c → c.enteredEpoch.isSome →
    IsOnProbation (op.after lc t.table) (locationAfter lc op t.table f.location) ∨
      (∃ address modelIndex, op = .recordPass address modelIndex ∧
        f.location = entryKey lc address modelIndex) ∧ c.requiredPasses ≤ f.passes + 1

/-- A migration gives an entry on probation no passes, and changes no third entry. -/
def MigratesSoundly (op : Op) (t : Tracked) : Prop :=
  match op with
  | .migrateProbation address oldIndex newIndex =>
    let oldKey := entryKey lc address oldIndex
    let newKey := entryKey lc address newIndex
    (∀ new new', columns t.table newKey = some new → new.enteredEpoch.isSome →
        columns (op.after lc t.table) newKey = some new' →
          new'.consecutivePasses ≤ new.consecutivePasses) ∧
      ∀ key, key ≠ oldKey → key ≠ newKey → (op.after lc t.table).get key = t.table.get key
  | _ => True

/-- What a call may do. -/
def StepHolds (op : Op) (t : Tracked) : Prop := LiftsOnlyEarned lc op t ∧ MigratesSoundly lc op t

/-- The calls that runs are made of. -/
def InRun (op : Op) (t : Tracked) : Prop := op.SameModel lc t.table ∧ Meets lc op t

/-! ## The invariant -/

/-- Every open failure belongs to an entry on probation whose counter is not ahead of it, and every
entry on probation has an open failure. -/
structure Valid (t : Tracked) : Prop where
  counted : ∀ f ∈ t.failures, ∃ c, columns t.table f.location = some c ∧ c.enteredEpoch.isSome ∧
    c.consecutivePasses ≤ f.passes
  opened : ∀ key, IsOnProbation t.table key → ∃ f ∈ t.failures, f.location = key

theorem valid_empty : Valid Tracked.empty where
  counted f hf := by cases hf
  opened key hkey := by
    obtain ⟨c, hc, -⟩ := isOnProbation_iff.mp hkey
    cases hc

section

variable {lc} {t : Tracked} {table' : Table} {key : Key}

variable {c : ProbationColumns}

theorem IsOnProbation.of_columns (hc : columns table' key = some c)
    (hentered : c.enteredEpoch.isSome) : IsOnProbation table' key :=
  isOnProbation_iff.mpr ⟨c, hc, hentered⟩

/-- The invariant only depends on the columns. -/
theorem Valid.congr (h : Valid t) (hcolumns : ∀ k, IsOnProbation table' k ∨ IsOnProbation t.table k →
    columns table' k = columns t.table k) : Valid ⟨table', t.failures⟩ where
  counted f hf := by
    obtain ⟨c, hc, hentered, hpasses⟩ := h.counted f hf
    exact ⟨c, (hcolumns _ (.inr (.of_columns hc hentered))).trans hc, hentered, hpasses⟩
  opened k hk := by
    obtain ⟨c, hc, hentered⟩ := isOnProbation_iff.mp hk
    exact h.opened k (.of_columns ((hcolumns k (.inl hk)).symm.trans hc) hentered)

theorem Valid.failed (h : Valid t) (hc : columns table' key = some c)
    (hentered : c.enteredEpoch.isSome) (hzero : c.consecutivePasses = 0)
    (hother : ∀ k, k ≠ key → columns table' k = columns t.table k) :
    Valid ⟨table', ⟨key, 0⟩ :: t.failures⟩ where
  counted f hf := by
    by_cases hkey : f.location = key
    · exact ⟨c, hkey ▸ hc, hentered, by omega⟩
    · rcases List.mem_cons.mp hf with rfl | hf
      · exact absurd rfl hkey
      · obtain ⟨c', hc', hrest⟩ := h.counted f hf
        exact ⟨c', (hother _ hkey).trans hc', hrest⟩
  opened k hk := by
    by_cases hkey : k = key
    · exact ⟨⟨key, 0⟩, List.mem_cons_self, hkey.symm⟩
    · obtain ⟨c', hc', hentered'⟩ := isOnProbation_iff.mp hk
      obtain ⟨f, hf, hlocation⟩ := h.opened k (.of_columns ((hother k hkey).symm.trans hc') hentered')
      exact ⟨f, List.mem_cons_of_mem _ hf, hlocation⟩

theorem Valid.passed (h : Valid t) (hc : columns t.table key = some c)
    (hentered : c.enteredEpoch.isSome)
    (hc' : columns table' key = some { c with consecutivePasses := c.consecutivePasses + 1 })
    (hother : ∀ k, k ≠ key → columns table' k = columns t.table k) :
    Valid ⟨table', t.failures.map (Failure.passed key)⟩ where
  counted f hf := by
    obtain ⟨f, hold, rfl⟩ := List.mem_map.mp hf
    obtain ⟨d, hd, hdEntered, hpasses⟩ := h.counted f hold
    unfold Failure.passed
    split_ifs with hkey
    · obtain rfl := Option.some.inj (hc.symm.trans (hkey ▸ hd))
      refine ⟨_, (congrArg (columns table') hkey).trans hc', hentered, ?_⟩
      simp only
      push_cast
      omega
    · exact ⟨d, (hother _ hkey).trans hd, hdEntered, hpasses⟩
  opened k hk := by
    have hlocation : ∀ f : Failure, (f.passed key).location = f.location := fun f => by
      unfold Failure.passed
      split_ifs <;> rfl
    have hon : IsOnProbation t.table k := by
      by_cases hkey : k = key
      · exact .of_columns (hkey ▸ hc) hentered
      · obtain ⟨d, hd, hdEntered⟩ := isOnProbation_iff.mp hk
        exact .of_columns ((hother k hkey).symm.trans hd) hdEntered
    obtain ⟨f, hf, hf'⟩ := h.opened k hon
    exact ⟨_, List.mem_map_of_mem hf, (hlocation f).trans hf'⟩

theorem Valid.lifted (h : Valid t) (hc : columns table' key = some c)
    (hentered : c.enteredEpoch = none)
    (hother : ∀ k, k ≠ key → columns table' k = columns t.table k) :
    Valid ⟨table', t.failures.filter fun f => f.location ≠ key⟩ where
  counted f hf := by
    obtain ⟨hf, hkey⟩ := List.mem_filter.mp hf
    obtain ⟨d, hd, hrest⟩ := h.counted f hf
    exact ⟨d, (hother _ (of_decide_eq_true hkey)).trans hd, hrest⟩
  opened k hk := by
    obtain ⟨d, hd, hdEntered⟩ := isOnProbation_iff.mp hk
    have hkey : k ≠ key := by
      rintro rfl
      obtain rfl := Option.some.inj (hc.symm.trans hd)
      rw [hentered] at hdEntered
      cases hdEntered
    obtain ⟨f, hf, rfl⟩ := h.opened k (.of_columns ((hother k hkey).symm.trans hd) hdEntered)
    exact ⟨f, List.mem_filter.mpr ⟨hf, decide_eq_true hkey⟩, rfl⟩

/-- A migration to another entry that is not behind takes the failures of the old entry along, and
those of the new entry wait no shorter. -/
theorem Valid.moved (h : Valid t) {oldKey newKey : Key} {old : ProbationColumns}
    (hold : columns t.table oldKey = some old) (hentered : old.enteredEpoch.isSome)
    (hne : oldKey ≠ newKey)
    (hbehind : ∀ new, columns t.table newKey = some new → new.enteredEpoch.isSome →
      old.consecutivePasses ≤ new.consecutivePasses)
    (hcolumns : ∀ k, columns table' k =
      if k = oldKey then some old.lifted else if k = newKey then some old else columns t.table k) :
    Valid ⟨table', t.failures.map (Failure.moved oldKey newKey)⟩ where
  counted f hf := by
    obtain ⟨f, hmem, rfl⟩ := List.mem_map.mp hf
    obtain ⟨d, hd, hdEntered, hpasses⟩ := h.counted f hmem
    unfold Failure.moved
    split_ifs with hkey
    · obtain rfl := Option.some.inj (hold.symm.trans (hkey ▸ hd))
      exact ⟨old, by rw [hcolumns, if_neg hne.symm, if_pos rfl], hentered, hpasses⟩
    · by_cases hnew : f.location = newKey
      · refine ⟨old, by rw [hcolumns, if_neg hkey, if_pos hnew], hentered, ?_⟩
        exact (hbehind d (hnew ▸ hd) hdEntered).trans hpasses
      · exact ⟨d, by rw [hcolumns, if_neg hkey, if_neg hnew, hd], hdEntered, hpasses⟩
  opened k hk := by
    obtain ⟨d, hd, hdEntered⟩ := isOnProbation_iff.mp hk
    rw [hcolumns] at hd
    split_ifs at hd with hkOld hkNew
    · obtain rfl := Option.some.inj hd
      cases hdEntered
    · obtain ⟨f, hf, hlocation⟩ := h.opened oldKey (.of_columns hold hentered)
      exact ⟨_, List.mem_map_of_mem hf, by rw [Failure.moved, if_pos hlocation, hkNew]⟩
    · obtain ⟨f, hf, rfl⟩ := h.opened k (.of_columns hd hdEntered)
      exact ⟨_, List.mem_map_of_mem hf, by rw [Failure.moved, if_neg hkOld]⟩

variable {op : Op}

theorem Valid.after (h : Valid t) (hmodel : op.SameModel lc t.table) (hmeets : Meets lc op t) :
    Valid ⟨op.after lc t.table, failuresAfter lc op t⟩ := by
  cases op with
  | upsertEntry address modelIndex d =>
    refine h.congr fun k hk => ?_
    rw [Op.after, columns_upsertEntry hmodel, if_neg]
    rintro ⟨rfl, hnone⟩
    -- a new entry is not on probation
    rcases hk with hk | hk
    · obtain ⟨c, hc, hentered⟩ := isOnProbation_iff.mp hk
      rw [Op.after, columns_upsertEntry hmodel, if_pos ⟨rfl, hnone⟩] at hc
      obtain rfl := Option.some.inj hc
      cases hentered
    · obtain ⟨c, hc, -⟩ := isOnProbation_iff.mp hk
      rw [hnone] at hc
      cases hc
  | enterProbation address modelIndex epoch =>
    simp only [failuresAfter, Op.after]
    split_ifs with hnone
    · refine h.congr fun k _ => ?_
      rw [columns_enterProbation]
      split_ifs with hk
      · rw [hk, hnone]
        rfl
      · rfl
    · obtain ⟨c, hc⟩ := Option.ne_none_iff_exists'.mp hnone
      refine h.failed (c := c.entered epoch) ?_ rfl rfl fun k hk => ?_
      · rw [columns_enterProbation, if_pos rfl, hc, Option.map_some]
      · rw [columns_enterProbation, if_neg hk]
  | recordPass address modelIndex =>
    have hother : ∀ k, k ≠ entryKey lc address modelIndex →
        columns (recordPass (entryKey lc address modelIndex) t.table).2 k = columns t.table k :=
      fun k hk => by rw [columns_recordPass, if_neg fun hand => hk hand.1]
    simp only [failuresAfter, Op.after]
    by_cases hon : IsOnProbation t.table (entryKey lc address modelIndex)
    · obtain ⟨c, hc, hentered⟩ := isOnProbation_iff.mp hon
      have hafter : columns (recordPass (entryKey lc address modelIndex) t.table).2
          (entryKey lc address modelIndex) = some c.passed := by
        rw [columns_recordPass, if_pos ⟨rfl, hon⟩, hc, Option.map_some]
      rw [if_neg (not_not.mpr hon)]
      by_cases hlifted : c.requiredPasses ≤ c.consecutivePasses + 1
      · rw [if_pos ((recordPass_fst hc hentered).mpr hlifted)]
        rw [ProbationColumns.passed, if_pos hlifted] at hafter
        exact h.lifted hafter rfl hother
      · rw [if_neg (mt (recordPass_fst hc hentered).mp hlifted)]
        rw [ProbationColumns.passed, if_neg hlifted] at hafter
        exact h.passed hc hentered hafter hother
    · rw [if_pos hon]
      refine h.congr fun k _ => ?_
      rw [columns_recordPass, if_neg fun hand => hon hand.2]
  | recordFailure address modelIndex =>
    simp only [failuresAfter, Op.after]
    split_ifs with hon
    · obtain ⟨c, hc, hentered⟩ := isOnProbation_iff.mp hon
      refine h.failed (c := c.restarted) ?_ hentered rfl fun k hk => ?_
      · rw [columns_recordFailure, if_pos ⟨rfl, hon⟩, hc, Option.map_some]
      · rw [columns_recordFailure, if_neg fun hand => hk hand.1]
    · refine h.congr fun k _ => ?_
      rw [columns_recordFailure, if_neg fun hand => hon hand.2]
  | migrateProbation address oldIndex newIndex =>
    simp only [failuresAfter, Op.after]
    split_ifs with hgo
    · obtain ⟨hne, hbehind⟩ := hmeets hgo
      obtain ⟨old, hold, hentered⟩ := isOnProbation_iff.mp ((migrateProbation_fst _ _).mp hgo).1
      exact h.moved hold hentered hne (fun new hnew => hbehind old new hold hnew)
        (columns_migrateProbation hold hgo)
    · rw [migrateProbation_of_false hgo]
      exact h

/-! ## Calls and the condition -/

/-- An open failure stays open where its entry is after the call, or the call is the pass that lifts
probation there. -/
theorem followed {f : Failure} (hf : f ∈ t.failures) (op : Op) :
    (∃ f' ∈ failuresAfter lc op t, f'.location = locationAfter lc op t.table f.location) ∨
      ∃ address modelIndex, op = .recordPass address modelIndex ∧
        f.location = entryKey lc address modelIndex ∧
        (recordPass (entryKey lc address modelIndex) t.table).1 = true := by
  cases op with
  | upsertEntry address modelIndex d => exact .inl ⟨f, hf, rfl⟩
  | enterProbation address modelIndex epoch =>
    refine .inl ⟨f, ?_, rfl⟩
    simp only [failuresAfter]
    split_ifs
    · exact hf
    · exact List.mem_cons_of_mem _ hf
  | recordPass address modelIndex =>
    simp only [failuresAfter, locationAfter]
    split_ifs with hon hlifted
    · by_cases hkey : f.location = entryKey lc address modelIndex
      · exact .inr ⟨address, modelIndex, rfl, hkey, hlifted⟩
      · exact .inl ⟨f, List.mem_filter.mpr ⟨hf, decide_eq_true hkey⟩, rfl⟩
    · refine .inl ⟨_, List.mem_map_of_mem hf, ?_⟩
      unfold Failure.passed
      split_ifs <;> rfl
    · exact .inl ⟨f, hf, rfl⟩
  | recordFailure address modelIndex =>
    refine .inl ⟨f, ?_, rfl⟩
    simp only [failuresAfter]
    split_ifs
    · exact List.mem_cons_of_mem _ hf
    · exact hf
  | migrateProbation address oldIndex newIndex =>
    simp only [failuresAfter, locationAfter]
    by_cases hgo : (migrateProbation (entryKey lc address oldIndex) (entryKey lc address newIndex)
        t.table).1 = true
    · rw [if_pos hgo]
      refine .inl ⟨_, List.mem_map_of_mem hf, ?_⟩
      unfold Failure.moved
      split_ifs with hkey hand hand
      · rfl
      · exact absurd ⟨hgo, hkey⟩ hand
      · exact absurd hand.2 hkey
      · rfl
    · rw [if_neg hgo, if_neg fun hand => hgo hand.1]
      exact .inl ⟨f, hf, rfl⟩

theorem Valid.liftsOnlyEarned (h : Valid t) (hmodel : op.SameModel lc t.table)
    (hmeets : Meets lc op t) : LiftsOnlyEarned lc op t := by
  intro f hf c hc hentered
  have hfollowed : (∃ f' ∈ failuresAfter lc op t, _) ∨ _ := followed hf op
  rcases hfollowed with ⟨f', hf', hlocation⟩ | ⟨address, modelIndex, rfl, hlocation, hlifted⟩
  · obtain ⟨c', hc', hentered', -⟩ := (h.after hmodel hmeets).counted f' hf'
    exact .inl (.of_columns (hlocation ▸ hc') hentered')
  · refine .inr ⟨⟨address, modelIndex, rfl, hlocation⟩, ?_⟩
    obtain ⟨d, hd, -, hpasses⟩ := h.counted f hf
    obtain rfl := Option.some.inj (hc.symm.trans hd)
    have hle := (recordPass_fst (hlocation ▸ hc) hentered).mp hlifted
    omega

theorem migratesSoundly (hmeets : Meets lc op t) : MigratesSoundly lc op t := by
  cases op with
  | migrateProbation address oldIndex newIndex =>
    simp only [MigratesSoundly, Op.after]
    by_cases hgo : (migrateProbation (entryKey lc address oldIndex) (entryKey lc address newIndex)
        t.table).1 = true
    · obtain ⟨hne, hbehind⟩ := hmeets hgo
      obtain ⟨old, hold, -⟩ := isOnProbation_iff.mp ((migrateProbation_fst _ _).mp hgo).1
      refine ⟨fun new new' hnew hentered hnew' => ?_, fun key hkeyOld hkeyNew =>
        get_migrateProbation_of_ne hkeyOld hkeyNew⟩
      rw [columns_migrateProbation hold hgo, if_neg hne.symm, if_pos rfl] at hnew'
      obtain rfl := Option.some.inj hnew'
      exact hbehind _ new hold hnew hentered
    · rw [migrateProbation_of_false hgo]
      refine ⟨fun new new' hnew _ hnew' => ?_, fun key _ _ => rfl⟩
      rw [Option.some.inj (hnew.symm.trans hnew')]
  | _ => trivial

theorem Valid.meets (h : Valid t) (hlifts : LiftsOnlyEarned lc op t)
    (hmigrates : MigratesSoundly lc op t) : Meets lc op t := by
  cases op with
  | migrateProbation address oldIndex newIndex =>
    intro hgo
    have hon := ((migrateProbation_fst _ _).mp hgo).1
    obtain ⟨old, hold, hentered⟩ := isOnProbation_iff.mp hon
    have hcolumns := columns_migrateProbation hold hgo
    have hne : entryKey lc address oldIndex ≠ entryKey lc address newIndex := by
      intro heq
      -- a migration onto itself ends probation while a failure is open
      obtain ⟨f, hf, hlocation⟩ := h.opened _ hon
      rcases hlifts f hf old (hlocation ▸ hold) hentered with hafter | ⟨⟨_, _, hop, -⟩, -⟩
      · rw [locationAfter, if_pos ⟨hgo, hlocation⟩] at hafter
        obtain ⟨c, hc, hc'⟩ := isOnProbation_iff.mp hafter
        rw [Op.after, hcolumns, if_pos heq.symm] at hc
        obtain rfl := Option.some.inj hc
        cases hc'
      · cases hop
    refine ⟨hne, fun old' new hold' hnew hnewEntered => ?_⟩
    obtain rfl := Option.some.inj (hold.symm.trans hold')
    refine hmigrates.1 new old hnew hnewEntered ?_
    rw [Op.after, hcolumns, if_neg hne.symm, if_pos rfl]
  | _ => trivial

end

/-- In every run whose calls meet the condition, a call lifts probation only as it is earned and
migrates soundly exactly when it meets the condition, too. -/
theorem probationStore_holds_iff (lc : LowerCase) (t : Tracked)
    (ht : Reachable (trackedStep lc) (InRun lc) Tracked.empty t) (op : Op)
    (hmodel : op.SameModel lc t.table) : StepHolds lc op t ↔ Meets lc op t := by
  have hvalid : Valid t := by
    refine ht.invariant valid_empty ?_
    intro op s s' hs hrun hstep
    obtain rfl := Option.some.inj hstep
    exact hs.after hrun.1 hrun.2
  constructor
  · rintro ⟨hlifts, hmigrates⟩
    exact hvalid.meets hlifts hmigrates
  · intro hmeets
    exact ⟨hvalid.liftsOnlyEarned hmodel hmeets, migratesSoundly hmeets⟩

/-! ## A migration that spares passes -/

/-- What discovery sees of both entries. -/
def sampleDiscovery : Discovery where
  modelId := "m"
  endpoint := "http://a"
  quant := "int4"
  maxContextLen := 4096
  epoch := 1

/-- Two entries of one address. The first fails and passes twice, and then the second fails. -/
def twoFailures : List Op :=
  [.upsertEntry "0xa" 0 sampleDiscovery, .upsertEntry "0xa" 1 sampleDiscovery,
    .enterProbation "0xa" 0 1, .recordPass "0xa" 0, .recordPass "0xa" 0, .enterProbation "0xa" 1 3]

/-- The state after some calls. -/
def afterCalls (calls : List Op) : Tracked :=
  (Transition.run (trackedStep .ascii) calls .empty).getD .empty

/-- The first entry migrates onto the second one, and one pass lifts the second one. A migration of
the first entry onto itself lifts it without any. -/
theorem migration_spares_passes :
    ¬ MigratesSoundly .ascii (.migrateProbation "0xa" 0 1) (afterCalls twoFailures) ∧
      ¬ LiftsOnlyEarned .ascii (.recordPass "0xa" 1)
        (afterCalls (twoFailures ++ [.migrateProbation "0xa" 0 1])) ∧
      ¬ LiftsOnlyEarned .ascii (.migrateProbation "0xa" 0 0) (afterCalls twoFailures) := by
  refine ⟨fun h => ?_, fun h => ?_, fun h => ?_⟩
  · have hpasses := h.1 ⟨some 3, 0, 3, 5⟩ ⟨some 1, 2, 3, 5⟩ (by decide +kernel) rfl
      (by decide +kernel)
    exact absurd hpasses (by decide)
  · have hlift := h ⟨("0xa", 1), 0⟩ (by decide +kernel) ⟨some 1, 2, 3, 5⟩ (by decide +kernel) rfl
    rcases hlift with hon | ⟨-, hpasses⟩
    · exact absurd hon (by decide +kernel)
    · exact absurd hpasses (by decide)
  · have hlift := h ⟨("0xa", 0), 2⟩ (by decide +kernel) ⟨some 1, 2, 3, 5⟩ (by decide +kernel) rfl
    rcases hlift with hon | ⟨⟨_, _, hop, -⟩, -⟩
    · exact absurd hon (by decide +kernel)
    · cases hop

/-- A pass of an entry that entered probation. -/
theorem probationStore_holds_iff_pass :
    let t := afterCalls (twoFailures.take 3)
    StepHolds .ascii (.recordPass "0xa" 0) t ↔ Meets .ascii (.recordPass "0xa" 0) t := by
  have hreach : Reachable (trackedStep .ascii) (InRun .ascii) Tracked.empty
      (afterCalls (twoFailures.take 3)) := by
    have hfirst : InRun .ascii (.upsertEntry "0xa" 0 sampleDiscovery) .empty :=
      ⟨fun row hrow => (nomatch hrow), trivial⟩
    have hnew : (afterCalls (twoFailures.take 1)).table.get (entryKey .ascii "0xa" 1) = none := by
      decide +kernel
    have hsecond : InRun .ascii (.upsertEntry "0xa" 1 sampleDiscovery)
        (afterCalls (twoFailures.take 1)) :=
      ⟨fun row hrow => (nomatch hnew.symm.trans hrow), trivial⟩
    have hthird : InRun .ascii (.enterProbation "0xa" 0 1) (afterCalls (twoFailures.take 2)) :=
      ⟨trivial, trivial⟩
    exact .step (.step (.step .refl hfirst rfl) hsecond rfl) hthird rfl
  exact probationStore_holds_iff .ascii _ hreach (.recordPass "0xa" 0) trivial

end Verathos.ProbationStore
