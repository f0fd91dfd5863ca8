import Verathos.Lib.Streak
import Verathos.Probation.Tracker

/-!
# How an entry leaves probation

A run of the tracker is recorded as a history of passes, of calls that end a streak, and of
migrations. The counter of an entry is the streak of its key in this history, through migrations and
restarts, as long as the processes start from files that hold the entries.

* `LiftsOnlyEarned`: an operation keeps every entry, except that the last pass of a streak of the
  required length drops it.
* `migrateExact_iff`: a migration re-keys exactly the entries that it should when the first
  entry of the address, in the order of the dictionary, is one of them.
* `probation_holds_iff`: both, over all runs.
-/

namespace Verathos.Probation

open Streak Transition

variable {w : World} {saved : Bool} {key k : Key} {epoch : ℤ} {endpoint : String}
  {address : String} {newIndex : ℤ} {newEndpoint : String}

/-! ## What the operations do to the entries -/

@[simp]
theorem entry_save (saved : Bool) (w : World) (k : Key) : (w.save saved).entry k = w.entry k := by
  unfold World.save
  split_ifs <;> rfl

@[simp]
theorem entry_withProbation (probation : OrderedDict Key ProbationState) :
    (w.withProbation probation).entry k = probation.get k := rfl

/-- An entry that is entered, or entered again. -/
def entered (w : World) (key : Key) (epoch : ℤ) (endpoint : String) : ProbationState :=
  match w.entry key with
  | some state =>
    { state with
      consecutivePasses := 0
      endpoint := if endpoint ≠ "" then endpoint else state.endpoint }
  | none =>
    { enteredAtEpoch := epoch
      requiredPasses := w.tracker.requiredPasses
      escalationEpochs := w.tracker.escalationEpochs
      endpoint }

theorem entry_enterProbation :
    (enterProbation saved key epoch endpoint w).entry k =
      if k = key then some (entered w key epoch endpoint) else w.entry k := by
  unfold enterProbation entered
  rw [entry_save, entry_withProbation, OrderedDict.get_set]
  rfl

theorem consecutivePasses_entered : (entered w key epoch endpoint).consecutivePasses = 0 := by
  unfold entered
  split <;> rfl

theorem recordPass_of_none (h : w.entry key = none) : recordPass saved key w = (false, w) := by
  rw [recordPass, h]

variable {state : ProbationState}

theorem entry_recordPass_of_lt (h : w.entry key = some state)
    (hlt : state.consecutivePasses + 1 < state.requiredPasses) :
    (recordPass saved key w).2.entry k =
      if k = key then some { state with consecutivePasses := state.consecutivePasses + 1 }
      else w.entry k := by
  simp only [recordPass, h, ge_iff_le, if_neg (not_le.mpr hlt), entry_save, entry_withProbation,
    OrderedDict.get_set]
  rfl

theorem entry_recordPass_of_le (h : w.entry key = some state)
    (hle : state.requiredPasses ≤ state.consecutivePasses + 1) :
    (recordPass saved key w).2.entry k = if k = key then none else w.entry k := by
  simp only [recordPass, h, ge_iff_le, if_pos hle, entry_save, entry_withProbation,
    OrderedDict.get_erase]
  rfl

theorem entry_recordFailure :
    (recordFailure saved key w).entry k =
      if k = key then (w.entry key).map fun state => { state with consecutivePasses := 0 }
      else w.entry k := by
  unfold recordFailure
  split
  · rename_i h
    split_ifs with hk
    · rw [hk, h]
      rfl
    · rfl
  · rename_i state h
    rw [entry_save, entry_withProbation, OrderedDict.get_set, h]
    rfl

/-! ## Migration -/

theorem firstOther_spec {oldKey : Key} (h : firstOther w address newIndex = some (oldKey, state)) :
    w.entry oldKey = some state ∧ oldKey.1 = address ∧ oldKey.2 ≠ newIndex := by
  have hfound := List.find?_some h
  rw [decide_eq_true_eq] at hfound
  exact ⟨OrderedDict.get_eq_some.mpr (List.mem_of_find?_eq_some h), hfound⟩

theorem exists_firstOther {index : ℤ} (h : w.entry (address, index) = some state)
    (hindex : index ≠ newIndex) : ∃ item, firstOther w address newIndex = some item := by
  rw [← Option.isSome_iff_exists, firstOther, List.find?_isSome]
  exact ⟨_, OrderedDict.get_eq_some.mp h, by simpa using hindex⟩

theorem migrateIndex_eq_true :
    (migrateIndex saved address newIndex newEndpoint w).1 = true ↔
      ¬ w.IsOnProbation (address, newIndex) ∧
        ∃ item, firstOther w address newIndex = some item ∧
          ¬ Differ item.2.endpoint newEndpoint := by
  unfold migrateIndex
  split_ifs with hon
  · simp [hon]
  · split
    · rename_i hnone
      simp [hnone]
    · rename_i oldKey state hfirst
      split_ifs with hdiffer <;> simp [hon, hfirst, hdiffer]

theorem migrateIndex_of_false (h : (migrateIndex saved address newIndex newEndpoint w).1 = false) :
    (migrateIndex saved address newIndex newEndpoint w).2 = w := by
  unfold migrateIndex at h ⊢
  split_ifs at h ⊢
  · rfl
  · split at h
    · rfl
    · split_ifs at h ⊢
      rfl

theorem entry_migrateIndex {item : Key × ProbationState}
    (h : (migrateIndex saved address newIndex newEndpoint w).1 = true)
    (hfirst : firstOther w address newIndex = some item) :
    (migrateIndex saved address newIndex newEndpoint w).2.entry k =
      if k = (address, newIndex) then some item.2 else if k = item.1 then none else w.entry k := by
  obtain ⟨hon, item', hfirst', hdiffer⟩ := migrateIndex_eq_true.mp h
  obtain rfl := Option.some.inj (hfirst.symm.trans hfirst')
  simp only [migrateIndex, if_neg hon, hfirst, if_neg hdiffer, entry_save, entry_withProbation,
    OrderedDict.get_set, OrderedDict.get_erase]
  rfl

/-- Some entry of the address at another index has the endpoint or an unknown one, and the new index
is not on probation. -/
def ShouldMigrate (w : World) (address : String) (newIndex : ℤ) (newEndpoint : String) : Prop :=
  ¬ w.IsOnProbation (address, newIndex) ∧
    ∃ index state, index ≠ newIndex ∧ w.entry (address, index) = some state ∧
      ¬ Differ state.endpoint newEndpoint

/-- The first entry of the address at another index is one to re-key, unless there is none to
re-key. -/
def FirstMatches (w : World) (address : String) (newIndex : ℤ) (newEndpoint : String) : Prop :=
  w.IsOnProbation (address, newIndex) ∨
    (∀ index state, index ≠ newIndex → w.entry (address, index) = some state →
      Differ state.endpoint newEndpoint) ∨
    ∀ item, firstOther w address newIndex = some item → ¬ Differ item.2.endpoint newEndpoint

/-- `migrate_index` re-keys an entry exactly when it should. -/
def MigrateExact (saved : Bool) (address : String) (newIndex : ℤ) (newEndpoint : String)
    (w : World) : Prop :=
  (migrateIndex saved address newIndex newEndpoint w).1 = true ↔
    ShouldMigrate w address newIndex newEndpoint

/-- A migration re-keys one entry of the address whose endpoint does not differ, or nothing. -/
structure Rekeys (saved : Bool) (address : String) (newIndex : ℤ) (newEndpoint : String)
    (w : World) : Prop where
  /-- The entry keeps its state under the new key, and the others stay. -/
  moved : (migrateIndex saved address newIndex newEndpoint w).1 = true →
    ∃ index state, index ≠ newIndex ∧ w.entry (address, index) = some state ∧
      ¬ Differ state.endpoint newEndpoint ∧
      ∀ k, (migrateIndex saved address newIndex newEndpoint w).2.entry k =
        if k = (address, newIndex) then some state
        else if k = (address, index) then none else w.entry k
  kept : (migrateIndex saved address newIndex newEndpoint w).1 = false →
    (migrateIndex saved address newIndex newEndpoint w).2 = w

theorem rekeys : Rekeys saved address newIndex newEndpoint w := by
  refine ⟨fun h => ?_, migrateIndex_of_false⟩
  obtain ⟨-, ⟨⟨_, index⟩, state⟩, hfirst, hdiffer⟩ := migrateIndex_eq_true.mp h
  obtain ⟨hentry, rfl, hindex⟩ := firstOther_spec hfirst
  exact ⟨index, state, hindex, hentry, hdiffer, fun k => entry_migrateIndex h hfirst⟩

theorem migrateExact_iff :
    MigrateExact saved address newIndex newEndpoint w ↔
      FirstMatches w address newIndex newEndpoint := by
  unfold MigrateExact ShouldMigrate FirstMatches
  rw [migrateIndex_eq_true]
  constructor
  · intro h
    by_cases hon : w.IsOnProbation (address, newIndex)
    · exact .inl hon
    · refine .inr ?_
      by_contra! hcontra
      -- some entry should be re-keyed, so the first one is
      obtain ⟨⟨index, state, hindex, hentry, hsame⟩, item, hfirst, hdiffer⟩ := hcontra
      obtain ⟨-, item', hfirst', hsame'⟩ := h.mpr ⟨hon, index, state, hindex, hentry, hsame⟩
      obtain rfl := Option.some.inj (hfirst.symm.trans hfirst')
      exact hsame' hdiffer
  · intro h
    refine and_congr_right fun hon => ⟨?_, ?_⟩
    · rintro ⟨⟨⟨_, index⟩, state⟩, hfirst, hsame⟩
      obtain ⟨hentry, rfl, hindex⟩ := firstOther_spec hfirst
      exact ⟨index, state, hindex, hentry, hsame⟩
    · rintro ⟨index, state, hindex, hentry, hsame⟩
      rcases h with h | h | h
      · exact absurd h hon
      · exact absurd (h index state hindex hentry) hsame
      · obtain ⟨item, hfirst⟩ := exists_firstOther hentry hindex
        exact ⟨item, hfirst, h item hfirst⟩

/-! ## The state file -/

/-- The file holds the entries of the tracker, or is missing while there are none. -/
def World.InSync (w : World) : Prop :=
  w.file.getD [] = w.tracker.probation.entries.map fileRecord

theorem loadRecords_map_fileRecord (requiredPasses escalationEpochs : ℤ)
    (items : List (Key × ProbationState)) (probation : OrderedDict Key ProbationState) :
    loadRecords requiredPasses escalationEpochs (items.map fileRecord) probation =
      items.foldl (fun d item => d.set item.1 item.2) probation := by
  induction items generalizing probation with
  | nil => rfl
  | cons item items ih =>
    rw [List.map_cons, List.foldl_cons, ← ih]
    rfl

theorem entry_restart {requiredPasses escalationEpochs : ℤ} (h : w.InSync) :
    (w.restart requiredPasses escalationEpochs true).entry k = w.entry k := by
  have hload : (w.restart requiredPasses escalationEpochs true).tracker.probation =
      w.tracker.probation := by
    change loadRecords _ _ (w.file.getD []) .empty = _
    rw [show w.file.getD [] = _ from h, loadRecords_map_fileRecord]
    exact OrderedDict.ofList_entries _
  unfold World.entry
  rw [hload]

/-! ## Runs -/

/-- The tracker with the history of its calls, the last one first. -/
structure Tracked where
  world : World
  /-- The calls of `record_pass`, those of `enter_probation` and `record_failure`, and the
  migrations that went through. -/
  history : List (Event Key)

/-- What an operation adds to the history. -/
def Op.event : Op → World → Option (Event Key)
  | .enterProbation _ key _ _, _ => some (.reset key)
  | .recordPass _ key, _ => some (.passed key)
  | .recordFailure _ key, _ => some (.reset key)
  | .migrateIndex saved address newIndex newEndpoint, w =>
    if (Probation.migrateIndex saved address newIndex newEndpoint w).1 then
      (firstOther w address newIndex).map fun item => .moved item.1 (address, newIndex)
    else none
  | .restart _ _ _, _ => none

/-- One operation, recorded. -/
def trackedStep (op : Op) (t : Tracked) : Option Tracked :=
  some { world := t.world.after op, history := (op.event t.world).toList ++ t.history }

/-- A first process, with an empty history. -/
def Tracked.fresh (requiredPasses escalationEpochs : ℤ) : Tracked where
  world := .fresh requiredPasses escalationEpochs
  history := []

/-- The key of an entry after an operation. -/
def Op.keyAfter (op : Op) (w : World) (key : Key) : Key :=
  match op.event w with
  | some (.moved old new) => if key = old then new else key
  | _ => key

/-- A process starts from a file that can be read and holds the entries. -/
def SafeRestart : Op → Tracked → Prop
  | .restart _ _ readable, t => readable = true ∧ t.world.InSync
  | _, _ => True

/-- A process starts from such a file, and a migration looks at an entry that it should re-key. -/
def Meets : Op → Tracked → Prop
  | .migrateIndex _ address newIndex newEndpoint, t =>
    FirstMatches t.world address newIndex newEndpoint
  | op, t => SafeRestart op t

variable {t : Tracked}

theorem Meets.safeRestart {op : Op} (h : Meets op t) : SafeRestart op t := by
  cases op with
  | migrateIndex => trivial
  | _ => exact h

/-- The counter of a key. -/
def World.counter (w : World) (key : Key) : Option ℤ :=
  (w.entry key).map ProbationState.consecutivePasses

theorem counter_eq_some {n : ℤ} :
    w.counter k = some n ↔ ∃ state, w.entry k = some state ∧ state.consecutivePasses = n :=
  Option.map_eq_some_iff

theorem counts_after {op : Op} (hsafe : SafeRestart op t) (h : Counts t.history t.world.counter) :
    Counts ((op.event t.world).toList ++ t.history) (t.world.after op).counter := by
  obtain ⟨w, history⟩ := t
  cases op with
  | enterProbation saved key epoch endpoint =>
    refine h.reset (fun n hn => ?_) fun k hk => ?_
    · obtain ⟨state, hstate, rfl⟩ := counter_eq_some.mp hn
      rw [World.after, entry_enterProbation, if_pos rfl] at hstate
      obtain rfl := Option.some.inj hstate
      exact consecutivePasses_entered
    · rw [World.counter, World.after, entry_enterProbation, if_neg hk]
      rfl
  | recordPass saved key =>
    change Counts (.passed key :: history) (recordPass saved key w).2.counter
    cases hentry : w.entry key with
    | none =>
      rw [recordPass_of_none hentry]
      refine h.passed (fun n hn => ?_) fun k _ => rfl
      rw [World.counter, hentry] at hn
      cases hn
    | some state =>
      by_cases hlt : state.consecutivePasses + 1 < state.requiredPasses
      · refine h.passed (fun n hn => ?_) fun k hk => ?_
        · rw [World.counter, entry_recordPass_of_lt hentry hlt, if_pos rfl] at hn
          exact ⟨_, counter_eq_some.mpr ⟨_, hentry, rfl⟩, (Option.some.inj hn).symm⟩
        · rw [World.counter, entry_recordPass_of_lt hentry hlt, if_neg hk]
          rfl
      · refine h.passed (fun n hn => ?_) fun k hk => ?_
        · rw [World.counter, entry_recordPass_of_le hentry (not_lt.mp hlt), if_pos rfl] at hn
          cases hn
        · rw [World.counter, entry_recordPass_of_le hentry (not_lt.mp hlt), if_neg hk]
          rfl
  | recordFailure saved key =>
    refine h.reset (fun n hn => ?_) fun k hk => ?_
    · obtain ⟨state, hstate, rfl⟩ := counter_eq_some.mp hn
      rw [World.after, entry_recordFailure, if_pos rfl] at hstate
      obtain ⟨_, -, rfl⟩ := Option.map_eq_some_iff.mp hstate
      rfl
    · rw [World.counter, World.after, entry_recordFailure, if_neg hk]
      rfl
  | migrateIndex saved address newIndex newEndpoint =>
    rw [World.after, Op.event]
    by_cases hgo : (migrateIndex saved address newIndex newEndpoint w).1 = true
    · obtain ⟨-, item, hfirst, -⟩ := migrateIndex_eq_true.mp hgo
      rw [if_pos hgo, hfirst]
      refine h.moved ?_ fun k n hk hn => ?_
      · rw [World.counter, entry_migrateIndex hgo hfirst, if_pos rfl, World.counter,
          (firstOther_spec hfirst).1]
      · rw [World.counter, entry_migrateIndex hgo hfirst, if_neg hk] at hn
        split_ifs at hn
        · cases hn
        · exact hn
    · rw [if_neg hgo, migrateIndex_of_false (Bool.not_eq_true _ ▸ hgo)]
      exact h
  | restart requiredPasses escalationEpochs readable =>
    obtain ⟨rfl, hsync⟩ := hsafe
    refine h.mono fun k n hn => ?_
    rw [World.counter, World.after, entry_restart hsync] at hn
    exact hn

theorem counts_of_reachable {requiredPasses escalationEpochs : ℤ}
    (ht : Reachable trackedStep SafeRestart (.fresh requiredPasses escalationEpochs) t) :
    Counts t.history t.world.counter := by
  refine ht.invariant (I := fun t => Counts t.history t.world.counter) (.empty fun k => rfl) ?_
  intro op t t' h hsafe hstep
  obtain rfl := Option.some.inj hstep
  exact counts_after hsafe h

/-! ## Leaving probation -/

/-- The state of an entry without its counter and its endpoint. -/
def SameEntry (state state' : ProbationState) : Prop :=
  state'.enteredAtEpoch = state.enteredAtEpoch ∧ state'.requiredPasses = state.requiredPasses ∧
    state'.escalationEpochs = state.escalationEpochs

/-- An operation keeps every entry under its key or the one it moves to, or it is the pass that
completes a streak of the required length and drops the entry. -/
def LiftsOnlyEarned (op : Op) (t : Tracked) : Prop :=
  ∀ key state, t.world.entry key = some state →
    (∃ state', (t.world.after op).entry (op.keyAfter t.world key) = some state' ∧
      SameEntry state state') ∨
    (∃ saved, op = .recordPass saved key) ∧ state.requiredPasses - 1 ≤ streak t.history key ∧
      (t.world.after op).entry key = none

/-- An entry leaves only by the last pass of a streak. -/
theorem liftsOnlyEarned {op : Op} (hsafe : SafeRestart op t) (h : Counts t.history t.world.counter) :
    LiftsOnlyEarned op t := by
  obtain ⟨w, history⟩ := t
  intro key state hentry
  cases op with
  | enterProbation saved key' epoch endpoint =>
    refine .inl ?_
    change ∃ state', (enterProbation saved key' epoch endpoint w).entry key = _ ∧ _
    rw [entry_enterProbation]
    split_ifs with hkey
    · subst hkey
      refine ⟨_, rfl, ?_⟩
      simp only [entered, hentry, SameEntry, and_self]
    · exact ⟨state, hentry, rfl, rfl, rfl⟩
  | recordPass saved key' =>
    change (∃ state', (recordPass saved key' w).2.entry key = _ ∧ _) ∨ _
    by_cases hkey : key = key'
    · subst hkey
      by_cases hlt : state.consecutivePasses + 1 < state.requiredPasses
      · rw [entry_recordPass_of_lt hentry hlt, if_pos rfl]
        exact .inl ⟨_, rfl, rfl, rfl, rfl⟩
      · have hstreak := h key _ (counter_eq_some.mpr ⟨state, hentry, rfl⟩)
        refine .inr ⟨⟨saved, rfl⟩, ?_, ?_⟩
        · dsimp only at hstreak ⊢
          omega
        · exact (entry_recordPass_of_le hentry (not_lt.mp hlt)).trans (if_pos rfl)
    · refine .inl ⟨state, ?_, rfl, rfl, rfl⟩
      cases hentry' : w.entry key' with
      | none => rw [recordPass_of_none hentry', hentry]
      | some state' =>
        by_cases hlt : state'.consecutivePasses + 1 < state'.requiredPasses
        · rw [entry_recordPass_of_lt hentry' hlt, if_neg hkey, hentry]
        · rw [entry_recordPass_of_le hentry' (not_lt.mp hlt), if_neg hkey, hentry]
  | recordFailure saved key' =>
    refine .inl ?_
    change ∃ state', (recordFailure saved key' w).entry key = _ ∧ _
    rw [entry_recordFailure]
    split_ifs with hkey
    · subst hkey
      rw [hentry]
      exact ⟨_, rfl, rfl, rfl, rfl⟩
    · exact ⟨state, hentry, rfl, rfl, rfl⟩
  | migrateIndex saved address newIndex newEndpoint =>
    refine .inl ⟨state, ?_, rfl, rfl, rfl⟩
    rw [World.after, Op.keyAfter, Op.event]
    by_cases hgo : (migrateIndex saved address newIndex newEndpoint w).1 = true
    · obtain ⟨hon, item, hfirst, -⟩ := migrateIndex_eq_true.mp hgo
      rw [if_pos hgo, hfirst]
      simp only [Option.map_some]
      split_ifs with hkey
      · rw [entry_migrateIndex hgo hfirst, if_pos rfl, ← (firstOther_spec hfirst).1, ← hkey, hentry]
      · -- the new key was free, so the entry stands under another one
        have hnew : key ≠ (address, newIndex) := by
          rintro rfl
          exact hon (by rw [World.IsOnProbation, hentry, Option.isSome_some])
        rw [entry_migrateIndex hgo hfirst, if_neg hnew, if_neg hkey, hentry]
    · rw [if_neg hgo, migrateIndex_of_false (Bool.not_eq_true _ ▸ hgo), hentry]
  | restart requiredPasses escalationEpochs readable =>
    obtain ⟨rfl, hsync⟩ := hsafe
    exact .inl ⟨state, (entry_restart hsync).trans hentry, rfl, rfl, rfl⟩

/-- `migrate_index` re-keys exactly the entries that it should; other operations are free. -/
def MigratesExactly : Op → Tracked → Prop
  | .migrateIndex saved address newIndex newEndpoint, t =>
    MigrateExact saved address newIndex newEndpoint t.world
  | _, _ => True

/-- In every run whose steps meet the condition, probation is only lifted by earning it and
migrations re-key exactly the entries that they should. In every state, a migration does so exactly
when it meets the condition; it never re-keys an entry with a known and different endpoint. And
probation is only lifted by earning it whatever the migrations look at. -/
theorem probation_holds_iff (requiredPasses escalationEpochs : ℤ) :
    (∀ t, Reachable trackedStep Meets (.fresh requiredPasses escalationEpochs) t →
      ∀ op, Meets op t → LiftsOnlyEarned op t ∧ MigratesExactly op t) ∧
    (∀ t, Reachable trackedStep SafeRestart (.fresh requiredPasses escalationEpochs) t →
      ∀ op, SafeRestart op t → LiftsOnlyEarned op t) ∧
    ∀ (w : World) (saved : Bool) (address : String) (newIndex : ℤ) (newEndpoint : String),
      (MigrateExact saved address newIndex newEndpoint w ↔
        FirstMatches w address newIndex newEndpoint) ∧
      Rekeys saved address newIndex newEndpoint w := by
  refine ⟨fun t ht op hmeets => ⟨?_, ?_⟩, fun t ht op hsafe => ?_, fun w saved address newIndex
    newEndpoint => ⟨migrateExact_iff, rekeys⟩⟩
  · exact liftsOnlyEarned hmeets.safeRestart
      (counts_of_reachable (ht.mono fun op t => Meets.safeRestart))
  · cases op with
    | migrateIndex => exact migrateExact_iff.mpr hmeets
    | _ => trivial
  · exact liftsOnlyEarned hsafe (counts_of_reachable ht)

/-- Two entries of one address with different endpoints. -/
def twoEndpoints : List Op :=
  [.enterProbation true ("5F", 0) 1 "http://a", .enterProbation true ("5F", 1) 1 "http://b"]

/-- The server of the second entry registers again. Its entry should follow, but the first entry of
the address has another endpoint and ends the search. -/
theorem migrateIndex_misses_second :
    ∃ t, Transition.run trackedStep twoEndpoints (.fresh 3 5) = some t ∧
      ShouldMigrate t.world "5F" 2 "http://b" ∧
      (migrateIndex true "5F" 2 "http://b" t.world).1 = false := by
  refine ⟨_, rfl, ⟨by decide, 1, _, by decide, rfl, by decide⟩, by decide⟩

/-- A run in which the last of two passes lifts probation. -/
theorem probation_holds_iff_twoPasses :
    ∃ t, Transition.run trackedStep
        [.enterProbation true ("5F", 0) 1 "http://a", .recordPass true ("5F", 0)] (.fresh 2 5) =
          some t ∧
      LiftsOnlyEarned (.recordPass true ("5F", 0)) t ∧
      (recordPass true ("5F", 0) t.world).1 = true := by
  refine ⟨_, rfl, ?_, by decide⟩
  have henter : ∀ t, Meets (.enterProbation true ("5F", 0) 1 "http://a") t := fun _ => trivial
  have hpass : ∀ t, Meets (.recordPass true ("5F", 0)) t := fun _ => trivial
  exact ((probation_holds_iff 2 5).1 _
    (.step (.step .refl (henter _) rfl) (hpass _) rfl) _ (hpass _)).1

end Verathos.Probation
