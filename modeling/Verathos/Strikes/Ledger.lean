import Verathos.Lib.Transition
import Verathos.Strikes.Persistence

/-!
# The strike ledger over whole runs

The calls of a strike tracker in any order, restarts included. Beside the tracker runs a record of
what was reported: for every entry the failed epochs since it was opened, and the clean epochs since
the last failure that counted. The tracker decides from its own sets alone; the record says what
these sets stand for.

* `Op` and `World.after`: a call and the world after it. A call that raises leaves the tracker as
  it is;
* `Effect` and `effect_after`: everything that one call can do;
* `World.Valid`: the invariant of every reachable world;
* `strikes_reachable`: what holds of every entry, when a penalty and an entry end, and what a
  restart and a migration keep.
-/

namespace Verathos.Strikes

/-- A call of the tracker; `restart` writes the state and reads it in a new process. -/
inductive Op
  | configure (failures clean : ℤ)
  | recordFailure (key : Key) (epoch : ℤ) (endpoint : String) (alreadyOnProbation : Bool)
  | recordCleanPass (key : Key) (epoch : ℤ)
  | migrateIndex (address : String) (newIndex : ℤ) (newEndpoint : String)
  | clear (key : Key)
  | clearAll
  | restart (failures clean : ℤ)

/-- Addresses are not empty and indices are not negative. -/
def Op.Admissible : Op → Prop
  | .recordFailure key _ _ _ => key.1 ≠ "" ∧ 0 ≤ key.2
  | .recordCleanPass key _ => key.1 ≠ "" ∧ 0 ≤ key.2
  | .migrateIndex address newIndex _ => address ≠ "" ∧ 0 ≤ newIndex
  | .clear key => key.1 ≠ "" ∧ 0 ≤ key.2
  | _ => True

/-- The epochs that were reported for an entry. -/
structure Trail where
  failures : Finset ℤ := ∅
  /-- The clean passes since the last failure that counted. -/
  passes : Finset ℤ := ∅

/-- The tracker with the reports behind its entries. -/
structure World where
  tracker : HardProofStrikeTracker
  trail : Key → Trail

/-- A new failure, or any failure on probation, makes earlier clean passes void. -/
def Trail.fail (epoch : ℤ) (alreadyOnProbation : Bool) (trail : Trail) : Trail :=
  if alreadyOnProbation ∨ epoch ∉ trail.failures then
    { failures := insert epoch trail.failures, passes := ∅ }
  else trail

section

variable (lc : LowerCase)

/-- The tracker after a call that returns. -/
def Op.run (t : HardProofStrikeTracker) : Op → Except Failure HardProofStrikeTracker
  | .configure failures clean => Strikes.configure failures clean t
  | .recordFailure key epoch endpoint alreadyOnProbation =>
    (Strikes.recordFailure lc key epoch endpoint alreadyOnProbation t).map Prod.snd
  | .recordCleanPass key epoch => (Strikes.recordCleanPass lc key epoch t).map Prod.snd
  | .migrateIndex address newIndex newEndpoint =>
    .ok (Strikes.migrateIndex lc address newIndex newEndpoint t).2
  | .clear key => .ok (Strikes.clear lc key t).2
  | .clearAll => .ok (Strikes.clearAll t).2
  | .restart failures clean => fromJson lc (toJson t) failures clean

/-- The tracker after a call. -/
def Op.after (t : HardProofStrikeTracker) (op : Op) : HardProofStrikeTracker :=
  match op.run lc t with
  | .ok t' => t'
  | .error _ => t

/-- The key under which an entry stands after a call that does not remove it. -/
def Op.relocate (t : HardProofStrikeTracker) (op : Op) (key : Key) : Key :=
  match op with
  | .migrateIndex address newIndex newEndpoint =>
    let newKey := canonicalKey lc (address, newIndex)
    match migrationSource newKey newEndpoint t with
    | some (oldKey, _) => if key = oldKey then newKey else key
    | none => key
  | _ => key

/-- The reports after a call, before those of removed entries are dropped. -/
def Op.report (t : HardProofStrikeTracker) (trail : Key → Trail) : Op → Key → Trail
  | .recordFailure key epoch _ alreadyOnProbation =>
    if epoch < 0 then trail
    else
      Function.update trail (canonicalKey lc key)
        ((trail (canonicalKey lc key)).fail epoch alreadyOnProbation)
  | .recordCleanPass key epoch =>
    if epoch < 0 then trail
    else
      Function.update trail (canonicalKey lc key)
        { trail (canonicalKey lc key) with
          passes := insert epoch (trail (canonicalKey lc key)).passes }
  | .migrateIndex address newIndex newEndpoint =>
    let newKey := canonicalKey lc (address, newIndex)
    match migrationSource newKey newEndpoint t with
    | some (oldKey, _) => Function.update trail newKey (trail oldKey)
    | none => trail
  | _ => trail

/-- The world after a call. -/
def World.after (w : World) (op : Op) : World where
  tracker := op.after lc w.tracker
  trail key :=
    if ((op.after lc w.tracker).states.get key).isSome then op.report lc w.tracker w.trail key
    else {}

/-- The world of a new tracker. -/
def World.start (t : HardProofStrikeTracker) : World where
  tracker := t
  trail _ := {}

/-- A world that calls lead to, from a new tracker with any thresholds. -/
def Reachable (w : World) : Prop :=
  ∃ failures clean t, create failures clean = .ok t ∧
    Transition.Reachable (fun op w => some (World.after lc w op)) (fun op _ => op.Admissible)
      (World.start t) w

/-! ## One call -/

/-- The call is of a kind that may leave the tracker as it is. -/
def Op.Idle (t : HardProofStrikeTracker) : Op → Prop
  | .recordFailure _ epoch _ _ => epoch < 0
  | .migrateIndex address newIndex newEndpoint =>
    migrationSource (canonicalKey lc (address, newIndex)) newEndpoint t = none
  | .clear _ => False
  | .clearAll => False
  | _ => True

/-- Everything that a call can do to a tracker. -/
inductive Effect (t : HardProofStrikeTracker) : Op → HardProofStrikeTracker → Prop
  | unchanged {op : Op} (hidle : op.Idle lc t) : Effect t op t
  | thresholds {op : Op} {t' : HardProofStrikeTracker} {failures clean : ℤ}
      (hop : op = .configure failures clean ∨ op = .restart failures clean)
      (hrange : ThresholdsInRange failures clean)
      (hfailures : t'.failureEpochsForPenalty = failures)
      (hclean : t'.cleanHardAuditEpochsForReset = clean)
      (hget : ∀ key, t'.states.get key = (t.states.get key).map (·.applyThreshold failures)) :
      Effect t op t'
  | failed {key : Key} {epoch : ℤ} {endpoint : String} {alreadyOnProbation : Bool}
      (hepoch : 0 ≤ epoch) :
      Effect t (.recordFailure key epoch endpoint alreadyOnProbation)
        (t.put (canonicalKey lc key) (((t.states.get (canonicalKey lc key)).getD {}).recordFailure
          t.failureEpochsForPenalty epoch endpoint alreadyOnProbation))
  | passed {key : Key} {epoch : ℤ} {state : HardProofStrikeState}
      (hget : t.states.get (canonicalKey lc key) = some state) (hepoch : 0 ≤ epoch)
      (hpenalty : state.penaltyRequired = false)
      (hlater : ∀ failed ∈ state.failureEpochs, failed < epoch) :
      Effect t (.recordCleanPass key epoch)
        (t.put (canonicalKey lc key)
          { state with cleanEpochs := insert epoch state.cleanEpochs })
  | lapsed {key : Key} {epoch : ℤ} {state : HardProofStrikeState}
      (hget : t.states.get (canonicalKey lc key) = some state) (hepoch : 0 ≤ epoch)
      (hpenalty : state.penaltyRequired = false)
      (hlater : ∀ failed ∈ state.failureEpochs, failed < epoch)
      (hcard : t.cleanHardAuditEpochsForReset ≤ (insert epoch state.cleanEpochs).card) :
      Effect t (.recordCleanPass key epoch) (t.drop (canonicalKey lc key))
  | moved {address : String} {newIndex : ℤ} {newEndpoint : String} {oldKey : Key}
      {state : HardProofStrikeState}
      (hsource : migrationSource (canonicalKey lc (address, newIndex)) newEndpoint t =
        some (oldKey, state)) :
      Effect t (.migrateIndex address newIndex newEndpoint)
        ((t.drop oldKey).put (canonicalKey lc (address, newIndex)) (state.withEndpoint newEndpoint))
  | cleared {key : Key} : Effect t (.clear key) (t.drop (canonicalKey lc key))
  | allCleared : Effect t .clearAll { t with states := .empty }

end

section

variable {lc : LowerCase} {t : HardProofStrikeTracker}

variable {state : HardProofStrikeState}

theorem migrationSource_eq_some {newKey oldKey : Key} {newEndpoint : String}
    (h : migrationSource newKey newEndpoint t = some (oldKey, state)) :
    t.states.get newKey = none ∧ t.states.get oldKey = some state ∧ oldKey.1 = newKey.1 ∧
      oldKey ≠ newKey := by
  unfold migrationSource at h
  split_ifs at h with hsome
  rw [Option.not_isSome_iff_eq_none] at hsome
  have hmem : (oldKey, state) ∈ migrationCandidates newKey newEndpoint t := by
    split at h
    · next item hitem =>
      rw [hitem, ← Option.some.inj h]
      exact List.mem_singleton_self _
    · exact absurd h (by simp)
  rw [migrationCandidates, List.mem_filter, decide_eq_true_eq] at hmem
  obtain ⟨hentry, haddress, hindex, -⟩ := hmem
  exact ⟨hsome, OrderedDict.get_eq_some.mpr hentry, haddress, fun heq => hindex (by rw [heq])⟩

theorem create_eq_ok {failures clean : ℤ} (h : create failures clean = .ok t) :
    ThresholdsInRange failures clean ∧ t = ⟨.empty, failures, clean⟩ := by
  unfold create configure at h
  split_ifs at h with hfailures hclean
  exact ⟨⟨hfailures, hclean⟩, (Except.ok.inj h).symm⟩

variable {t' : HardProofStrikeTracker}

theorem configure_eq_ok {failures clean : ℤ} (h : configure failures clean t = .ok t') :
    ThresholdsInRange failures clean ∧
      t' = ⟨t.states.mapValues (·.applyThreshold failures), failures, clean⟩ := by
  unfold configure at h
  split_ifs at h with hfailures hclean
  exact ⟨⟨hfailures, hclean⟩, (Except.ok.inj h).symm⟩

theorem effect_after (ht : t.Valid lc) (op : Op) : Effect lc t op (op.after lc t) := by
  unfold Op.after
  cases op with
  | configure failures clean =>
    cases hrun : Op.run lc t (.configure failures clean) with
    | error e => exact .unchanged trivial
    | ok t' =>
      obtain ⟨hrange, rfl⟩ := configure_eq_ok hrun
      exact .thresholds (Or.inl rfl) hrange rfl rfl fun key => OrderedDict.get_mapValues _ _ key
  | recordFailure key epoch endpoint alreadyOnProbation =>
    by_cases hepoch : epoch < 0
    · rw [Op.run, recordFailure, if_pos hepoch]
      exact .unchanged hepoch
    · rw [Op.run, recordFailure, if_neg hepoch]
      exact .failed (not_lt.mp hepoch)
  | recordCleanPass key epoch =>
    rw [Op.run, recordCleanPass]
    cases hget : t.states.get (canonicalKey lc key) with
    | none => exact .unchanged trivial
    | some state =>
      dsimp only
      split_ifs with hpenalty hepoch hlater hcard
      · exact .unchanged trivial
      · exact .unchanged trivial
      · exact .unchanged trivial
      all_goals
        rw [not_or, Bool.not_eq_true] at hpenalty
        push Not at hlater
      · exact .passed hget (not_lt.mp hepoch) hpenalty.1 hlater
      · exact .lapsed hget (not_lt.mp hepoch) hpenalty.1 hlater (not_lt.mp hcard)
  | migrateIndex address newIndex newEndpoint =>
    rw [Op.run, migrateIndex]
    dsimp only
    cases hsource : migrationSource (canonicalKey lc (address, newIndex)) newEndpoint t with
    | none => exact .unchanged hsource
    | some item => exact .moved hsource
  | clear key => exact .cleared
  | clearAll => exact .allCleared
  | restart failures clean =>
    cases hrun : Op.run lc t (.restart failures clean) with
    | error e => exact .unchanged trivial
    | ok t' =>
      -- the new process took the thresholds, so it reads the whole text
      obtain ⟨tracker, hcreate, -⟩ := bind_eq_ok.mp hrun
      have hrange := (create_eq_ok hcreate).1
      obtain ⟨t₁, hread, hfailures, hclean, hget⟩ := fromJson_toJson ht hrange
      obtain rfl : t₁ = t' := Except.ok.inj (hread.symm.trans hrun)
      exact .thresholds (Or.inr rfl) hrange hfailures hclean hget

/-! ## The tracker stays valid -/

theorem HardProofStrikeTracker.get_put (t : HardProofStrikeTracker) (key key' : Key)
    (state : HardProofStrikeState) :
    (t.put key state).states.get key' = if key' = key then some state else t.states.get key' :=
  OrderedDict.get_set _ _ _ _

theorem HardProofStrikeTracker.get_drop (t : HardProofStrikeTracker) (key key' : Key) :
    (t.drop key).states.get key' = if key' = key then none else t.states.get key' :=
  OrderedDict.get_erase _ _ _

variable (endpoint : String)

@[simp]
theorem withEndpoint_failureEpochs (state : HardProofStrikeState) :
    (state.withEndpoint endpoint).failureEpochs = state.failureEpochs := by
  unfold HardProofStrikeState.withEndpoint
  split_ifs <;> rfl

@[simp]
theorem withEndpoint_cleanEpochs (state : HardProofStrikeState) :
    (state.withEndpoint endpoint).cleanEpochs = state.cleanEpochs := by
  unfold HardProofStrikeState.withEndpoint
  split_ifs <;> rfl

@[simp]
theorem withEndpoint_penaltyRequired (state : HardProofStrikeState) :
    (state.withEndpoint endpoint).penaltyRequired = state.penaltyRequired := by
  unfold HardProofStrikeState.withEndpoint
  split_ifs <;> rfl

variable {threshold : ℤ}

theorem HardProofStrikeState.Valid.withEndpoint (h : state.Valid threshold) (endpoint : String) :
    (state.withEndpoint endpoint).Valid threshold where
  nonempty := by simpa using h.nonempty
  nonneg := by simpa using h.nonneg
  later := by simpa using h.later
  penalty := by simpa using h.penalty

theorem recordFailure_epochs (threshold epoch : ℤ) (endpoint : String) (alreadyOnProbation : Bool)
    (state : HardProofStrikeState) :
    let state' := state.recordFailure threshold epoch endpoint alreadyOnProbation
    state'.failureEpochs = insert epoch state.failureEpochs ∧
      state'.cleanEpochs =
        if alreadyOnProbation ∨ epoch ∉ state.failureEpochs then ∅ else state.cleanEpochs := by
  unfold HardProofStrikeState.recordFailure
  cases alreadyOnProbation with
  | true => simp [HardProofStrikeState.fail]
  | false =>
    by_cases hmem : epoch ∈ state.failureEpochs
    · simp [hmem]
    · simp [HardProofStrikeState.fail, hmem]

theorem recordFailure_penaltyRequired
    (hpenalty : threshold ≤ state.failureEpochs.card → state.penaltyRequired = true) (epoch : ℤ)
    (endpoint : String) (alreadyOnProbation : Bool) :
    let state' := state.recordFailure threshold epoch endpoint alreadyOnProbation
    (state.penaltyRequired = true → state'.penaltyRequired = true) ∧
      (threshold ≤ state'.failureEpochs.card → state'.penaltyRequired = true) := by
  unfold HardProofStrikeState.recordFailure
  cases alreadyOnProbation with
  | true => simp
  | false =>
    by_cases hmem : epoch ∈ state.failureEpochs
    · simpa [hmem] using hpenalty
    · simp only [withEndpoint_failureEpochs, hmem, Bool.false_eq_true, if_false]
      rw [applyThreshold_penaltyRequired, applyThreshold_failureEpochs]
      refine ⟨fun h => Or.inr ?_, Or.inl⟩
      simpa [HardProofStrikeState.fail] using h

theorem valid_recordFailure (hthreshold : 1 ≤ threshold) (h : state.Valid threshold ∨ state = {})
    {epoch : ℤ} (hepoch : 0 ≤ epoch) (endpoint : String) (alreadyOnProbation : Bool) :
    (state.recordFailure threshold epoch endpoint alreadyOnProbation).Valid threshold := by
  obtain ⟨hfailures, hclean⟩ :=
    recordFailure_epochs threshold epoch endpoint alreadyOnProbation state
  have hnonneg : ∀ failed ∈ state.failureEpochs, 0 ≤ failed := by
    rcases h with h | rfl
    · exact h.nonneg
    · simp
  have hpenalty : threshold ≤ state.failureEpochs.card → state.penaltyRequired = true := by
    rcases h with h | rfl
    · exact h.penalty
    · intro hle
      simp at hle
      omega
  refine ⟨?_, ?_, ?_, (recordFailure_penaltyRequired hpenalty epoch endpoint alreadyOnProbation).2⟩
  · rw [hfailures]
    exact Finset.insert_nonempty _ _
  · rw [hfailures]
    intro failed hfailed
    rcases Finset.mem_insert.mp hfailed with rfl | hfailed
    · exact hepoch
    · exact hnonneg failed hfailed
  · rw [hfailures, hclean]
    split_ifs with hnew
    · simp
    · -- a repeated failure changes no epochs
      rw [not_or, not_not] at hnew
      rw [Finset.insert_eq_of_mem hnew.2]
      rcases h with h | rfl
      · exact h.later
      · simp

variable {key : Key}

theorem keyValid_canonicalKey (h : key.1 ≠ "" ∧ 0 ≤ key.2) :
    KeyValid lc (canonicalKey lc key) where
  lower := lc.lower_lower key.1
  nonempty := lc.lower_ne_empty key.1 h.1
  nonneg := h.2

theorem HardProofStrikeTracker.Valid.put (ht : t.Valid lc) (hkey : KeyValid lc key)
    (hstate : state.Valid t.failureEpochsForPenalty) : (t.put key state).Valid lc where
  thresholds := ht.thresholds
  key key' state' hget := by
    rw [HardProofStrikeTracker.get_put] at hget
    split_ifs at hget with heq
    · rw [heq]
      exact hkey
    · exact ht.key key' state' hget
  state key' state' hget := by
    rw [HardProofStrikeTracker.get_put] at hget
    split_ifs at hget with heq
    · rw [← Option.some.inj hget]
      exact hstate
    · exact ht.state key' state' hget

theorem HardProofStrikeTracker.Valid.drop (ht : t.Valid lc) (key : Key) :
    (t.drop key).Valid lc where
  thresholds := ht.thresholds
  key key' state' hget := by
    rw [HardProofStrikeTracker.get_drop] at hget
    split_ifs at hget with heq
    exact ht.key key' state' hget
  state key' state' hget := by
    rw [HardProofStrikeTracker.get_drop] at hget
    split_ifs at hget with heq
    exact ht.state key' state' hget

variable {op : Op}

theorem Effect.valid (ht : t.Valid lc) (hop : op.Admissible) (h : Effect lc t op t') :
    t'.Valid lc := by
  cases h with
  | unchanged => exact ht
  | thresholds _ hrange hfailures hclean hget =>
    refine ⟨by rw [hfailures, hclean]; exact hrange, fun key state hstate => ?_,
      fun key state hstate => ?_⟩
    all_goals
      rw [hget, Option.map_eq_some_iff] at hstate
      obtain ⟨old, hold, rfl⟩ := hstate
    · exact ht.key key old hold
    · rw [hfailures]
      exact (ht.state key old hold).applyThreshold
  | @failed key epoch endpoint alreadyOnProbation hepoch =>
    refine ht.put (keyValid_canonicalKey hop) ?_
    refine valid_recordFailure ht.thresholds.1.1 ?_ hepoch endpoint alreadyOnProbation
    cases hget : t.states.get (canonicalKey lc key) with
    | none => exact Or.inr rfl
    | some state => exact Or.inl (ht.state _ state hget)
  | @passed key epoch state hget hepoch hpenalty hlater =>
    have hstate := ht.state _ state hget
    refine ht.put (keyValid_canonicalKey hop) ⟨hstate.nonempty, hstate.nonneg, ?_, hstate.penalty⟩
    intro clean hclean failed hfailed
    rcases Finset.mem_insert.mp hclean with rfl | hclean
    · exact hlater failed hfailed
    · exact hstate.later clean hclean failed hfailed
  | lapsed => exact ht.drop _
  | @moved address newIndex newEndpoint oldKey state hsource =>
    obtain ⟨-, hget, -⟩ := migrationSource_eq_some hsource
    exact (ht.drop oldKey).put (keyValid_canonicalKey hop)
      ((ht.state oldKey state hget).withEndpoint newEndpoint)
  | cleared => exact ht.drop _
  | allCleared =>
    refine ⟨ht.thresholds, fun key state hget => ?_, fun key state hget => ?_⟩ <;>
      exact absurd hget (by simp)

/-! ## The reports behind the epochs -/

/-- The tracker is valid, the failures of an entry are those that were reported since it was opened,
and its clean epochs were reported since the last failure that counted. -/
structure World.Valid (lc : LowerCase) (w : World) : Prop where
  tracker : w.tracker.Valid lc
  failures : ∀ key state, w.tracker.states.get key = some state →
    (w.trail key).failures = state.failureEpochs
  passes : ∀ key state, w.tracker.states.get key = some state →
    state.cleanEpochs ⊆ (w.trail key).passes
  closed : ∀ key, w.tracker.states.get key = none → w.trail key = {}

/-- The reports are those behind a state. -/
def Backs (trail : Trail) (state : HardProofStrikeState) : Prop :=
  trail.failures = state.failureEpochs ∧ state.cleanEpochs ⊆ trail.passes

theorem Backs.fail {trail : Trail} (h : Backs trail state) (threshold epoch : ℤ) (endpoint : String)
    (alreadyOnProbation : Bool) :
    Backs (trail.fail epoch alreadyOnProbation)
      (state.recordFailure threshold epoch endpoint alreadyOnProbation) := by
  obtain ⟨hfailures, hclean⟩ :=
    recordFailure_epochs threshold epoch endpoint alreadyOnProbation state
  unfold Backs Trail.fail
  rw [hfailures, hclean, h.1]
  by_cases hnew : alreadyOnProbation = true ∨ epoch ∉ state.failureEpochs
  · simp [hnew]
  · rw [if_neg hnew, if_neg hnew]
    rw [not_or, not_not] at hnew
    rw [Finset.insert_eq_of_mem hnew.2]
    exact h

variable {w : World}

theorem World.Valid.backs (hw : w.Valid lc) (hget : w.tracker.states.get key = some state) :
    Backs (w.trail key) state :=
  ⟨hw.failures key state hget, hw.passes key state hget⟩

theorem World.Valid.backs_getD (hw : w.Valid lc) (key : Key) :
    Backs (w.trail key) ((w.tracker.states.get key).getD {}) := by
  cases hget : w.tracker.states.get key with
  | none =>
    rw [hw.closed key hget]
    exact ⟨rfl, Finset.Subset.refl _⟩
  | some state => exact hw.backs hget

theorem Op.Idle.report (hidle : op.Idle lc t) {trail : Key → Trail} (h : Backs (trail key) state) :
    Backs (op.report lc t trail key) state := by
  cases op with
  | recordFailure key' epoch endpoint alreadyOnProbation =>
    have hepoch : epoch < 0 := hidle
    rw [Op.report, if_pos hepoch]
    exact h
  | recordCleanPass key' epoch =>
    rw [Op.report]
    split_ifs with hepoch
    · exact h
    · rw [Function.update_apply]
      split_ifs with heq
      · subst heq
        exact ⟨h.1, h.2.trans (Finset.subset_insert _ _)⟩
      · exact h
  | migrateIndex address newIndex newEndpoint =>
    simp only [Op.Idle] at hidle
    simp only [Op.report, hidle]
    exact h
  | configure => exact h
  | clear => exact h
  | clearAll => exact h
  | restart => exact h

theorem Effect.backs (hw : w.Valid lc) (h : Effect lc w.tracker op t')
    (hstate : t'.states.get key = some state) :
    Backs (op.report lc w.tracker w.trail key) state := by
  cases h with
  | unchanged hidle => exact hidle.report (hw.backs hstate)
  | thresholds hop _ _ _ hget =>
    rw [hget, Option.map_eq_some_iff] at hstate
    obtain ⟨old, hold, rfl⟩ := hstate
    have hbacks := hw.backs hold
    rcases hop with rfl | rfl <;>
      exact ⟨by simpa [Op.report] using hbacks.1, by simpa [Op.report] using hbacks.2⟩
  | failed hepoch =>
    rw [HardProofStrikeTracker.get_put] at hstate
    rw [Op.report, if_neg (not_lt.mpr hepoch), Function.update_apply]
    split_ifs at hstate ⊢ with heq
    · rw [← Option.some.inj hstate]
      exact (hw.backs_getD _).fail _ _ _ _
    · exact hw.backs hstate
  | passed hget hepoch _ _ =>
    rw [HardProofStrikeTracker.get_put] at hstate
    rw [Op.report, if_neg (not_lt.mpr hepoch), Function.update_apply]
    split_ifs at hstate ⊢ with heq
    · rw [← Option.some.inj hstate]
      have hbacks := hw.backs hget
      exact ⟨hbacks.1, Finset.insert_subset_insert _ hbacks.2⟩
    · exact hw.backs hstate
  | lapsed _ hepoch _ _ _ =>
    rw [HardProofStrikeTracker.get_drop] at hstate
    rw [Op.report, if_neg (not_lt.mpr hepoch), Function.update_apply]
    split_ifs at hstate ⊢ with heq
    exact hw.backs hstate
  | moved hsource =>
    obtain ⟨-, hget, -, -⟩ := migrationSource_eq_some hsource
    rw [HardProofStrikeTracker.get_put, HardProofStrikeTracker.get_drop] at hstate
    simp only [Op.report, hsource]
    rw [Function.update_apply]
    split_ifs at hstate ⊢ with hnew hold
    · rw [← Option.some.inj hstate]
      have hbacks := hw.backs hget
      exact ⟨by simpa using hbacks.1, by simpa using hbacks.2⟩
    · exact hw.backs hstate
  | cleared =>
    rw [HardProofStrikeTracker.get_drop] at hstate
    split_ifs at hstate with heq
    exact hw.backs hstate
  | allCleared => exact absurd hstate (by simp)

theorem World.Valid.after (hw : w.Valid lc) (hop : op.Admissible) : (w.after lc op).Valid lc := by
  have heffect := effect_after hw.tracker op
  have hbacks : ∀ key state, (op.after lc w.tracker).states.get key = some state →
      Backs ((w.after lc op).trail key) state := by
    intro key state hget
    have hsome : ((op.after lc w.tracker).states.get key).isSome := by simp [hget]
    simp only [World.after, if_pos hsome]
    exact heffect.backs hw hget
  refine ⟨heffect.valid hw.tracker hop, fun key state hget => (hbacks key state hget).1,
    fun key state hget => (hbacks key state hget).2, fun key hget => ?_⟩
  have hnone : ¬ ((op.after lc w.tracker).states.get key).isSome := by
    simpa [World.after] using hget
  simp only [World.after, if_neg hnone]

theorem Reachable.valid (hw : Reachable lc w) : w.Valid lc := by
  obtain ⟨failures, clean, t, hcreate, hreach⟩ := hw
  refine hreach.invariant ?_ fun op w w' hw hop hstep => ?_
  · obtain ⟨hrange, rfl⟩ := create_eq_ok hcreate
    exact ⟨⟨hrange, by simp [World.start], by simp [World.start]⟩, by simp [World.start],
      by simp [World.start], fun _ _ => rfl⟩
  · rw [← Option.some.inj hstep]
    exact hw.after hop

/-! ## The end of a penalty and of an entry -/

/-- The entry of the key requires the penalty. -/
def HardProofStrikeTracker.PenaltyAt (t : HardProofStrikeTracker) (key : Key) : Prop :=
  ∃ state, t.states.get key = some state ∧ state.penaltyRequired = true

variable (lc) in
/-- The call clears the entry of the key. -/
def Op.Clears (key : Key) : Op → Prop
  | .clear key' => canonicalKey lc key' = key
  | .clearAll => True
  | _ => False

theorem Op.Idle.relocate (hidle : op.Idle lc t) (key : Key) : op.relocate lc t key = key := by
  cases op with
  | migrateIndex address newIndex newEndpoint =>
    simp only [Op.Idle] at hidle
    simp only [Op.relocate, hidle]
  | _ => rfl

/-- Where an entry stands after a call: it is there, unless it was cleared or a clean epoch let it
lapse, and it has its penalty. -/
theorem Effect.entry (ht : t.Valid lc) (h : Effect lc t op t')
    (hstate : t.states.get key = some state) (hclears : ¬ op.Clears lc key) :
    (∃ state', t'.states.get (op.relocate lc t key) = some state' ∧
      (state.penaltyRequired = true → state'.penaltyRequired = true)) ∨
    (∃ key' epoch, op = .recordCleanPass key' epoch ∧ canonicalKey lc key' = key ∧ 0 ≤ epoch ∧
      state.penaltyRequired = false ∧ (∀ failed ∈ state.failureEpochs, failed < epoch) ∧
      t.cleanHardAuditEpochsForReset ≤ (insert epoch state.cleanEpochs).card) := by
  cases h with
  | unchanged hidle =>
    rw [hidle.relocate key]
    exact Or.inl ⟨state, hstate, id⟩
  | thresholds hop _ _ _ hget =>
    have hrelocate : op.relocate lc t key = key := by rcases hop with rfl | rfl <;> rfl
    refine Or.inl ⟨state.applyThreshold _, by rw [hrelocate, hget, hstate, Option.map_some], ?_⟩
    exact fun hpenalty => (applyThreshold_penaltyRequired _ _).mpr (Or.inr hpenalty)
  | @failed key' epoch endpoint alreadyOnProbation hepoch =>
    left
    have hrelocate : (Op.recordFailure key' epoch endpoint alreadyOnProbation).relocate lc t key =
        key := rfl
    rw [hrelocate, HardProofStrikeTracker.get_put]
    by_cases heq : key = canonicalKey lc key'
    · subst heq
      rw [if_pos rfl, hstate, Option.getD_some]
      exact ⟨_, rfl, (recordFailure_penaltyRequired (ht.state _ _ hstate).penalty _ _ _).1⟩
    · exact ⟨state, by rw [if_neg heq, hstate], id⟩
  | @passed key' epoch other hget hepoch hpenalty hlater =>
    left
    have hrelocate : (Op.recordCleanPass key' epoch).relocate lc t key = key := rfl
    rw [hrelocate, HardProofStrikeTracker.get_put]
    by_cases heq : key = canonicalKey lc key'
    · subst heq
      obtain rfl : other = state := Option.some.inj (hget.symm.trans hstate)
      exact ⟨_, if_pos rfl, id⟩
    · exact ⟨state, by rw [if_neg heq, hstate], id⟩
  | @lapsed key' epoch other hget hepoch hpenalty hlater hcard =>
    by_cases heq : key = canonicalKey lc key'
    · subst heq
      obtain rfl : other = state := Option.some.inj (hget.symm.trans hstate)
      exact Or.inr ⟨key', epoch, rfl, rfl, hepoch, hpenalty, hlater, hcard⟩
    · have hrelocate : (Op.recordCleanPass key' epoch).relocate lc t key = key := rfl
      exact Or.inl ⟨state, by rw [hrelocate, HardProofStrikeTracker.get_drop, if_neg heq, hstate], id⟩
  | @moved address newIndex newEndpoint oldKey moving hsource =>
    left
    obtain ⟨hfree, hget, -, hne⟩ := migrationSource_eq_some hsource
    simp only [Op.relocate, hsource, HardProofStrikeTracker.get_put,
      HardProofStrikeTracker.get_drop]
    by_cases hold : key = oldKey
    · subst hold
      obtain rfl : moving = state := Option.some.inj (hget.symm.trans hstate)
      exact ⟨_, by rw [if_pos rfl, if_pos rfl], by simp⟩
    · have hnew : key ≠ canonicalKey lc (address, newIndex) := by
        rintro rfl
        exact absurd (hfree.symm.trans hstate) (by simp)
      exact ⟨state, by rw [if_neg hold, if_neg hnew, if_neg hold, hstate], id⟩
  | @cleared key' =>
    have hne : key ≠ canonicalKey lc key' := fun heq => hclears heq.symm
    have hrelocate : (Op.clear key').relocate lc t key = key := rfl
    exact Or.inl ⟨state, by rw [hrelocate, HardProofStrikeTracker.get_drop, if_neg hne, hstate], id⟩
  | allCleared => exact absurd trivial hclears

variable (lc) in
/-- The world after a list of calls. -/
def World.afterAll (w : World) (ops : List Op) : World := ops.foldl (World.after lc) w

variable (lc) in
/-- The key of an entry after a list of calls. -/
def relocateAll : List Op → World → Key → Key
  | [], _, key => key
  | op :: ops, w, key => relocateAll ops (w.after lc op) (op.relocate lc w.tracker key)

variable (lc) in
/-- One of the calls clears the entry where it stands by then. -/
def ClearedAlong : List Op → World → Key → Prop
  | [], _, _ => False
  | op :: ops, w, key =>
    op.Clears lc key ∨ ClearedAlong ops (w.after lc op) (op.relocate lc w.tracker key)

/-- A penalty stays through every run that does not clear the entry, by induction on the calls. -/
theorem penaltyAt_afterAll (hw : w.Valid lc) {ops : List Op} (hops : ∀ op ∈ ops, op.Admissible)
    (hpenalty : w.tracker.PenaltyAt key) (hclears : ¬ ClearedAlong lc ops w key) :
    (w.afterAll lc ops).tracker.PenaltyAt (relocateAll lc ops w key) := by
  induction ops generalizing w key with
  | nil => exact hpenalty
  | cons op ops ih =>
    rw [ClearedAlong, not_or] at hclears
    rw [List.forall_mem_cons] at hops
    obtain ⟨state, hstate, hrequired⟩ := hpenalty
    refine ih (hw.after hops.1) hops.2 ?_ hclears.2
    rcases (effect_after hw.tracker op).entry hw.tracker hstate hclears.1 with
      ⟨state', hstate', hkept⟩ | ⟨_, _, _, _, _, hnone, _⟩
    · exact ⟨state', hstate', hkept hrequired⟩
    · exact absurd hrequired (by simp [hnone])

/-- An entry that was not cleared goes when as many clean epochs as the tracker asks for were
reported, all of them later than its failures. -/
theorem epochs_of_lapse (hw : w.Valid lc) (hstate : w.tracker.states.get key = some state)
    (hclears : ¬ op.Clears lc key)
    (hgone : (op.after lc w.tracker).states.get (op.relocate lc w.tracker key) = none) :
    ∃ epochs : Finset ℤ, w.tracker.cleanHardAuditEpochsForReset ≤ epochs.card ∧
      epochs ⊆ (op.report lc w.tracker w.trail key).passes ∧
      ∀ epoch ∈ epochs, ∀ failed ∈ (w.trail key).failures, failed < epoch := by
  rcases (effect_after hw.tracker op).entry hw.tracker hstate hclears with
    ⟨state', hstate', -⟩ | ⟨key', epoch, rfl, rfl, hepoch, -, hlater, hcard⟩
  · exact absurd (hgone.symm.trans hstate') (by simp)
  · refine ⟨insert epoch state.cleanEpochs, hcard, ?_, fun clean hclean failed hfailed => ?_⟩
    · rw [Op.report, if_neg (not_lt.mpr hepoch), Function.update_self]
      exact Finset.insert_subset_insert _ (hw.passes _ _ hstate)
    · rw [hw.failures _ _ hstate] at hfailed
      rcases Finset.mem_insert.mp hclean with rfl | hclean
      · exact hlater failed hfailed
      · exact (hw.tracker.state _ _ hstate).later clean hclean failed hfailed

/-- Two trackers with the same thresholds and the same entries. -/
def HardProofStrikeTracker.Equal (t t' : HardProofStrikeTracker) : Prop :=
  t.failureEpochsForPenalty = t'.failureEpochsForPenalty ∧
    t.cleanHardAuditEpochsForReset = t'.cleanHardAuditEpochsForReset ∧
    ∀ key, t.states.get key = t'.states.get key

theorem fromJson_toJson_equal (ht : t.Valid lc) :
    ∃ t', fromJson lc (toJson t) t.failureEpochsForPenalty t.cleanHardAuditEpochsForReset = .ok t' ∧
      t'.Equal t := by
  obtain ⟨t', hread, hfailures, hclean, hget⟩ := fromJson_toJson ht ht.thresholds
  refine ⟨t', hread, hfailures, hclean, fun key => ?_⟩
  rw [hget]
  cases hstate : t.states.get key with
  | none => rfl
  | some state => rw [Option.map_some, (ht.state key state hstate).applyThreshold_eq]

/-- What `migrate_index` does when it moves an entry. -/
structure Moved (t t' : HardProofStrikeTracker) (newKey : Key) (newEndpoint : String) : Prop where
  entry : ∃ oldKey state, t.states.get oldKey = some state ∧ t.states.get newKey = none ∧
    t'.states.get newKey = some (state.withEndpoint newEndpoint) ∧ t'.states.get oldKey = none ∧
    ∀ key, key ≠ oldKey → key ≠ newKey → t'.states.get key = t.states.get key
  failures : t'.failureEpochsForPenalty = t.failureEpochsForPenalty
  clean : t'.cleanHardAuditEpochsForReset = t.cleanHardAuditEpochsForReset

theorem migrateIndex_cases (address : String) (newIndex : ℤ) (newEndpoint : String) :
    let result := migrateIndex lc address newIndex newEndpoint t
    (result.1 = false ∧ result.2 = t) ∨
      (result.1 = true ∧ Moved t result.2 (canonicalKey lc (address, newIndex)) newEndpoint) := by
  rw [migrateIndex]
  dsimp only
  cases hsource : migrationSource (canonicalKey lc (address, newIndex)) newEndpoint t with
  | none => exact Or.inl ⟨rfl, rfl⟩
  | some item =>
    obtain ⟨oldKey, state⟩ := item
    obtain ⟨hfree, hget, -, hne⟩ := migrationSource_eq_some hsource
    refine Or.inr ⟨rfl, ⟨oldKey, state, hget, hfree, ?_, ?_, fun key hold hnew => ?_⟩, rfl, rfl⟩
    · rw [HardProofStrikeTracker.get_put, if_pos rfl]
    · rw [HardProofStrikeTracker.get_put, if_neg hne, HardProofStrikeTracker.get_drop, if_pos rfl]
    · rw [HardProofStrikeTracker.get_put, if_neg hnew, HardProofStrikeTracker.get_drop, if_neg hold]

/-- In every reachable world each entry has a failure, clean epochs that are later than its failures
and the penalty when the threshold is reached. A penalty stays through every run that does not clear
it, an entry that is not cleared lapses by as many later clean epochs as configured, a restart
with the same thresholds restores the tracker, and a migration moves at most one entry. -/
theorem strikes_reachable {w : World} (hw : Reachable lc w) :
    (∀ key state, w.tracker.states.get key = some state →
      state.failureEpochs.Nonempty ∧
      (∀ epoch ∈ state.cleanEpochs, ∀ failed ∈ state.failureEpochs, failed < epoch) ∧
      (w.tracker.failureEpochsForPenalty ≤ state.failureEpochs.card →
        state.penaltyRequired = true) ∧
      (w.trail key).failures = state.failureEpochs) ∧
    (∀ ops : List Op, (∀ op ∈ ops, op.Admissible) → ∀ key, w.tracker.PenaltyAt key →
      ¬ ClearedAlong lc ops w key →
        (w.afterAll lc ops).tracker.PenaltyAt (relocateAll lc ops w key)) ∧
    (∀ op : Op, op.Admissible → ∀ key state, w.tracker.states.get key = some state →
      state.penaltyRequired = false → ¬ op.Clears lc key →
      (op.after lc w.tracker).states.get (op.relocate lc w.tracker key) = none →
        ∃ epochs : Finset ℤ, w.tracker.cleanHardAuditEpochsForReset ≤ epochs.card ∧
          epochs ⊆ (op.report lc w.tracker w.trail key).passes ∧
          ∀ epoch ∈ epochs, ∀ failed ∈ (w.trail key).failures, failed < epoch) ∧
    (∃ t', fromJson lc (toJson w.tracker) w.tracker.failureEpochsForPenalty
        w.tracker.cleanHardAuditEpochsForReset = .ok t' ∧ t'.Equal w.tracker) ∧
    (∀ address newIndex newEndpoint,
      let result := migrateIndex lc address newIndex newEndpoint w.tracker
      (result.1 = false ∧ result.2 = w.tracker) ∨
        (result.1 = true ∧
          Moved w.tracker result.2 (canonicalKey lc (address, newIndex)) newEndpoint)) := by
  have hvalid := hw.valid
  refine ⟨fun key state hstate => ?_, fun ops hops key hpenalty hclears => ?_,
    fun op _ key state hstate _ hclears hgone => ?_, fromJson_toJson_equal hvalid.tracker,
    fun address newIndex newEndpoint => migrateIndex_cases address newIndex newEndpoint⟩
  · have hs := hvalid.tracker.state key state hstate
    exact ⟨hs.nonempty, hs.later, hs.penalty, hvalid.failures key state hstate⟩
  · exact penaltyAt_afterAll hvalid hops hpenalty hclears
  · exact epochs_of_lapse hvalid hstate hclears hgone

end

/-- The world of a tracker with the default thresholds after one failure of model 3. -/
def firstStrike : World :=
  World.after .ascii (World.start ⟨.empty, 1, 3⟩) (.recordFailure ("A", 3) 7 "" false)

theorem reachable_firstStrike : Reachable .ascii firstStrike :=
  ⟨1, 3, ⟨.empty, 1, 3⟩, rfl, .step .refl (by simp [Op.Admissible]) rfl⟩

/-- The failure brings the penalty, and a restart restores it. -/
theorem strikes_reachable_firstStrike :
    firstStrike.tracker.PenaltyAt ("a", 3) ∧
      ∃ t', fromJson .ascii (toJson firstStrike.tracker) 1 3 = .ok t' ∧
        t'.Equal firstStrike.tracker :=
  ⟨⟨_, rfl, rfl⟩, (strikes_reachable reachable_firstStrike).2.2.2.1⟩

end Verathos.Strikes
