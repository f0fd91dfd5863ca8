import Verathos.CanarySchedule.Fit

/-!
# Runs of the queue

From the plan of an epoch, tests become due and are placed again. What is proved is proved of every
run at nondecreasing blocks: a queued test stays in the epoch, and an obligation is returned once for
each time that it is placed.

* `canaries_fit`: the planned tests, and the queue of every run.
-/

namespace Verathos.CanarySchedule

open CanaryPolicy (CanaryPolicyV3)
open StableSort (sortBy sortBy_perm mem_sortBy)
open scoped List

/-! ## Runs -/

/-- The obligation of a test. -/
def CanaryTest.obligation (test : CanaryTest) : (String × ℕ) × ℕ × String :=
  (test.slot, test.testIndex, test.obligationId)

/-- A call of the scheduler. -/
inductive QueueCall where
  | getPendingTests (currentBlock : ℤ)
  /-- The returned test at a place is placed again, after its attempts were counted. -/
  | reschedule (place : ℕ) (attemptCount : ℕ) (currentBlock : ℤ)

/-- The block of a call. -/
def QueueCall.block : QueueCall → ℤ
  | .getPendingTests currentBlock => currentBlock
  | .reschedule _ _ currentBlock => currentBlock

/-- A scheduler with the tests that it has returned and that were not placed again, and the
obligations of all that it has returned and of all that were placed again. -/
structure Dispatch where
  scheduler : CanaryScheduler
  returned : List CanaryTest := []
  returnedLog : List ((String × ℕ) × ℕ × String) := []
  placedLog : List ((String × ℕ) × ℕ × String) := []

section Runs

variable (sha256 : Bytes → Digest) (text : PromptText)

/-- One call. -/
def Dispatch.step (d : Dispatch) : QueueCall → Dispatch
  | .getPendingTests currentBlock =>
    let (pending, scheduler) := getPendingTests d.scheduler currentBlock
    { d with
      scheduler
      returned := d.returned ++ pending
      returnedLog := d.returnedLog ++ pending.map CanaryTest.obligation }
  | .reschedule place attemptCount currentBlock =>
    match d.returned[place]? with
    | none => d
    | some test =>
      match reschedule sha256 d.scheduler text { test with attemptCount } currentBlock with
      | .ok (some scheduler) =>
        { d with
          scheduler
          returned := d.returned.eraseIdx place
          placedLog := d.placedLog ++ [test.obligation] }
      | _ => d

/-- A sequence of calls. -/
def Dispatch.run (d : Dispatch) (calls : List QueueCall) : Dispatch :=
  calls.foldl (fun d call => d.step sha256 text call) d

variable {sha256 text} {planned s : CanaryScheduler} {d : Dispatch}

variable {currentBlock : ℤ}

theorem reschedule_spec {test : CanaryTest} {scheduler : CanaryScheduler}
    (hreserve : 1 ≤ s.completionReserve test.testType ∧
      s.completionReserve test.testType < s.epochBlocks)
    (h : reschedule sha256 s text test currentBlock = .ok (some scheduler)) :
    ∃ placed : CanaryTest, scheduler = { s with tests := sortBy queueKey (s.tests ++ [placed]) } ∧
      placed.obligation = test.obligation ∧ placed.testType = test.testType ∧
      currentBlock < placed.targetBlock ∧ placed.targetBlock ≤ s.lastBlock test.testType := by
  simp only [reschedule, latestDispatchBlock_eq hreserve, bind_eq_ok, Except.ok.injEq,
    exists_eq_left'] at h
  split_ifs at h with hfirst
  · cases h
  simp only [bind_eq_ok, pure_eq_ok, Option.some.injEq] at h
  obtain ⟨seed, -, prompt, -, rfl⟩ := h
  have hbounds := drawn_block_bounds (not_lt.mp hfirst) (BigEndian.toNat (seed.take 8))
  refine ⟨_, rfl, rfl, rfl, ?_, hbounds.2⟩
  exact lt_of_lt_of_le (lt_add_one currentBlock) hbounds.1

/-! ## The queue of a run -/

/-- The queue of a run from a plan: where its tests stand, and how often each obligation was returned
and placed. -/
structure QueueSound (planned : CanaryScheduler) (d : Dispatch) : Prop where
  /-- A queued test is in the epoch, and not later than the latest dispatch of its kind unless it
  stands where it was planned. -/
  queued : ∀ test ∈ d.scheduler.tests, planned.epochStartBlock ≤ test.targetBlock ∧
    test.targetBlock < planned.epochStartBlock + planned.epochBlocks ∧
    (test ∈ planned.tests ∨ test.targetBlock ≤ planned.lastBlock test.testType)
  outstanding : ((d.scheduler.tests ++ d.returned).map CanaryTest.obligation).Perm
    (planned.tests.map CanaryTest.obligation)
  /-- Every obligation is queued or returned once for its plan and once for each time that it was
  placed again. -/
  once : (d.scheduler.tests.map CanaryTest.obligation ++ d.returnedLog).Perm
    (planned.tests.map CanaryTest.obligation ++ d.placedLog)

/-- The invariant of a run whose next calls are not before a block. -/
structure QueueInvariant (planned : CanaryScheduler) (block : ℤ) (d : Dispatch) : Prop where
  sound : QueueSound planned d
  same : d.scheduler = { planned with tests := d.scheduler.tests }
  due : d.returned ≠ [] → planned.epochStartBlock ≤ block

variable {block : ℤ}

theorem getPendingTests_spec (s : CanaryScheduler) (currentBlock : ℤ) :
    (getPendingTests s currentBlock).2 =
        { s with tests := (getPendingTests s currentBlock).2.tests } ∧
      (getPendingTests s currentBlock).2.tests ++ (getPendingTests s currentBlock).1 ~ s.tests ∧
      ∀ test ∈ (getPendingTests s currentBlock).1, test.targetBlock ≤ currentBlock := by
  have hothers : (fun test : CanaryTest => decide (test.targetBlock > currentBlock)) =
      fun test => !decide (test.targetBlock ≤ currentBlock) := by
    funext test
    rw [← decide_not]
    exact decide_eq_decide.mpr not_le.symm
  refine ⟨rfl, ?_, fun test htest => ?_⟩
  · simp only [getPendingTests, hothers]
    exact List.perm_append_comm.trans (List.filter_append_perm _ _)
  · simpa using (List.mem_filter.mp htest).2

theorem QueueInvariant.getPendingTests (h : QueueInvariant planned block d)
    (hblock : block ≤ currentBlock) :
    QueueInvariant planned currentBlock (d.step sha256 text (.getPendingTests currentBlock)) := by
  obtain ⟨hscheduler, hperm, hpendingDue⟩ := getPendingTests_spec d.scheduler currentBlock
  simp only [Dispatch.step]
  generalize CanarySchedule.getPendingTests d.scheduler currentBlock = result at *
  obtain ⟨pending, scheduler⟩ := result
  simp only at hscheduler hperm hpendingDue ⊢
  have hsub : ∀ test ∈ scheduler.tests, test ∈ d.scheduler.tests := fun test htest =>
    hperm.subset (List.mem_append_left _ htest)
  constructor
  · constructor
    · exact fun test htest => h.sound.queued test (hsub test htest)
    · -- the pending tests move from the queue to the returned tests
      refine List.Perm.trans (List.Perm.map _ ?_) h.sound.outstanding
      calc scheduler.tests ++ (d.returned ++ pending)
          ~ scheduler.tests ++ (pending ++ d.returned) := List.perm_append_comm.append_left _
        _ = scheduler.tests ++ pending ++ d.returned := (List.append_assoc _ _ _).symm
        _ ~ d.scheduler.tests ++ d.returned := hperm.append_right _
    · -- and each of them is returned once more
      refine List.Perm.trans ?_ h.sound.once
      calc scheduler.tests.map CanaryTest.obligation ++
            (d.returnedLog ++ pending.map CanaryTest.obligation)
          ~ scheduler.tests.map CanaryTest.obligation ++
            (pending.map CanaryTest.obligation ++ d.returnedLog) :=
            List.perm_append_comm.append_left _
        _ = (scheduler.tests ++ pending).map CanaryTest.obligation ++ d.returnedLog := by
            rw [List.map_append, List.append_assoc]
        _ ~ d.scheduler.tests.map CanaryTest.obligation ++ d.returnedLog :=
            (hperm.map _).append_right _
  · rw [hscheduler, h.same]
  · intro hne
    by_cases hreturned : d.returned = []
    case neg => exact (h.due hreturned).trans hblock
    · have hpending : pending ≠ [] := by
        rw [hreturned] at hne
        exact hne
      -- a pending test was queued in the epoch, and is due
      obtain ⟨test, htest⟩ := List.exists_mem_of_ne_nil pending hpending
      have hqueued := h.sound.queued test (hperm.subset (List.mem_append_right _ htest))
      exact hqueued.1.trans (hpendingDue test htest)

variable {policy : CanaryPolicyV3}

theorem QueueInvariant.reschedule (hs : FromPolicy policy planned)
    (h : QueueInvariant planned block d) {place attemptCount : ℕ} (hblock : block ≤ currentBlock) :
    QueueInvariant planned currentBlock
      (d.step sha256 text (.reschedule place attemptCount currentBlock)) := by
  have hsame : QueueInvariant planned currentBlock d :=
    ⟨h.sound, h.same, fun hne => (h.due hne).trans hblock⟩
  simp only [Dispatch.step]
  split
  · exact hsame
  rename_i test htest
  split
  case h_2 => exact hsame
  rename_i scheduler hok
  have hmem : test ∈ d.returned := List.mem_of_getElem? htest
  have hroom : ∀ testType, 1 ≤ planned.completionReserve testType ∧
      planned.completionReserve testType < planned.epochBlocks := by
    intro testType
    cases testType
    · exact hs.lowReserve
    · exact hs.fullReserve
  have hreserve : ∀ testType, 1 ≤ d.scheduler.completionReserve testType ∧
      d.scheduler.completionReserve testType < d.scheduler.epochBlocks := by
    rw [h.same]
    exact hroom
  obtain ⟨placed, rfl, hobligation, htype, hlater, hlast⟩ := reschedule_spec (hreserve _) hok
  -- counting an attempt changes neither the obligation nor the kind
  have hplaced : placed.obligation = test.obligation := hobligation
  have hlastBlock : placed.targetBlock ≤ planned.lastBlock placed.testType := by
    rw [htype]
    rw [h.same] at hlast
    exact hlast
  have hdue := h.due (List.ne_nil_of_mem hmem)
  have herase : test :: d.returned.eraseIdx place ~ d.returned := by
    obtain ⟨hplace, rfl⟩ := List.getElem?_eq_some_iff.mp htest
    exact List.getElem_cons_eraseIdx_perm hplace
  have hqueue : sortBy queueKey (d.scheduler.tests ++ [placed]) ~ d.scheduler.tests ++ [placed] :=
    sortBy_perm _ _
  constructor
  · constructor
    · intro queuedTest hqueued
      rcases List.mem_append.mp (hqueue.subset hqueued) with hqueued | hqueued
      · exact h.sound.queued queuedTest hqueued
      · obtain rfl := List.mem_singleton.mp hqueued
        -- it stands after a block of the epoch, and leaves room for its completion
        have hend := (hroom queuedTest.testType).1
        have hlatest := hlastBlock
        rw [CanaryScheduler.lastBlock] at hlatest
        exact ⟨by omega, by omega, .inr hlastBlock⟩
    · -- the placed test moves from the returned tests to the queue
      refine List.Perm.trans ?_ h.sound.outstanding
      calc ((sortBy queueKey (d.scheduler.tests ++ [placed])) ++
            d.returned.eraseIdx place).map CanaryTest.obligation
          ~ (d.scheduler.tests ++ [placed] ++ d.returned.eraseIdx place).map
            CanaryTest.obligation := (hqueue.append_right _).map _
        _ = d.scheduler.tests.map CanaryTest.obligation ++
            (test :: d.returned.eraseIdx place).map CanaryTest.obligation := by
            simp [hplaced]
        _ ~ d.scheduler.tests.map CanaryTest.obligation ++
            d.returned.map CanaryTest.obligation := (herase.map _).append_left _
        _ = (d.scheduler.tests ++ d.returned).map CanaryTest.obligation := by
            rw [List.map_append]
    · -- and is placed once more
      calc (sortBy queueKey (d.scheduler.tests ++ [placed])).map CanaryTest.obligation ++
            d.returnedLog
          ~ (d.scheduler.tests ++ [placed]).map CanaryTest.obligation ++ d.returnedLog :=
            (hqueue.map _).append_right _
        _ = d.scheduler.tests.map CanaryTest.obligation ++ ([test.obligation] ++
            d.returnedLog) := by
            simp [hplaced]
        _ ~ d.scheduler.tests.map CanaryTest.obligation ++ (d.returnedLog ++
            [test.obligation]) := List.perm_append_comm.append_left _
        _ = d.scheduler.tests.map CanaryTest.obligation ++ d.returnedLog ++
            [test.obligation] := (List.append_assoc _ _ _).symm
        _ ~ planned.tests.map CanaryTest.obligation ++ d.placedLog ++ [test.obligation] :=
            h.sound.once.append_right _
        _ = planned.tests.map CanaryTest.obligation ++ (d.placedLog ++ [test.obligation]) :=
            List.append_assoc _ _ _
  · simp only
    rw [h.same]
  · exact fun _ => hdue.trans hblock

theorem QueueInvariant.step (hs : FromPolicy policy planned) (h : QueueInvariant planned block d)
    (call : QueueCall) (hblock : block ≤ call.block) :
    QueueInvariant planned call.block (d.step sha256 text call) := by
  cases call with
  | getPendingTests currentBlock => exact h.getPendingTests hblock
  | reschedule place attemptCount currentBlock => exact h.reschedule hs hblock

theorem QueueInvariant.run (hs : FromPolicy policy planned) (h : QueueInvariant planned block d)
    (calls : List QueueCall) (hfirst : ∀ call ∈ calls, block ≤ call.block)
    (hcalls : (calls.map QueueCall.block).Pairwise (· ≤ ·)) :
    ∃ last, QueueInvariant planned last (d.run sha256 text calls) := by
  induction calls generalizing block d with
  | nil => exact ⟨block, h⟩
  | cons call calls ih =>
    obtain ⟨hlater, hcalls⟩ := List.pairwise_cons.mp hcalls
    refine ih (h.step hs call (hfirst call List.mem_cons_self)) (fun next hnext => ?_) hcalls
    exact hlater _ (List.mem_map_of_mem hnext)

theorem queueInvariant_planned (hplanned : ∀ test ∈ planned.tests,
      planned.epochStartBlock ≤ test.targetBlock ∧
        test.targetBlock < planned.epochStartBlock + planned.epochBlocks) (block : ℤ) :
    QueueInvariant planned block { scheduler := planned } := by
  constructor
  · constructor
    · intro test htest
      exact ⟨(hplanned test htest).1, (hplanned test htest).2, .inl htest⟩
    · simp
    · simp
  · rfl
  · exact fun hne => absurd rfl hne

end Runs

section Main

variable (sha256 : Bytes → Digest) (u : LowerCase) (text : PromptText)

theorem exists_miner_of_mem_planEpoch {s planned : CanaryScheduler} {miners : List Miner}
    (h : planEpoch sha256 u s text miners = .ok planned) :
    ∀ test ∈ planned.tests, ∃ miner ∈ miners, ∃ tests,
      planMiner sha256 u s miner text = .ok tests ∧ test ∈ tests := by
  obtain ⟨plans, hplans, rfl⟩ := planEpoch_eq_ok.mp h
  intro test htest
  obtain ⟨tests, htests, hmem⟩ := List.mem_flatten.mp ((mem_sortBy queueKey).mp htest)
  clear h htest
  induction hplans with
  | nil => exact absurd htests List.not_mem_nil
  | @cons miner plan miners plans hhead _ ih =>
    rcases List.mem_cons.mp htests with rfl | htests
    · exact ⟨miner, List.mem_cons_self, tests, hhead, hmem⟩
    · obtain ⟨miner, hminer, hplan⟩ := ih htests
      exact ⟨miner, List.mem_cons_of_mem _ hminer, hplan⟩

/-- The planned tests are within the bounds of their kinds, and the queue of every run is sound.

The scheduler has the parameters of a policy. The calls of a run are at nondecreasing blocks, and what
is placed again was returned. -/
theorem canaries_fit (policy : CanaryPolicyV3) (s planned : CanaryScheduler)
    (hs : FromPolicy policy s) (miners : List Miner)
    (h : planEpoch sha256 u s text miners = .ok planned) :
    (∀ test ∈ planned.tests, ∃ miner ∈ miners, test.slot = miner.slot ∧
      PlannedWithin s miner test) ∧
    ∀ calls : List QueueCall, (calls.map QueueCall.block).Pairwise (· ≤ ·) →
      QueueSound planned (({ scheduler := planned } : Dispatch).run sha256 text calls) := by
  have hwithin : ∀ test ∈ planned.tests, ∃ miner ∈ miners, test.slot = miner.slot ∧
      PlannedWithin s miner test := by
    intro test htest
    obtain ⟨miner, hminer, tests, htests, hmem⟩ := exists_miner_of_mem_planEpoch sha256 u text h
      test htest
    exact ⟨miner, hminer, slot_of_mem_planMiner htests test hmem,
      plannedWithin_of_planMiner hs htests test hmem⟩
  refine ⟨hwithin, fun calls hcalls => ?_⟩
  have hplanned : ∀ test ∈ planned.tests, s.epochStartBlock ≤ test.targetBlock ∧
      test.targetBlock < s.epochStartBlock + s.epochBlocks := fun test htest => by
    obtain ⟨_, -, -, hbounds⟩ := hwithin test htest
    exact hbounds.block
  -- the plan has the parameters of the scheduler
  obtain ⟨plans, -, rfl⟩ := planEpoch_eq_ok.mp h
  have hsame : FromPolicy policy { s with tests := sortBy queueKey plans.flatten } := by
    cases hs
    constructor <;> assumption
  cases calls with
  | nil => exact (queueInvariant_planned hplanned 0).sound
  | cons call calls =>
    have hfirst : ∀ next ∈ call :: calls, call.block ≤ next.block := by
      refine List.forall_mem_cons.mpr ⟨le_rfl, fun next hnext => ?_⟩
      exact (List.pairwise_cons.mp hcalls).1 _ (List.mem_map_of_mem hnext)
    obtain ⟨_, hrun⟩ := (queueInvariant_planned hplanned call.block).run hsame (call :: calls)
      hfirst hcalls
    exact hrun.sound

end Main

/-! ## A small epoch -/

/-- A hard auditor with three blocks, two of which are reserved for the completion. -/
def reservedHardAuditor : CanaryScheduler :=
  { smallHardAuditor with
    epochBlocks := 3
    fullCompletionReserveBlocks := 2 }

theorem reservedHardAuditor_fromPolicy : FromPolicy defaultPolicy reservedHardAuditor := by
  constructor <;> decide

/-- The plan of a small endpoint whose advertised context holds two tokens. -/
def reservedPlan : Result CanaryScheduler :=
  planEpoch (fun _ => .zero) .ascii reservedHardAuditor (fun _ _ _ _ => "") [smallMiner 0 2]

/-- For a context of two tokens, a test is planned that does not fit it, and one with a shared prefix
that is not shorter than its prompt; and a marked candidate is planned after the latest dispatch. -/
theorem canaries_not_fit :
    ∃ planned, reservedPlan = .ok planned ∧
      (∃ test ∈ planned.tests, (smallMiner 0 2).maxContextLen < test.targetPromptTokens +
        test.maxNewTokens) ∧
      (∃ test ∈ planned.tests, test.targetPromptTokens ≤ test.repeatPrefixTargetTokens) ∧
      ∃ test ∈ planned.tests, reservedHardAuditor.lastBlock test.testType < test.targetBlock := by
  have htests : ∃ tests, (planMiner (fun _ => .zero) .ascii reservedHardAuditor (smallMiner 0 2)
      fun _ _ _ _ => "") = .ok tests ∧
      (∃ test ∈ tests, (smallMiner 0 2).maxContextLen < test.targetPromptTokens +
        test.maxNewTokens) ∧
      (∃ test ∈ tests, test.targetPromptTokens ≤ test.repeatPrefixTargetTokens) ∧
      ∃ test ∈ tests, reservedHardAuditor.lastBlock test.testType < test.targetBlock := by
    have haccepts : Accepts (do
        let tests ← planMiner (fun _ => .zero) .ascii reservedHardAuditor (smallMiner 0 2)
          fun _ _ _ _ => ""
        raiseIf (¬ ((∃ test ∈ tests, (smallMiner 0 2).maxContextLen < test.targetPromptTokens +
          test.maxNewTokens) ∧
          (∃ test ∈ tests, test.targetPromptTokens ≤ test.repeatPrefixTargetTokens) ∧
          ∃ test ∈ tests, reservedHardAuditor.lastBlock test.testType < test.targetBlock))
          (valueError "the tests fit")) := by
      decide +kernel
    obtain ⟨_, haccepts⟩ := haccepts
    obtain ⟨tests, htests, hchecks⟩ := bind_eq_ok.mp haccepts
    exact ⟨tests, htests, not_not.mp (raiseIf_eq_ok.mp hchecks)⟩
  obtain ⟨tests, htests, hfirst, hsecond, hthird⟩ := htests
  refine ⟨_, planEpoch_singleton.mpr ⟨tests, htests, rfl⟩, ?_⟩
  simp only [mem_sortBy]
  exact ⟨hfirst, hsecond, hthird⟩

/-- The candidates of the small endpoint fit its context. -/
theorem canaries_fit_small :
    ∃ planned, reservedPlan = .ok planned ∧
      (∀ test ∈ planned.tests, test.testIndex ≠ 0 →
        test.targetPromptTokens + test.maxNewTokens ≤ 2) ∧
      ∀ calls : List QueueCall, (calls.map QueueCall.block).Pairwise (· ≤ ·) →
        QueueSound planned
          (({ scheduler := planned } : Dispatch).run (fun _ => .zero) (fun _ _ _ _ => "") calls) := by
  have hplanned : ∃ planned, reservedPlan = .ok planned := by
    refine exists_planEpoch_iff.mpr fun miner hmem => ?_
    obtain rfl := List.mem_singleton.mp hmem
    exact (exists_planMiner_iff _ _ _ reservedHardAuditor_fromPolicy
      ⟨by decide, by decide⟩).mpr fun _ => by decide
  obtain ⟨planned, h⟩ := hplanned
  obtain ⟨hwithin, hruns⟩ := canaries_fit (fun _ => .zero) .ascii (fun _ _ _ _ => "") defaultPolicy
    reservedHardAuditor planned reservedHardAuditor_fromPolicy [smallMiner 0 2] h
  refine ⟨planned, h, fun test htest hindex => ?_, hruns⟩
  obtain ⟨miner, hminer, -, hbounds⟩ := hwithin test htest
  obtain rfl := List.mem_singleton.mp hminer
  exact hbounds.marked rfl hindex

end Verathos.CanarySchedule
