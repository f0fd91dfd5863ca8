import Verathos.CanarySchedule.Planning

/-!
# Endpoints and the plans of others

The plan of an epoch is the union of what is planned for each endpoint alone: sorting the queue
mixes the plans, and leaves the tests of one endpoint in their order. But the planner raises for an
endpoint that has no room for a prompt and a token, and then no endpoint has a plan.

* `planEpoch_isolated_iff`: under a hard audit, an epoch is planned for all endpoints exactly when
  every advertised context holds two tokens.
-/

namespace Verathos.CanarySchedule

open CanaryPolicy (CanaryPolicyV3)
open StableSort (sortBy sortBy_perm sortBy_filter)

/-- The entry of the registry that a test is for. -/
def CanaryTest.slot (test : CanaryTest) : String × ℕ := (test.minerAddress, test.modelIndex)

/-- The entry of the registry. -/
def Miner.slot (miner : Miner) : String × ℕ := (miner.address, miner.modelIndex)

section Isolation

variable (sha256 : Bytes → Digest) (u : LowerCase) (text : PromptText)

/-- The plan of an epoch is the one of each endpoint alone: it holds the tests of all plans, and an
entry that occurs once has in it the tests that it has alone, in their order. -/
structure Isolated (s : CanaryScheduler) (miners : List Miner) (tests : List CanaryTest) : Prop where
  joined : ∃ alone, List.Forall₂
      (fun miner planned => planEpoch sha256 u s text [miner] = .ok planned) miners alone ∧
    tests.Perm (alone.flatMap CanaryScheduler.tests)
  own : ∀ before miner after planned, miners = before ++ miner :: after →
    (∀ other ∈ before ++ after, other.slot ≠ miner.slot) →
    planEpoch sha256 u s text [miner] = .ok planned →
    tests.filter (fun test => test.slot = miner.slot) = planned.tests

variable {sha256 u text} {s : CanaryScheduler} {miner : Miner}

/-! ## The tests of an endpoint -/

variable {repeatSeed : Bytes} {repeatTarget : ℤ} {testIndex : ℕ} {test : CanaryTest}

theorem slot_of_lowTest
    (h : lowTest sha256 u s miner text repeatSeed repeatTarget testIndex = .ok test) :
    test.slot = miner.slot := by
  simp only [lowTest, bind_eq_ok, pure_eq_ok] at h
  obtain ⟨_, -, _, -, _, -, rfl⟩ := h
  rfl

theorem slot_of_advertisedTest
    (h : advertisedTest sha256 u s miner text repeatSeed repeatTarget testIndex = .ok test) :
    test.slot = miner.slot := by
  simp only [advertisedTest, bind_eq_ok, pure_eq_ok] at h
  obtain ⟨_, -, _, -, _, -, rfl⟩ := h
  rfl

theorem slot_of_markedTest {forcedOffset : Option ℕ} {event : ℕ × Bytes}
    (h : markedTest sha256 s miner text repeatSeed repeatTarget forcedOffset testIndex event =
      .ok test) : test.slot = miner.slot := by
  simp only [markedTest, bind_eq_ok, pure_eq_ok] at h
  obtain ⟨_, -, _, -, _, -, rfl⟩ := h
  rfl

theorem forall_mem_of_mapM_eq_ok {α β : Type} {f : α → Result β} {P : β → Prop} {items : List α}
    {results : List β} (h : items.mapM f = .ok results)
    (hf : ∀ a ∈ items, ∀ b, f a = .ok b → P b) : ∀ b ∈ results, P b := by
  have hresults := mapM_eq_ok.mp h
  clear h
  induction hresults with
  | nil => exact fun _ hb => nomatch hb
  | cons hhead _ ih =>
    refine List.forall_mem_cons.mpr ⟨hf _ List.mem_cons_self _ hhead, ih fun a ha => ?_⟩
    exact hf a (List.mem_cons_of_mem _ ha)

variable {tests : List CanaryTest}

theorem mem_planMiner_cases {P : CanaryTest → Prop}
    (hlow : ∀ repeatSeed testIndex test, testIndex < s.smallCount →
      lowTest sha256 u s miner text repeatSeed (repeatPrefixTarget s s.lowContextMinTokens)
        testIndex = .ok test → P test)
    (hcompatibility : s.hardAuditEnabled = false → ∀ repeatSeed testIndex test,
      advertisedTest sha256 u s miner text repeatSeed (repeatPrefixTarget s s.lowContextMinTokens)
        testIndex = .ok test → P test)
    (hadvertised : s.hardAuditEnabled = true → 0 < decodeCap s miner →
      ∀ repeatSeed test, advertisedTest sha256 u s miner text repeatSeed
        (repeatPrefixTarget s (safeContextTarget s (contextLimit s miner) (decodeCap s miner)))
        s.smallCount = .ok test → P test)
    (hmarked : s.hardAuditEnabled = true → 0 < decodeCap s miner →
      ∀ repeatSeed forcedOffset testIndex event basis events test,
        candidateEvents sha256 u s miner basis = .ok events → event ∈ events →
        s.smallCount < testIndex → markedTest sha256 s miner text repeatSeed
          (repeatPrefixTarget s (safeContextTarget s (contextLimit s miner) (decodeCap s miner)))
          forcedOffset testIndex event = .ok test → P test)
    (h : planMiner sha256 u s miner text = .ok tests) : ∀ test ∈ tests, P test := by
  simp only [planMiner, bind_eq_ok, pure_eq_ok] at h
  obtain ⟨repeatSeed, -, -, -, low, hlows, full, hfull, rfl⟩ := h
  intro test htest
  rcases List.mem_append.mp htest with hmem | hmem
  · refine forall_mem_of_mapM_eq_ok hlows (fun index hindex test hok => ?_) test hmem
    exact hlow repeatSeed index test (List.mem_range.mp hindex) hok
  rw [fullTests] at hfull
  split_ifs at hfull with henabled
  · simp only [hardAuditTests, bind_eq_ok, raiseIf_eq_ok, not_le, pure_eq_ok] at hfull
    obtain ⟨-, -, -, hcap, repeatSeed, -, advertised, hok, basis, -, events, hevents, offset, -,
      marked, hmarkeds, rfl⟩ := hfull
    rcases List.mem_cons.mp hmem with rfl | hmem
    · exact hadvertised henabled hcap repeatSeed test hok
    · refine forall_mem_of_mapM_eq_ok hmarkeds (fun item hitem test hok => ?_) test hmem
      have hevent : item.1 ∈ events.insertionSort eventLe := List.fst_mem_of_mem_zipIdx hitem
      rw [List.mem_insertionSort] at hevent
      have hindex : s.smallCount < item.2 := List.le_snd_of_mem_zipIdx hitem
      exact hmarked henabled hcap repeatSeed offset item.2 item.1 basis events test hevents hevent
        hindex hok
  · refine forall_mem_of_mapM_eq_ok hfull (fun index _ test hok => ?_) test hmem
    exact hcompatibility (by simpa using henabled) repeatSeed index test hok

theorem slot_of_mem_planMiner (h : planMiner sha256 u s miner text = .ok tests) :
    ∀ test ∈ tests, test.slot = miner.slot :=
  mem_planMiner_cases (fun _ _ _ _ => slot_of_lowTest) (fun _ _ _ _ => slot_of_advertisedTest)
    (fun _ _ _ _ => slot_of_advertisedTest) (fun _ _ _ _ _ _ _ _ _ _ _ _ => slot_of_markedTest) h

/-! ## The plan of all endpoints -/

variable {miners : List Miner} {planned : CanaryScheduler}

theorem planEpoch_eq_ok :
    planEpoch sha256 u s text miners = .ok planned ↔ ∃ plans,
      List.Forall₂ (fun miner tests => planMiner sha256 u s miner text = .ok tests) miners plans ∧
      planned = { s with tests := sortBy queueKey plans.flatten } := by
  simp only [planEpoch, bind_eq_ok, pure_eq_ok, mapM_eq_ok, @eq_comm _ _ planned]

theorem planEpoch_singleton :
    planEpoch sha256 u s text [miner] = .ok planned ↔ ∃ tests,
      planMiner sha256 u s miner text = .ok tests ∧
      planned = { s with tests := sortBy queueKey tests } := by
  rw [planEpoch_eq_ok]
  constructor
  · rintro ⟨plans, hplans, rfl⟩
    obtain ⟨tests, _, htests, hnil, rfl⟩ := List.forall₂_cons_left_iff.mp hplans
    obtain rfl := List.forall₂_nil_left_iff.mp hnil
    exact ⟨tests, htests, by rw [List.flatten_singleton]⟩
  · rintro ⟨tests, htests, rfl⟩
    exact ⟨[tests], .cons htests .nil, by rw [List.flatten_singleton]⟩

theorem filter_flatten {before after : List Miner} {plans : List (List CanaryTest)}
    (h : List.Forall₂ (fun miner tests => planMiner sha256 u s miner text = .ok tests)
      (before ++ miner :: after) plans)
    (hothers : ∀ other ∈ before ++ after, other.slot ≠ miner.slot)
    (htests : planMiner sha256 u s miner text = .ok tests) :
    plans.flatten.filter (fun test => test.slot = miner.slot) = tests := by
  have hnone : ∀ (miners : List Miner) (plans : List (List CanaryTest)),
      List.Forall₂ (fun miner tests => planMiner sha256 u s miner text = .ok tests) miners plans →
      (∀ other ∈ miners, other.slot ≠ miner.slot) →
      plans.flatten.filter (fun test => test.slot = miner.slot) = [] := by
    intro miners plans hplans hne
    induction hplans with
    | nil => rfl
    | @cons other planned _ _ hhead _ ih =>
      rw [List.flatten_cons, List.filter_append, ih fun a ha => hne a (List.mem_cons_of_mem _ ha),
        List.append_nil, List.filter_eq_nil_iff]
      intro test htest
      have hslot := slot_of_mem_planMiner hhead test htest
      simpa [hslot] using hne other List.mem_cons_self
  have hfirst := (List.forall₂_take_append _ _ _ h.flip).flip
  have hrest := (List.forall₂_drop_append _ _ _ h.flip).flip
  rw [← List.take_append_drop before.length plans]
  generalize plans.take before.length = first at hfirst ⊢
  generalize plans.drop before.length = rest at hrest ⊢
  obtain ⟨own, last, hown, hlast, rfl⟩ := List.forall₂_cons_left_iff.mp hrest
  obtain rfl := Except.ok.inj (hown.symm.trans htests)
  have hall : ∀ test ∈ own, test.slot = miner.slot := slot_of_mem_planMiner hown
  rw [List.flatten_append, List.flatten_cons, List.filter_append, List.filter_append,
    hnone before first hfirst fun a ha => hothers a (List.mem_append_left _ ha),
    hnone after last hlast fun a ha => hothers a (List.mem_append_right _ ha), List.nil_append,
    List.append_nil]
  exact List.filter_eq_self.mpr fun test htest => by simpa using hall test htest

theorem isolated_of_planEpoch (h : planEpoch sha256 u s text miners = .ok planned) :
    Isolated sha256 u text s miners planned.tests := by
  obtain ⟨plans, hplans, rfl⟩ := planEpoch_eq_ok.mp h
  constructor
  · refine ⟨plans.map fun tests => { s with tests := sortBy queueKey tests }, ?_, ?_⟩
    · rw [List.forall₂_map_right_iff]
      exact hplans.imp fun miner tests htests => planEpoch_singleton.mpr ⟨tests, htests, rfl⟩
    · refine (sortBy_perm queueKey _).trans ?_
      rw [List.flatMap_map]
      have hsorted : ∀ plans : List (List CanaryTest),
          plans.flatten.Perm (plans.flatMap fun tests => sortBy queueKey tests) := by
        intro plans
        induction plans with
        | nil => exact .nil
        | cons tests plans ih => exact (sortBy_perm queueKey tests).symm.append ih
      exact hsorted plans
  · rintro before miner after _ rfl hothers halone
    obtain ⟨tests, htests, rfl⟩ := planEpoch_singleton.mp halone
    simp only [sortBy_filter]
    rw [filter_flatten hplans hothers htests]

theorem exists_planEpoch_iff :
    (∃ planned, planEpoch sha256 u s text miners = .ok planned) ↔
      ∀ miner ∈ miners, ∃ tests, planMiner sha256 u s miner text = .ok tests := by
  rw [← exists_mapM_iff]
  simp only [planEpoch, bind_eq_ok, pure_eq_ok]
  constructor
  · rintro ⟨_, plans, hplans, -⟩
    exact ⟨plans, hplans⟩
  · rintro ⟨plans, hplans⟩
    exact ⟨_, plans, hplans, rfl⟩

end Isolation

/-- An epoch is planned, and for every endpoint as if it were alone, exactly when the scheduler plans
no hard audit or every advertised context holds two tokens.

The scheduler has the parameters of a policy and the endpoints have 32-bit indices; the registry sets
no bound below an advertised context. -/
theorem planEpoch_isolated_iff (sha256 : Bytes → Digest) (u : LowerCase) (text : PromptText)
    (policy : CanaryPolicyV3) (s : CanaryScheduler) (hs : FromPolicy policy s) (miners : List Miner)
    (hminers : ∀ miner ∈ miners, miner.modelIndex < 2 ^ 32) :
    (∃ planned, planEpoch sha256 u s text miners = .ok planned ∧
        Isolated sha256 u text s miners planned.tests) ↔
      (s.hardAuditEnabled = true → ∀ miner ∈ miners, 2 ≤ miner.maxContextLen) := by
  have hnamed : ∀ miner ∈ miners, Named s miner := fun miner hmem => ⟨hs.epochNumber, by
    have hindex := hminers miner hmem
    norm_num at hindex ⊢
    exact hindex⟩
  have hplanned : (∃ planned, planEpoch sha256 u s text miners = .ok planned) ↔
      ∀ miner ∈ miners, s.hardAuditEnabled = true → 2 ≤ miner.maxContextLen := by
    rw [exists_planEpoch_iff]
    exact forall₂_congr fun miner hmem =>
      exists_planMiner_iff sha256 u text hs (hnamed miner hmem)
  constructor
  · rintro ⟨planned, h, -⟩ henabled miner hmem
    exact hplanned.mp ⟨planned, h⟩ miner hmem henabled
  · intro hcontext
    obtain ⟨planned, h⟩ := hplanned.mpr fun miner hmem henabled => hcontext henabled miner hmem
    exact ⟨planned, h, isolated_of_planEpoch h⟩

/-! ## A small epoch -/

/-- A policy with the default numbers. -/
def defaultPolicy : CanaryPolicyV3 where
  modelPolicies := []

/-- A hard auditor in an epoch of two blocks. -/
def smallHardAuditor : CanaryScheduler where
  epochNumber := 1
  epochStartBlock := 2
  epochBlocks := 2
  smallCount := 0
  advertisedContextLightCount := 1
  fullContextCount := 0
  hardAuditEnabled := true

theorem smallHardAuditor_fromPolicy : FromPolicy defaultPolicy smallHardAuditor := by
  constructor <;> decide

/-- An endpoint with an advertised context. -/
def smallMiner (modelIndex maxContextLen : ℕ) : Miner where
  address := "0xa"
  endpoint := "http"
  modelId := "m"
  modelIndex
  maxContextLen

/-- An endpoint that advertises a context of one token leaves another endpoint without a plan. -/
theorem planEpoch_not_isolated :
    ∃ (policy : CanaryPolicyV3) (s : CanaryScheduler) (endpoint other : Miner),
      FromPolicy policy s ∧ endpoint.modelIndex < 2 ^ 32 ∧ other.modelIndex < 2 ^ 32 ∧
      (∃ planned, planEpoch (fun _ => .zero) .ascii s (fun _ _ _ _ => "") [endpoint] =
        .ok planned) ∧
      planEpoch (fun _ => .zero) .ascii s (fun _ _ _ _ => "") [endpoint, other] =
        .error (valueError "hard auditor model limits leave no prompt capacity") := by
  refine ⟨defaultPolicy, smallHardAuditor, smallMiner 0 4096, smallMiner 1 1,
    smallHardAuditor_fromPolicy, by decide, by decide, ?_, ?_⟩
  · refine exists_planEpoch_iff.mpr fun miner hmem => ?_
    obtain rfl := List.mem_singleton.mp hmem
    exact (exists_planMiner_iff _ _ _ smallHardAuditor_fromPolicy ⟨by decide, by decide⟩).mpr
      fun _ => by decide
  · have hfirst : Accepts (planMiner (fun _ => .zero) .ascii smallHardAuditor (smallMiner 0 4096)
        fun _ _ _ _ => "") := by
      decide +kernel
    have hsecond : (planMiner (fun _ => .zero) .ascii smallHardAuditor (smallMiner 1 1)
        fun _ _ _ _ => "") =
          .error (valueError "hard auditor model limits leave no prompt capacity") := by
      decide +kernel
    obtain ⟨tests, hfirst⟩ := hfirst
    rw [planEpoch, List.mapM_cons, hfirst, List.mapM_cons, hsecond]
    rfl

/-- Endpoints whose contexts hold two tokens are planned apart. -/
theorem planEpoch_isolated_small :
    ∃ planned, planEpoch (fun _ => .zero) .ascii smallHardAuditor (fun _ _ _ _ => "")
        [smallMiner 0 4096, smallMiner 1 2] = .ok planned ∧
      Isolated (fun _ => .zero) .ascii (fun _ _ _ _ => "") smallHardAuditor
        [smallMiner 0 4096, smallMiner 1 2] planned.tests :=
  (planEpoch_isolated_iff (fun _ => .zero) .ascii (fun _ _ _ _ => "") defaultPolicy smallHardAuditor
    smallHardAuditor_fromPolicy [smallMiner 0 4096, smallMiner 1 2] (by decide)).mpr (by decide)

end Verathos.CanarySchedule
