import Verathos.CanarySchedule.Isolation

/-!
# Forced hard audits

When the ledger says that an endpoint is due, the planner forces one of its candidates to a hard
audit, and makes a candidate when none was drawn. All other choices are the ones of the same endpoint
when it is not due.

* `Forced`: how the plan of a due endpoint differs from the plan of the endpoint when it is not due;
* `forced_of_planMiner`: the two plans differ in no other way;
* `accepts_planMiner_withDue`: the endpoint that is due has a plan exactly when it has one without
  being due, unless a candidate is made while the decode rates are invalid.
-/

namespace Verathos.CanarySchedule

/-- The test as a hard audit. -/
def CanaryTest.forceHard (test : CanaryTest) : CanaryTest := { test with verifyProof := true }

/-- The scheduler with other entries that are due. -/
def CanaryScheduler.withDue (s : CanaryScheduler)
    (hardAuditDueEntries probationEntries : List (String × ℕ)) : CanaryScheduler :=
  { s with hardAuditDueEntries, probationEntries }

section Drought

variable (sha256 : Bytes → Digest) (u : LowerCase) (s : CanaryScheduler) (miner : Miner)
  (text : PromptText)

/-- The test is one of the marked schedule of the endpoint. -/
def IsMarked (test : CanaryTest) : Prop :=
  ∃ repeatSeed repeatTarget forcedOffset testIndex event,
    markedTest sha256 s miner text repeatSeed repeatTarget forcedOffset testIndex event = .ok test

/-- The plan of an endpoint that is not due, and its plan when it is due: one of the marked tests is
forced, or a forced one is added to a plan that has none. -/
inductive Forced : List CanaryTest → List CanaryTest → Prop
  | mark (advertised : CanaryTest) (marked : List CanaryTest) (place : ℕ)
      (hmarked : ∀ test ∈ marked, IsMarked sha256 s miner text test)
      (hplace : place < marked.length) :
      Forced (advertised :: marked) (advertised :: marked.modify place CanaryTest.forceHard)
  | add (advertised test : CanaryTest) (hmarked : IsMarked sha256 s miner text test)
      (hhard : test.verifyProof = true) :
      Forced [advertised] [advertised, test]

variable {sha256 u s miner text}

/-! ## One candidate -/

section Candidate

variable {repeatSeed : Bytes} {repeatTarget : ℤ} {offset testIndex : ℕ} {event : ℕ × Bytes}

theorem markedTest_some :
    markedTest sha256 s miner text repeatSeed repeatTarget (some offset) testIndex event =
      (markedTest sha256 s miner text repeatSeed repeatTarget none testIndex event).map fun test =>
        if event.1 = offset then test.forceHard else test := by
  rw [markedTest, markedTest]
  cases independentFullDecodeCategory sha256
      (derive sha256 (asciiBytes "VERATHOS/CANARY/MARKED_PROMPT/V3") [event.2])
      s.hardDecodeAnchorBps s.hardDecodeTailBps with
  | error e => rfl
  | ok category =>
    simp only [bind, Except.bind]
    cases signedFullDecodeTokens sha256
        (derive sha256 (asciiBytes "VERATHOS/CANARY/MARKED_PROMPT/V3") [event.2]) category
        (decodeCap s miner) s.lowContextMaxDecodeTokens with
    | error e => rfl
    | ok maxNew =>
      simp only
      cases renderSecretSeededPrompt text
          (derive sha256 (asciiBytes "VERATHOS/CANARY/MARKED_PROMPT/V3") [event.2]) 2000 true _ with
      | error e => rfl
      | ok prompt =>
        simp only [pure, Except.pure, Except.map, Option.some.injEq, reduceCtorEq, decide_false,
          Bool.false_or, Except.ok.injEq]
        by_cases heq : event.1 = offset
        · simp only [heq, decide_true, Bool.true_or, if_true, CanaryTest.forceHard]
        · simp only [heq, decide_false, Bool.false_or, if_false]

variable {test : CanaryTest}

theorem markedTest_of_eq (heq : event.1 = offset)
    (h : markedTest sha256 s miner text repeatSeed repeatTarget none testIndex event = .ok test) :
    markedTest sha256 s miner text repeatSeed repeatTarget (some offset) testIndex event =
      .ok test.forceHard := by
  rw [markedTest_some, h]
  exact congrArg Except.ok (if_pos heq)

theorem markedTest_of_ne (hne : event.1 ≠ offset)
    (h : markedTest sha256 s miner text repeatSeed repeatTarget none testIndex event = .ok test) :
    markedTest sha256 s miner text repeatSeed repeatTarget (some offset) testIndex event =
      .ok test := by
  rw [markedTest_some, h]
  exact congrArg Except.ok (if_neg hne)

theorem ratesValid_of_markedTest {forcedOffset : Option ℕ}
    (h : markedTest sha256 s miner text repeatSeed repeatTarget forcedOffset testIndex event =
      .ok test) : s.RatesValid := by
  simp only [markedTest, bind_eq_ok] at h
  obtain ⟨category, hcategory, -⟩ := h
  simp only [independentFullDecodeCategory, bind_eq_ok, raiseIf_eq_ok] at hcategory
  obtain ⟨-, hrates, -⟩ := hcategory
  rw [CanaryScheduler.RatesValid]
  omega

theorem verifyProof_of_markedTest
    (h : markedTest sha256 s miner text repeatSeed repeatTarget (some event.1) testIndex event =
      .ok test) : test.verifyProof = true := by
  rw [markedTest_some] at h
  cases hnone : markedTest sha256 s miner text repeatSeed repeatTarget none testIndex event with
  | error e =>
    rw [hnone] at h
    exact nomatch h
  | ok plain =>
    rw [hnone, Except.map, Except.ok.injEq, if_pos rfl] at h
    rw [← h]
    rfl

/-- Candidates at distinct offsets, one of which is forced: one test is forced. -/
theorem mapM_markedTest_some {items : List ((ℕ × Bytes) × ℕ)} {tests : List CanaryTest}
    (hoffsets : (items.map fun item => item.1.1).Nodup)
    (hoffset : offset ∈ items.map fun item => item.1.1)
    (h : items.mapM (fun item => markedTest sha256 s miner text repeatSeed repeatTarget none item.2
      item.1) = .ok tests) :
    ∃ place < tests.length, items.mapM (fun item => markedTest sha256 s miner text repeatSeed
      repeatTarget (some offset) item.2 item.1) =
        .ok (tests.modify place CanaryTest.forceHard) := by
  simp only [mapM_eq_ok] at h ⊢
  induction h with
  | nil => simp at hoffset
  | @cons item test items tests hhead htail ih =>
    rw [List.map_cons, List.nodup_cons] at hoffsets
    rw [List.map_cons, List.mem_cons] at hoffset
    by_cases heq : item.1.1 = offset
    · -- the forced candidate stands first, and no other one has its offset
      refine ⟨0, Nat.zero_lt_succ _, ?_⟩
      rw [List.modify_zero_cons]
      refine .cons (markedTest_of_eq heq hhead) ?_
      refine List.forall₂_iff_get.mpr ⟨htail.length_eq, fun i hi hi' => ?_⟩
      refine markedTest_of_ne (fun hsame => hoffsets.1 ?_) (htail.get hi hi')
      rw [heq, ← hsame]
      exact List.mem_map.mpr ⟨_, List.get_mem items ⟨i, hi⟩, rfl⟩
    · obtain ⟨place, hplace, hrest⟩ :=
        ih hoffsets.2 (hoffset.resolve_left fun h => heq h.symm)
      refine ⟨place + 1, Nat.succ_lt_succ hplace, ?_⟩
      rw [List.modify_succ_cons]
      exact .cons (markedTest_of_ne heq hhead) hrest

end Candidate

/-! ## The candidates of an endpoint -/

variable {basis : List Bytes}

/-- The candidates that the draws give. -/
def Drawn (sha256 : Bytes → Digest) (s : CanaryScheduler) (basis : List Bytes)
    (events : List (ℕ × Bytes)) : Prop :=
  ∃ drawn, (List.range s.epochBlocks).mapM (candidateEvent sha256 s basis) = .ok drawn ∧
    events = drawn.filterMap id

/-- The candidate that is made when an endpoint is due and has none. -/
def droughtEvent (sha256 : Bytes → Digest) (s : CanaryScheduler) (basis : List Bytes) :
    ℕ × Bytes :=
  let forcedSeed := derive sha256 (asciiBytes "VERATHOS/CANARY/MARKED_DROUGHT_EVENT/V3") basis
  ((seedInt sha256 forcedSeed "forced_candidate_block" s.epochBlocks).toNat, forcedSeed)

variable {events : List (ℕ × Bytes)}

theorem candidateEvents_eq_ok :
    candidateEvents sha256 u s miner basis = .ok events ↔ ∃ drawn, Drawn sha256 s basis drawn ∧
      events = if hardAuditDue u s miner = true ∧ drawn = [] then [droughtEvent sha256 s basis]
        else drawn := by
  rw [candidateEvents, bind_eq_ok]
  constructor
  · rintro ⟨drawn, hdrawn, h⟩
    refine ⟨_, ⟨drawn, hdrawn, rfl⟩, ?_⟩
    dsimp only at h
    split_ifs at h ⊢ with hforced
    · exact (pure_eq_ok.mp h).symm
    · exact (pure_eq_ok.mp h).symm
  · rintro ⟨_, ⟨drawn, hdrawn, rfl⟩, rfl⟩
    refine ⟨drawn, hdrawn, ?_⟩
    dsimp only
    split_ifs with hforced
    · rfl
    · rfl

theorem Drawn.sublist (h : Drawn sha256 s basis events) :
    (events.map Prod.fst).Sublist (List.range s.epochBlocks) := by
  obtain ⟨drawn, hdrawn, rfl⟩ := h
  have hpairs := mapM_eq_ok.mp hdrawn
  clear hdrawn
  generalize List.range s.epochBlocks = offsets at hpairs ⊢
  induction hpairs with
  | nil => exact .slnil
  | @cons offset event offsets drawn hhead _ ih =>
    simp only [candidateEvent, bind_eq_ok, pure_eq_ok] at hhead
    obtain ⟨_, -, rfl⟩ := hhead
    split_ifs with hnone
    · exact ih.cons _
    · exact ih.cons_cons _

theorem Drawn.nodup_offsets (h : Drawn sha256 s basis events) : (events.map Prod.fst).Nodup :=
  List.nodup_range.sublist h.sublist

/-! ## The plan of an endpoint -/

/-- The tests of the candidates, in the order of the queue. -/
def markedTests (sha256 : Bytes → Digest) (s : CanaryScheduler) (miner : Miner) (text : PromptText)
    (repeatSeed : Bytes) (forcedOffset : Option ℕ) (events : List (ℕ × Bytes)) :
    Result (List CanaryTest) :=
  ((events.insertionSort eventLe).zipIdx (s.smallCount + 1)).mapM fun item =>
    markedTest sha256 s miner text repeatSeed
      (repeatPrefixTarget s (safeContextTarget s (contextLimit s miner) (decodeCap s miner)))
      forcedOffset item.2 item.1

/-- What the plan of a hard auditor needs apart from the candidates. -/
def Prepared (sha256 : Bytes → Digest) (u : LowerCase) (s : CanaryScheduler) (miner : Miner)
    (text : PromptText) (repeatSeed : Bytes) (advertised : CanaryTest) (basis : List Bytes) : Prop :=
  s.smallCount = 0 ∧ checkHardAudit s = .ok () ∧ 0 < decodeCap s miner ∧
    (∃ low, repeatPrefixSeed sha256 u s miner "low" = .ok low) ∧
    repeatPrefixSeed sha256 u s miner "marked_full" = .ok repeatSeed ∧
    advertisedTest sha256 u s miner text repeatSeed
      (repeatPrefixTarget s (safeContextTarget s (contextLimit s miner) (decodeCap s miner)))
      s.smallCount = .ok advertised ∧
    scheduleBasis u s miner = .ok basis

variable {tests : List CanaryTest} {hardAuditDueEntries probationEntries : List (String × ℕ)}

theorem planMiner_eq_ok (henabled : s.hardAuditEnabled = true) :
    planMiner sha256 u s miner text = .ok tests ↔
      ∃ repeatSeed advertised basis events forcedOffset marked,
        Prepared sha256 u s miner text repeatSeed advertised basis ∧
        candidateEvents sha256 u s miner basis = .ok events ∧
        forcedHardOffset sha256 u s miner basis events = .ok forcedOffset ∧
        markedTests sha256 s miner text repeatSeed forcedOffset events = .ok marked ∧
        tests = advertised :: marked := by
  simp only [planMiner, fullTests, hardAuditTests, if_pos henabled, bind_eq_ok, raiseIf_eq_ok,
    pure_eq_ok, not_and, not_not, not_le, exists_const]
  constructor
  · rintro ⟨low, hlow, hsmall, _, hlows, full, ⟨_, hchecks, hroom, repeatSeed, hrepeat, advertised,
      hadvertised, basis, hbasis, events, hevents, forcedOffset, hforced, marked, hmarked, rfl⟩,
      rfl⟩
    have hzero := hsmall henabled
    refine ⟨repeatSeed, advertised, basis, events, forcedOffset, marked,
      ⟨hzero, hchecks, hroom, ⟨low, hlow⟩, hrepeat, hadvertised, hbasis⟩, hevents, hforced,
      hmarked, ?_⟩
    rw [hzero] at hlows
    obtain rfl := pure_eq_ok.mp hlows
    rfl
  · rintro ⟨repeatSeed, advertised, basis, events, forcedOffset, marked,
      ⟨hzero, hchecks, hroom, ⟨low, hlow⟩, hrepeat, hadvertised, hbasis⟩, hevents, hforced,
      hmarked, rfl⟩
    refine ⟨low, hlow, fun _ => hzero, [], ?_, advertised :: marked, ⟨(), hchecks, hroom, repeatSeed,
      hrepeat, advertised, hadvertised, basis, hbasis, events, hevents, forcedOffset, hforced,
      marked, hmarked, rfl⟩, rfl⟩
    rw [hzero]
    rfl

/-- The plan of an endpoint that is not due: what the draws give. -/
theorem planMiner_eq_ok_of_not_due (henabled : s.hardAuditEnabled = true)
    (hplain : hardAuditDue u s miner = false) :
    planMiner sha256 u s miner text = .ok tests ↔
      ∃ repeatSeed advertised basis drawn marked,
        Prepared sha256 u s miner text repeatSeed advertised basis ∧
        Drawn sha256 s basis drawn ∧
        markedTests sha256 s miner text repeatSeed none drawn = .ok marked ∧
        tests = advertised :: marked := by
  simp only [planMiner_eq_ok henabled, candidateEvents_eq_ok, forcedHardOffset, hplain,
    Bool.false_eq_true, false_and, if_false, pure_eq_ok]
  constructor
  · rintro ⟨repeatSeed, advertised, basis, drawn, _, marked, hprepared, ⟨_, hdrawn, rfl⟩, rfl,
      hmarked, rfl⟩
    exact ⟨repeatSeed, advertised, basis, drawn, marked, hprepared, hdrawn, hmarked, rfl⟩
  · rintro ⟨repeatSeed, advertised, basis, drawn, marked, hprepared, hdrawn, hmarked, rfl⟩
    exact ⟨repeatSeed, advertised, basis, drawn, none, marked, hprepared, ⟨drawn, hdrawn, rfl⟩,
      rfl, hmarked, rfl⟩

/-- The candidates of an endpoint that is due. -/
def dueEvents (sha256 : Bytes → Digest) (s : CanaryScheduler) (basis : List Bytes)
    (drawn : List (ℕ × Bytes)) : List (ℕ × Bytes) :=
  if drawn = [] then [droughtEvent sha256 s basis] else drawn

/-- The selector of the forced candidate. -/
def dueSelector (sha256 : Bytes → Digest) (basis : List Bytes) : Bytes :=
  derive sha256 (asciiBytes "VERATHOS/CANARY/MARKED_DROUGHT_SELECT/V3") basis

/-- The plan of an endpoint that is due: one offset is forced. Without a drawn candidate it is the
one of the made candidate. -/
def DuePlan (sha256 : Bytes → Digest) (u : LowerCase) (s : CanaryScheduler) (miner : Miner)
    (text : PromptText) (tests : List CanaryTest) : Prop :=
  ∃ repeatSeed advertised basis drawn marked,
    Prepared sha256 u s miner text repeatSeed advertised basis ∧
    Drawn sha256 s basis drawn ∧
    (∃ event, getItem (dueEvents sha256 s basis drawn)
        (seedInt sha256 (dueSelector sha256 basis) "forced_candidate_index"
          (dueEvents sha256 s basis drawn).length).toNat = .ok event ∧
      markedTests sha256 s miner text repeatSeed (some event.1)
        (dueEvents sha256 s basis drawn) = .ok marked) ∧
    tests = advertised :: marked

theorem planMiner_eq_ok_of_due (henabled : s.hardAuditEnabled = true)
    (hdue : hardAuditDue u s miner = true) :
    planMiner sha256 u s miner text = .ok tests ↔ DuePlan sha256 u s miner text tests := by
  simp only [DuePlan, planMiner_eq_ok henabled, candidateEvents_eq_ok, forcedHardOffset, hdue,
    if_true, true_and, bind_eq_ok, pure_eq_ok]
  constructor
  · rintro ⟨repeatSeed, advertised, basis, _, _, marked, hprepared, ⟨drawn, hdrawn, rfl⟩,
      ⟨event, hevent, rfl⟩, hmarked, rfl⟩
    exact ⟨repeatSeed, advertised, basis, drawn, marked, hprepared, hdrawn,
      ⟨event, hevent, hmarked⟩, rfl⟩
  · rintro ⟨repeatSeed, advertised, basis, drawn, marked, hprepared, hdrawn,
      ⟨event, hevent, hmarked⟩, rfl⟩
    exact ⟨repeatSeed, advertised, basis, _, _, marked, hprepared, ⟨drawn, hdrawn, rfl⟩,
      ⟨event, hevent, rfl⟩, hmarked, rfl⟩

/-! ## Two plans of an endpoint -/

/-- The lists of due endpoints enter a plan only through whether the endpoint is due. -/
theorem planMiner_withDue_eq_ok (henabled : s.hardAuditEnabled = true)
    (hdue : hardAuditDue u (s.withDue hardAuditDueEntries probationEntries) miner = true) :
    planMiner sha256 u (s.withDue hardAuditDueEntries probationEntries) miner text = .ok tests ↔
      DuePlan sha256 u s miner text tests := planMiner_eq_ok_of_due henabled hdue

theorem dueEvents_ne_nil {drawn : List (ℕ × Bytes)} : dueEvents sha256 s basis drawn ≠ [] := by
  rw [dueEvents]
  split_ifs with hnone
  · exact List.cons_ne_nil _ _
  · exact hnone

theorem offsets_zipIdx (events : List (ℕ × Bytes)) (start : ℕ) :
    (((events.insertionSort eventLe).zipIdx start).map fun item => item.1.1).Perm
      (events.map Prod.fst) := by
  have hsplit : (((events.insertionSort eventLe).zipIdx start).map fun item => item.1.1) =
      (events.insertionSort eventLe).map Prod.fst := by
    rw [← List.zipIdx_map_fst start (events.insertionSort eventLe), List.map_map,
      List.zipIdx_map_fst]
    rfl
  rw [hsplit]
  exact (List.perm_insertionSort eventLe events).map Prod.fst

variable {forcedOffset : Option ℕ} {marked : List CanaryTest}

theorem markedTests_nil {repeatSeed : Bytes} :
    markedTests sha256 s miner text repeatSeed forcedOffset [] = .ok marked ↔ marked = [] :=
  pure_eq_ok.trans eq_comm

theorem length_markedTests {repeatSeed : Bytes}
    (h : markedTests sha256 s miner text repeatSeed forcedOffset events = .ok marked) :
    marked.length = events.length := by
  rw [← (mapM_eq_ok.mp h).length_eq, List.length_zipIdx, List.length_insertionSort]

theorem isMarked_of_markedTests {repeatSeed : Bytes}
    (h : markedTests sha256 s miner text repeatSeed forcedOffset events = .ok marked) :
    ∀ test ∈ marked, IsMarked sha256 s miner text test :=
  forall_mem_of_mapM_eq_ok h fun item _ _ htest =>
    ⟨repeatSeed, _, forcedOffset, item.2, item.1, htest⟩

theorem accepts_markedTests {repeatSeed : Bytes} {offset : ℕ} :
    (∃ marked, markedTests sha256 s miner text repeatSeed (some offset) events = .ok marked) ↔
      ∃ marked, markedTests sha256 s miner text repeatSeed none events = .ok marked := by
  rw [markedTests, markedTests, exists_mapM_iff, exists_mapM_iff]
  refine forall₂_congr fun item _ => ?_
  rw [markedTest_some]
  cases markedTest sha256 s miner text repeatSeed _ none item.2 item.1 with
  | error e => simp [Except.map]
  | ok test => simp [Except.map]

variable {planned : List CanaryTest}

/-- The plan without a forced audit, from the plan with one. It has a candidate, or the rates are
valid. -/
theorem exists_planMiner_of_due (henabled : s.hardAuditEnabled = true)
    (hplain : hardAuditDue u s miner = false)
    (hdue : hardAuditDue u (s.withDue hardAuditDueEntries probationEntries) miner = true)
    (h : planMiner sha256 u (s.withDue hardAuditDueEntries probationEntries) miner text =
      .ok planned) :
    ∃ plain, planMiner sha256 u s miner text = .ok plain ∧ (plain.length ≠ 1 ∨ s.RatesValid) := by
  obtain ⟨repeatSeed, advertised, basis, drawn, marked, hprepared, hdrawn, ⟨event, -, hmarked⟩,
    rfl⟩ := (planMiner_withDue_eq_ok henabled hdue).mp h
  by_cases hnone : drawn = []
  · -- nothing is drawn: the made candidate shows that the rates are valid
    subst hnone
    refine ⟨[advertised], (planMiner_eq_ok_of_not_due henabled hplain).mpr ⟨repeatSeed, advertised,
      basis, [], [], hprepared, hdrawn, markedTests_nil.mpr rfl, rfl⟩, .inr ?_⟩
    have hlength := length_markedTests hmarked
    obtain ⟨test, rfl⟩ := List.length_eq_one_iff.mp hlength
    obtain ⟨_, _, _, _, _, htest⟩ :=
      isMarked_of_markedTests hmarked test (List.mem_singleton_self test)
    exact ratesValid_of_markedTest htest
  · rw [dueEvents, if_neg hnone] at hmarked
    obtain ⟨plain, hmarkedPlain⟩ := accepts_markedTests.mp ⟨marked, hmarked⟩
    refine ⟨advertised :: plain, (planMiner_eq_ok_of_not_due henabled hplain).mpr ⟨repeatSeed,
      advertised, basis, drawn, plain, hprepared, hdrawn, hmarkedPlain, rfl⟩, .inl ?_⟩
    have hlength := length_markedTests hmarkedPlain
    have hpos := List.length_pos_iff.mpr hnone
    rw [List.length_cons]
    omega

variable {plain : List CanaryTest}

theorem exists_planMiner_withDue (henabled : s.hardAuditEnabled = true)
    (hplain : hardAuditDue u s miner = false)
    (hdue : hardAuditDue u (s.withDue hardAuditDueEntries probationEntries) miner = true)
    (h : planMiner sha256 u s miner text = .ok plain) (hrates : plain.length ≠ 1 ∨ s.RatesValid) :
    ∃ planned, planMiner sha256 u (s.withDue hardAuditDueEntries probationEntries) miner text =
      .ok planned ∧ Forced sha256 s miner text plain planned := by
  obtain ⟨repeatSeed, advertised, basis, drawn, marked, hprepared, hdrawn, hmarked, rfl⟩ :=
    (planMiner_eq_ok_of_not_due henabled hplain).mp h
  obtain ⟨event, hmem, hevent⟩ := exists_getItem_seedInt sha256
    (dueEvents_ne_nil : dueEvents sha256 s basis drawn ≠ []) (dueSelector sha256 basis)
    "forced_candidate_index"
  by_cases hnone : drawn = []
  · -- the made candidate is the forced one
    subst hnone
    obtain rfl := markedTests_nil.mp hmarked
    have hvalid : s.RatesValid := hrates.resolve_left (not_not.mpr rfl)
    obtain rfl : event = droughtEvent sha256 s basis := List.mem_singleton.mp hmem
    obtain ⟨test, htest⟩ := exists_markedTest sha256 text repeatSeed (repeatPrefixTarget s
      (safeContextTarget s (contextLimit s miner) (decodeCap s miner))) hvalid hprepared.2.2.1
      (some (droughtEvent sha256 s basis).1) (s.smallCount + 1) (droughtEvent sha256 s basis)
    refine ⟨[advertised, test], (planMiner_withDue_eq_ok henabled hdue).mpr ⟨repeatSeed, advertised,
      basis, [], [test], hprepared, hdrawn, ⟨_, hevent, ?_⟩, rfl⟩,
      .add advertised test ⟨_, _, _, _, _, htest⟩ (verifyProof_of_markedTest htest)⟩
    exact mapM_eq_ok.mpr (.cons htest .nil)
  · -- one of the drawn candidates is forced
    rw [dueEvents, if_neg hnone] at hmem
    have hperm := offsets_zipIdx drawn (s.smallCount + 1)
    obtain ⟨place, hplace, hforced⟩ := mapM_markedTest_some
      (hperm.nodup_iff.mpr hdrawn.nodup_offsets)
      (hperm.mem_iff.mpr (List.mem_map_of_mem hmem)) hmarked
    refine ⟨_, (planMiner_withDue_eq_ok henabled hdue).mpr ⟨repeatSeed, advertised, basis, drawn,
      marked.modify place CanaryTest.forceHard, hprepared, hdrawn, ⟨event, hevent, ?_⟩, rfl⟩,
      .mark advertised marked place (isMarked_of_markedTests hmarked) hplace⟩
    rw [dueEvents, if_neg hnone]
    exact hforced

theorem accepts_planMiner_withDue (henabled : s.hardAuditEnabled = true)
    (hplain : hardAuditDue u s miner = false)
    (hdue : hardAuditDue u (s.withDue hardAuditDueEntries probationEntries) miner = true) :
    (∃ planned, planMiner sha256 u (s.withDue hardAuditDueEntries probationEntries) miner text =
      .ok planned) ↔
      ∃ plain, planMiner sha256 u s miner text = .ok plain ∧
        (plain.length ≠ 1 ∨ s.RatesValid) := by
  constructor
  · rintro ⟨planned, h⟩
    exact exists_planMiner_of_due henabled hplain hdue h
  · rintro ⟨plain, h, hrates⟩
    obtain ⟨planned, hplanned, -⟩ := exists_planMiner_withDue henabled hplain hdue h hrates
    exact ⟨planned, hplanned⟩

theorem forced_of_planMiner (henabled : s.hardAuditEnabled = true)
    (hplain : hardAuditDue u s miner = false)
    (hdue : hardAuditDue u (s.withDue hardAuditDueEntries probationEntries) miner = true)
    (h : planMiner sha256 u s miner text = .ok plain)
    (hplanned : planMiner sha256 u (s.withDue hardAuditDueEntries probationEntries) miner text =
      .ok planned) : Forced sha256 s miner text plain planned := by
  obtain ⟨plain', h', hrates⟩ := exists_planMiner_of_due henabled hplain hdue hplanned
  obtain rfl := Except.ok.inj (h.symm.trans h')
  obtain ⟨planned', hplanned', hforced⟩ :=
    exists_planMiner_withDue henabled hplain hdue h hrates
  rwa [Except.ok.inj (hplanned.symm.trans hplanned')]

/-- A plan with a forced audit has a test whose proof is verified. -/
theorem Forced.exists_verifyProof (h : Forced sha256 s miner text plain planned) :
    ∃ test ∈ planned, test.verifyProof = true := by
  cases h with
  | mark advertised marked place _ hplace =>
    refine ⟨(marked.get ⟨place, hplace⟩).forceHard, List.mem_cons_of_mem _ ?_, rfl⟩
    rw [List.mem_iff_getElem]
    refine ⟨place, by rwa [List.length_modify], ?_⟩
    rw [List.getElem_modify, if_pos rfl]
    rfl
  | add advertised test _ hhard =>
    exact ⟨test, List.mem_cons_of_mem _ (List.mem_singleton_self test), hhard⟩

end Drought

end Verathos.CanarySchedule
