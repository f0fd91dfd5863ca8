import Verathos.CanarySchedule.Drought

/-!
# What the seeds of an epoch are derived from

The seed of a planned test is a hash of the endpoint and of a number, in a domain of its own. The
parts are joined with zero bytes, so the preimages of two endpoints differ when their addresses and
model identifiers hold no zero byte and the addresses differ in lower case.

* `SeedOrigin`: the number and the domain that a seed comes from;
* `preimage_injective`: the preimages determine the endpoint and the origin;
* `exists_seedOrigins`: the tests of an epoch have preimages that differ.
-/

namespace Verathos.CanarySchedule

open Receipts (utf8 utf8_injective)
open StableSort (sortBy_perm)

/-- What the seed of a planned test is derived from. -/
inductive SeedOrigin where
  | test (testIndex : ℕ)
  | event (blockOffset : ℕ)
  | drought
deriving DecidableEq

namespace SeedOrigin

/-- The domain of the hash. -/
def domain : SeedOrigin → Bytes
  | test _ => asciiBytes "VERATHOS/CANARY/SECRET/V3"
  | event _ => asciiBytes "VERATHOS/CANARY/MARKED_EVENT/V3"
  | drought => asciiBytes "VERATHOS/CANARY/MARKED_DROUGHT_EVENT/V3"

/-- The parts after those of the endpoint. -/
def numbers : SeedOrigin → List Bytes
  | test testIndex => [BigEndian.toBytes 4 testIndex]
  | event blockOffset => [BigEndian.toBytes 8 blockOffset]
  | drought => []

/-- The number fits its width. -/
def InRange : SeedOrigin → Prop
  | test testIndex => testIndex < 256 ^ 4
  | event blockOffset => blockOffset < 256 ^ 8
  | drought => True

end SeedOrigin

/-- The identity of an endpoint in a seed. -/
def Miner.key (u : LowerCase) (miner : Miner) : String × String × ℕ × String :=
  (u.lower miner.address, miner.modelId, miner.modelIndex, miner.endpoint)

/-- The parts of variable length before a part of fixed length hold no zero byte. -/
def Miner.NulFree (u : LowerCase) (miner : Miner) : Prop :=
  0 ∉ utf8 (u.lower miner.address) ∧ 0 ∉ utf8 miner.modelId

section Seeds

variable (sha256 : Bytes → Digest) (u : LowerCase) (s : CanaryScheduler) (miner : Miner)

/-- The parts of `scheduleBasis`, whose numbers fit their widths. -/
def basisParts : List Bytes :=
  [s.validatorSeed, s.epochSalt, BigEndian.toBytes 8 s.epochNumber, utf8 s.validatorHotkey,
    utf8 (u.lower miner.address), utf8 miner.modelId, BigEndian.toBytes 4 miner.modelIndex,
    utf8 miner.endpoint]

/-- The bytes that are hashed for an origin. -/
def SeedOrigin.preimage (origin : SeedOrigin) : Bytes :=
  origin.domain ++ List.intercalate [0] (basisParts u s miner ++ origin.numbers)

/-- The seed of a test: the hash itself, or for a candidate the hash of the hash. -/
def SeedOrigin.seed : SeedOrigin → Bytes
  | .test testIndex => (sha256 ((SeedOrigin.test testIndex).preimage u s miner)).bytes
  | origin => derive sha256 (asciiBytes "VERATHOS/CANARY/MARKED_PROMPT/V3")
      [(sha256 (origin.preimage u s miner)).bytes]

variable {sha256 u s miner} {text : PromptText} {basis : List Bytes}

/-! ## Preimages -/

theorem append_separator_inj {a b x y : Bytes} (ha : 0 ∉ a) (hb : 0 ∉ b)
    (h : a ++ 0 :: x = b ++ 0 :: y) : a = b ∧ x = y := by
  induction a generalizing b with
  | nil =>
    cases b with
    | nil => exact ⟨rfl, List.tail_eq_of_cons_eq h⟩
    | cons byte b =>
      obtain rfl := List.head_eq_of_cons_eq h
      exact absurd List.mem_cons_self hb
  | cons byte a ih =>
    cases b with
    | nil =>
      obtain rfl := List.head_eq_of_cons_eq h
      exact absurd List.mem_cons_self ha
    | cons byte' b =>
      obtain rfl := List.head_eq_of_cons_eq h
      obtain ⟨rfl, rfl⟩ := ih (fun hmem => ha (List.mem_cons_of_mem _ hmem))
        (fun hmem => hb (List.mem_cons_of_mem _ hmem)) (List.tail_eq_of_cons_eq h)
      exact ⟨rfl, rfl⟩

theorem append_separator_inj_of_length {a b x y : Bytes} (hlength : a.length = b.length)
    (h : a ++ 0 :: x = b ++ 0 :: y) : a = b ∧ x = y := by
  obtain ⟨rfl, htail⟩ := List.append_inj h hlength
  exact ⟨rfl, List.tail_eq_of_cons_eq htail⟩

theorem SeedOrigin.le_length_domain (origin : SeedOrigin) : 24 ≤ origin.domain.length := by
  cases origin with
  | test => exact (by decide : 24 ≤ (asciiBytes "VERATHOS/CANARY/SECRET/V3").length)
  | event => exact (by decide : 24 ≤ (asciiBytes "VERATHOS/CANARY/MARKED_EVENT/V3").length)
  | drought =>
    exact (by decide : 24 ≤ (asciiBytes "VERATHOS/CANARY/MARKED_DROUGHT_EVENT/V3").length)

variable {origin : SeedOrigin}

/-- Preimages that agree are of one kind: the domains differ within their first 24 bytes. -/
theorem SeedOrigin.kind_eq {origin' : SeedOrigin} {x y : Bytes}
    (h : origin.domain ++ x = origin'.domain ++ y) :
    (∃ i j, origin = .test i ∧ origin' = .test j) ∨
      (∃ i j, origin = .event i ∧ origin' = .event j) ∨ origin = .drought ∧ origin' = .drought := by
  have hprefix : origin.domain.take 24 = origin'.domain.take 24 := by
    have htake := congrArg (List.take 24) h
    rwa [List.take_append_of_le_length origin.le_length_domain,
      List.take_append_of_le_length origin'.le_length_domain] at htake
  have htest : (asciiBytes "VERATHOS/CANARY/SECRET/V3").take 24 ≠
      (asciiBytes "VERATHOS/CANARY/MARKED_EVENT/V3").take 24 := by decide +kernel
  have htest' : (asciiBytes "VERATHOS/CANARY/SECRET/V3").take 24 ≠
      (asciiBytes "VERATHOS/CANARY/MARKED_DROUGHT_EVENT/V3").take 24 := by decide +kernel
  have hevent : (asciiBytes "VERATHOS/CANARY/MARKED_EVENT/V3").take 24 ≠
      (asciiBytes "VERATHOS/CANARY/MARKED_DROUGHT_EVENT/V3").take 24 := by decide +kernel
  cases origin with
  | test i =>
    cases origin' with
    | test j => exact .inl ⟨i, j, rfl, rfl⟩
    | event j => exact absurd hprefix htest
    | drought => exact absurd hprefix htest'
  | event i =>
    cases origin' with
    | test j => exact absurd hprefix.symm htest
    | event j => exact .inr (.inl ⟨i, j, rfl, rfl⟩)
    | drought => exact absurd hprefix hevent
  | drought =>
    cases origin' with
    | test j => exact absurd hprefix.symm htest'
    | event j => exact absurd hprefix.symm hevent
    | drought => exact .inr (.inr ⟨rfl, rfl⟩)

/-- The parts from the address on. The parts before it are those of the epoch and the validator. -/
theorem intercalate_basisParts (numbers : List Bytes) :
    List.intercalate [0] (basisParts u s miner ++ numbers) =
      List.intercalate [0] [s.validatorSeed, s.epochSalt, BigEndian.toBytes 8 s.epochNumber,
        utf8 s.validatorHotkey] ++ 0 :: (utf8 (u.lower miner.address) ++ 0 ::
          (utf8 miner.modelId ++ 0 :: (BigEndian.toBytes 4 miner.modelIndex ++ 0 ::
            List.intercalate [0] (utf8 miner.endpoint :: numbers)))) := by
  simp only [basisParts, List.cons_append, List.nil_append, List.intercalate_cons_cons,
    List.intercalate_singleton, List.append_assoc]

variable {miner' : Miner}

theorem parts_inj (hnul : miner.NulFree u) (hnul' : miner'.NulFree u)
    (hindex : miner.modelIndex < 256 ^ 4) (hindex' : miner'.modelIndex < 256 ^ 4)
    {numbers numbers' : List Bytes}
    (h : List.intercalate [0] (basisParts u s miner ++ numbers) =
      List.intercalate [0] (basisParts u s miner' ++ numbers')) :
    u.lower miner.address = u.lower miner'.address ∧ miner.modelId = miner'.modelId ∧
      miner.modelIndex = miner'.modelIndex ∧
      List.intercalate [0] (utf8 miner.endpoint :: numbers) =
        List.intercalate [0] (utf8 miner'.endpoint :: numbers') := by
  rw [intercalate_basisParts, intercalate_basisParts] at h
  obtain ⟨haddress, h⟩ :=
    append_separator_inj hnul.1 hnul'.1 (List.tail_eq_of_cons_eq (List.append_cancel_left h))
  obtain ⟨hmodel, h⟩ := append_separator_inj hnul.2 hnul'.2 h
  obtain ⟨hbytes, h⟩ := append_separator_inj_of_length (by simp) h
  exact ⟨utf8_injective haddress, utf8_injective hmodel,
    BigEndian.toBytes_inj hindex hindex' hbytes, h⟩

theorem endpoint_number_inj {endpoint endpoint' : String} {width i j : ℕ} (hi : i < 256 ^ width)
    (hj : j < 256 ^ width)
    (h : List.intercalate [0] [utf8 endpoint, BigEndian.toBytes width i] =
      List.intercalate [0] [utf8 endpoint', BigEndian.toBytes width j]) :
    endpoint = endpoint' ∧ i = j := by
  simp only [List.intercalate_cons_cons, List.intercalate_singleton, List.append_assoc] at h
  obtain ⟨hendpoint, hnumber⟩ := List.append_inj' h (by simp)
  exact ⟨utf8_injective hendpoint,
    BigEndian.toBytes_inj hi hj (List.append_cancel_left hnumber)⟩

theorem preimage_injective {origin' : SeedOrigin} (hnul : miner.NulFree u)
    (hnul' : miner'.NulFree u) (hindex : miner.modelIndex < 256 ^ 4)
    (hindex' : miner'.modelIndex < 256 ^ 4) (hrange : origin.InRange) (hrange' : origin'.InRange)
    (h : origin.preimage u s miner = origin'.preimage u s miner') :
    miner.key u = miner'.key u ∧ origin = origin' := by
  rw [SeedOrigin.preimage, SeedOrigin.preimage] at h
  rcases SeedOrigin.kind_eq h with ⟨i, j, rfl, rfl⟩ | ⟨i, j, rfl, rfl⟩ | ⟨rfl, rfl⟩
  · obtain ⟨haddress, hmodel, hindices, hrest⟩ :=
      parts_inj hnul hnul' hindex hindex' (List.append_cancel_left h)
    obtain ⟨hendpoint, rfl⟩ := endpoint_number_inj hrange hrange' hrest
    rw [Miner.key, Miner.key, haddress, hmodel, hindices, hendpoint]
    exact ⟨rfl, rfl⟩
  · obtain ⟨haddress, hmodel, hindices, hrest⟩ :=
      parts_inj hnul hnul' hindex hindex' (List.append_cancel_left h)
    obtain ⟨hendpoint, rfl⟩ := endpoint_number_inj hrange hrange' hrest
    rw [Miner.key, Miner.key, haddress, hmodel, hindices, hendpoint]
    exact ⟨rfl, rfl⟩
  · obtain ⟨haddress, hmodel, hindices, hrest⟩ :=
      parts_inj hnul hnul' hindex hindex' (List.append_cancel_left h)
    rw [SeedOrigin.numbers, List.intercalate_singleton, List.intercalate_singleton] at hrest
    rw [Miner.key, Miner.key, haddress, hmodel, hindices, utf8_injective hrest]
    exact ⟨rfl, rfl⟩

/-! ## The seeds of a plan -/

/-- The test is for the endpoint, and its seed has the origin. -/
def HasOrigin (sha256 : Bytes → Digest) (u : LowerCase) (s : CanaryScheduler)
    (origin : Miner × SeedOrigin) (test : CanaryTest) : Prop :=
  test.minerAddress = origin.1.address ∧ test.minerEndpoint = origin.1.endpoint ∧
    test.modelId = origin.1.modelId ∧ test.modelIndex = origin.1.modelIndex ∧
    test.promptSeed = origin.2.seed sha256 u s origin.1

theorem scheduleBasis_eq_ok {basis : List Bytes} : scheduleBasis u s miner = .ok basis ↔
    s.epochNumber < 256 ^ 8 ∧ miner.modelIndex < 256 ^ 4 ∧ basis = basisParts u s miner := by
  simp only [scheduleBasis, toBytesBig, bind_eq_ok, raiseIf_eq_ok, pure_eq_ok, not_le]
  constructor
  · rintro ⟨_, ⟨_, hepoch, rfl⟩, _, ⟨_, hindex, rfl⟩, rfl⟩
    exact ⟨hepoch, hindex, rfl⟩
  · rintro ⟨hepoch, hindex, rfl⟩
    exact ⟨_, ⟨(), hepoch, rfl⟩, _, ⟨(), hindex, rfl⟩, rfl⟩

variable {repeatSeed : Bytes}

theorem hasOrigin_advertisedTest {repeatTarget : ℤ} {testIndex : ℕ} {test : CanaryTest}
    (h : advertisedTest sha256 u s miner text repeatSeed repeatTarget testIndex = .ok test) :
    testIndex < 256 ^ 4 ∧ HasOrigin sha256 u s (miner, .test testIndex) test := by
  simp only [advertisedTest, testSeed, toBytesBig, bind_eq_ok, raiseIf_eq_ok, pure_eq_ok,
    scheduleBasis_eq_ok, not_le] at h
  obtain ⟨_, ⟨_, ⟨-, -, rfl⟩, _, ⟨_, hindex, rfl⟩, rfl⟩, _, -, _, -, rfl⟩ := h
  exact ⟨hindex, rfl, rfl, rfl, rfl, rfl⟩

theorem hasOrigin_markedTest {repeatTarget : ℤ} {forcedOffset : Option ℕ} {testIndex : ℕ}
    {event : ℕ × Bytes} {test : CanaryTest} (hseed : origin.seed sha256 u s miner =
      derive sha256 (asciiBytes "VERATHOS/CANARY/MARKED_PROMPT/V3") [event.2])
    (h : markedTest sha256 s miner text repeatSeed repeatTarget forcedOffset testIndex event =
      .ok test) : HasOrigin sha256 u s (miner, origin) test := by
  simp only [markedTest, bind_eq_ok, pure_eq_ok] at h
  obtain ⟨_, -, _, -, _, -, rfl⟩ := h
  exact ⟨rfl, rfl, rfl, rfl, hseed.symm⟩

theorem Drawn.event_seed {events : List (ℕ × Bytes)} (hbasis : scheduleBasis u s miner = .ok basis)
    (h : Drawn sha256 s basis events) {event : ℕ × Bytes} (hmem : event ∈ events) :
    (SeedOrigin.event event.1).InRange ∧ (SeedOrigin.event event.1).seed sha256 u s miner =
      derive sha256 (asciiBytes "VERATHOS/CANARY/MARKED_PROMPT/V3") [event.2] := by
  obtain ⟨drawn, hdrawn, rfl⟩ := h
  obtain ⟨-, -, rfl⟩ := scheduleBasis_eq_ok.mp hbasis
  obtain ⟨_, hmem, rfl⟩ := List.mem_filterMap.mp hmem
  refine forall_mem_of_mapM_eq_ok (P := fun drawn => ∀ event, drawn = some event →
    (SeedOrigin.event event.1).InRange ∧ (SeedOrigin.event event.1).seed sha256 u s miner =
      derive sha256 (asciiBytes "VERATHOS/CANARY/MARKED_PROMPT/V3") [event.2]) hdrawn ?_ _ hmem _ rfl
  rintro offset - _ hcandidate event hsome
  simp only [candidateEvent, toBytesBig, bind_eq_ok, raiseIf_eq_ok, pure_eq_ok, not_le] at hcandidate
  obtain ⟨_, ⟨_, hoffset, rfl⟩, rfl⟩ := hcandidate
  split_ifs at hsome with hnone
  obtain rfl := Option.some.inj hsome
  exact ⟨hoffset, rfl⟩

theorem droughtEvent_seed (hbasis : scheduleBasis u s miner = .ok basis) :
    SeedOrigin.drought.seed sha256 u s miner =
      derive sha256 (asciiBytes "VERATHOS/CANARY/MARKED_PROMPT/V3")
        [(droughtEvent sha256 s basis).2] := by
  obtain ⟨-, -, rfl⟩ := scheduleBasis_eq_ok.mp hbasis
  rw [SeedOrigin.seed, SeedOrigin.preimage, SeedOrigin.numbers, List.append_nil]
  · rfl
  · exact fun _ => nofun

theorem exists_origins_of_markedTests {forcedOffset : Option ℕ} {events : List (ℕ × Bytes)}
    {marked : List CanaryTest} (origin : ℕ → SeedOrigin)
    (hseed : ∀ event ∈ events, (origin event.1).InRange ∧
      (origin event.1).seed sha256 u s miner =
        derive sha256 (asciiBytes "VERATHOS/CANARY/MARKED_PROMPT/V3") [event.2])
    (h : markedTests sha256 s miner text repeatSeed forcedOffset events = .ok marked) :
    ∃ offsets : List ℕ, offsets.Perm (events.map Prod.fst) ∧
      List.Forall₂ (HasOrigin sha256 u s) (offsets.map fun offset => (miner, origin offset))
        marked := by
  refine ⟨_, offsets_zipIdx events (s.smallCount + 1), ?_⟩
  rw [List.map_map, List.forall₂_map_left_iff]
  have hpairs := mapM_eq_ok.mp h
  refine List.forall₂_iff_zip.mpr ⟨hpairs.length_eq, fun {item test} hmem => ?_⟩
  have hevent : item.1 ∈ events := by
    rw [← List.mem_insertionSort eventLe]
    exact List.fst_mem_of_mem_zipIdx (List.of_mem_zip hmem).1
  exact hasOrigin_markedTest (hseed item.1 hevent).2 ((List.forall₂_iff_zip.mp hpairs).2 hmem)

theorem exists_origins_of_planMiner (henabled : s.hardAuditEnabled = true)
    {tests : List CanaryTest} (h : planMiner sha256 u s miner text = .ok tests) :
    miner.modelIndex < 256 ^ 4 ∧ ∃ origins : List SeedOrigin,
      List.Forall₂ (HasOrigin sha256 u s) (origins.map fun origin => (miner, origin)) tests ∧
      origins.Nodup ∧ ∀ origin ∈ origins, origin.InRange := by
  obtain ⟨repeatSeed, advertised, basis, events, forcedOffset, marked, hprepared, hevents, -,
    hmarked, rfl⟩ := (planMiner_eq_ok henabled).mp h
  obtain ⟨-, -, -, -, -, hadvertised, hbasis⟩ := hprepared
  obtain ⟨-, hindex, -⟩ := scheduleBasis_eq_ok.mp hbasis
  obtain ⟨hrange, hadvertised⟩ := hasOrigin_advertisedTest hadvertised
  obtain ⟨drawn, hdrawn, rfl⟩ := candidateEvents_eq_ok.mp hevents
  refine ⟨hindex, ?_⟩
  split_ifs at hmarked with hforced
  · -- the only candidate is the one that is made
    obtain ⟨offsets, hperm, horigins⟩ := exists_origins_of_markedTests (fun _ => .drought)
      (fun event hmem => by
        obtain rfl := List.mem_singleton.mp hmem
        exact ⟨trivial, droughtEvent_seed hbasis⟩) hmarked
    obtain rfl := List.perm_singleton.mp hperm
    refine ⟨[.test s.smallCount, .drought], .cons hadvertised horigins, ?_, ?_⟩
    · rw [List.nodup_cons]
      exact ⟨by simp, List.nodup_singleton _⟩
    · intro origin hmem
      simp only [List.mem_cons, List.not_mem_nil, or_false] at hmem
      rcases hmem with rfl | rfl
      · exact hrange
      · trivial
  · obtain ⟨offsets, hperm, horigins⟩ := exists_origins_of_markedTests SeedOrigin.event
      (fun event hmem => hdrawn.event_seed hbasis hmem) hmarked
    refine ⟨.test s.smallCount :: offsets.map SeedOrigin.event, .cons hadvertised ?_, ?_, ?_⟩
    · rw [List.map_map]
      exact horigins
    · rw [List.nodup_cons]
      refine ⟨by simp, List.Nodup.map (fun _ _ => SeedOrigin.event.inj) ?_⟩
      exact hperm.nodup_iff.mpr hdrawn.nodup_offsets
    · refine List.forall_mem_cons.mpr ⟨hrange, fun origin hmem => ?_⟩
      obtain ⟨offset, hoffset, rfl⟩ := List.mem_map.mp hmem
      obtain ⟨event, hevent, rfl⟩ := List.mem_map.mp (hperm.mem_iff.mp hoffset)
      exact (hdrawn.event_seed hbasis hevent).1

/-! ## The seeds of an epoch -/

/-- The preimage of a planned test. -/
def preimageOf (u : LowerCase) (s : CanaryScheduler) (origin : Miner × SeedOrigin) : Bytes :=
  origin.2.preimage u s origin.1

theorem exists_origins_of_plans (henabled : s.hardAuditEnabled = true) {miners : List Miner}
    {plans : List (List CanaryTest)} (hnul : ∀ miner ∈ miners, miner.NulFree u)
    (hkeys : (miners.map (Miner.key u)).Nodup)
    (h : List.Forall₂ (fun miner tests => planMiner sha256 u s miner text = .ok tests) miners
      plans) :
    ∃ origins, List.Forall₂ (HasOrigin sha256 u s) origins plans.flatten ∧
      (origins.map (preimageOf u s)).Nodup ∧
      ∀ origin ∈ origins, origin.1 ∈ miners ∧ origin.1.modelIndex < 256 ^ 4 ∧ origin.2.InRange := by
  induction h with
  | nil => exact ⟨[], .nil, List.nodup_nil, fun _ hmem => nomatch hmem⟩
  | @cons miner tests miners plans hhead htail ih =>
    rw [List.map_cons, List.nodup_cons] at hkeys
    obtain ⟨rest, hrest, hnodupRest, hmemRest⟩ :=
      ih (fun miner hmem => hnul miner (List.mem_cons_of_mem _ hmem)) hkeys.2
    obtain ⟨hindex, origins, horigins, hnodup, hranges⟩ :=
      exists_origins_of_planMiner henabled hhead
    have hminer := hnul miner List.mem_cons_self
    refine ⟨origins.map (fun origin => (miner, origin)) ++ rest, ?_, ?_, ?_⟩
    · rw [List.flatten_cons]
      exact List.rel_append horigins hrest
    · rw [List.map_append, List.nodup_append, List.map_map]
      refine ⟨?_, hnodupRest, ?_⟩
      · refine hnodup.map_on fun a ha b hb heq => ?_
        exact (preimage_injective hminer hminer hindex hindex (hranges a ha) (hranges b hb) heq).2
      · -- the endpoints have different keys
        rintro _ hfirst _ hsecond rfl
        obtain ⟨origin, horigin, rfl⟩ := List.mem_map.mp hfirst
        obtain ⟨⟨other, origin'⟩, hother, heq⟩ := List.mem_map.mp hsecond
        obtain ⟨hmem, hindex', hrange'⟩ := hmemRest _ hother
        have hkey := (preimage_injective hminer (hnul other (List.mem_cons_of_mem _ hmem)) hindex
          hindex' (hranges origin horigin) hrange' heq.symm).1
        exact hkeys.1 (hkey ▸ List.mem_map_of_mem hmem)
    · intro origin hmem
      rcases List.mem_append.mp hmem with hfirst | hsecond
      · obtain ⟨origin, horigin, rfl⟩ := List.mem_map.mp hfirst
        exact ⟨List.mem_cons_self, hindex, hranges origin horigin⟩
      · obtain ⟨hmem, hrest⟩ := hmemRest origin hsecond
        exact ⟨List.mem_cons_of_mem _ hmem, hrest⟩

theorem exists_seedOrigins (henabled : s.hardAuditEnabled = true) {miners : List Miner}
    {planned : CanaryScheduler} (hnul : ∀ miner ∈ miners, miner.NulFree u)
    (hkeys : (miners.map (Miner.key u)).Nodup)
    (h : planEpoch sha256 u s text miners = .ok planned) :
    ∃ origins, List.Forall₂ (HasOrigin sha256 u s) origins planned.tests ∧
      (origins.map (preimageOf u s)).Nodup := by
  obtain ⟨plans, hplans, rfl⟩ := planEpoch_eq_ok.mp h
  obtain ⟨origins, horigins, hnodup, -⟩ := exists_origins_of_plans henabled hnul hkeys hplans
  -- the queue is the plans in another order, and the origins follow it
  have hsorted : Relation.Comp (List.Forall₂ (HasOrigin sha256 u s)) List.Perm origins
      (StableSort.sortBy queueKey plans.flatten) := ⟨_, horigins, (sortBy_perm queueKey _).symm⟩
  rw [List.forall₂_comp_perm_eq_perm_comp_forall₂] at hsorted
  obtain ⟨sorted, hperm, hsorted⟩ := hsorted
  exact ⟨sorted, hsorted, (hperm.map _).nodup_iff.mp hnodup⟩

end Seeds

/-- Forcing a hard audit is hidden and sufficient. For an endpoint that becomes due, the plan exists
exactly when it exists without being due and no candidate has to be made while the rates are invalid;
then it is the same plan with one marked test forced, or with a forced one added when there is no
marked test, and the proof of one test is verified. The tests of an epoch are derived from preimages
that differ, when the endpoints differ with their addresses in lower case and no address or model
identifier holds a zero byte. -/
theorem droughtForcing (sha256 : Bytes → Digest) (u : LowerCase) (text : PromptText)
    (s : CanaryScheduler) (henabled : s.hardAuditEnabled = true) :
    (∀ (miner : Miner) (hardAuditDueEntries probationEntries : List (String × ℕ)),
      hardAuditDue u s miner = false →
      hardAuditDue u (s.withDue hardAuditDueEntries probationEntries) miner = true →
      ((∃ planned, planMiner sha256 u (s.withDue hardAuditDueEntries probationEntries) miner text =
          .ok planned) ↔
        ∃ plain, planMiner sha256 u s miner text = .ok plain ∧
          (plain.length ≠ 1 ∨ s.RatesValid)) ∧
      ∀ plain planned, planMiner sha256 u s miner text = .ok plain →
        planMiner sha256 u (s.withDue hardAuditDueEntries probationEntries) miner text =
          .ok planned →
        Forced sha256 s miner text plain planned ∧ ∃ test ∈ planned, test.verifyProof = true) ∧
      ∀ (miners : List Miner) (planned : CanaryScheduler),
        (∀ miner ∈ miners, miner.NulFree u) → (miners.map (Miner.key u)).Nodup →
        planEpoch sha256 u s text miners = .ok planned →
        ∃ origins, List.Forall₂ (HasOrigin sha256 u s) origins planned.tests ∧
          (origins.map (preimageOf u s)).Nodup := by
  constructor
  · intro miner hardAuditDueEntries probationEntries hplain hdue
    refine ⟨accepts_planMiner_withDue henabled hplain hdue, fun plain planned h hplanned => ?_⟩
    have hforced := forced_of_planMiner henabled hplain hdue h hplanned
    exact ⟨hforced, hforced.exists_verifyProof⟩
  · intro miners planned hnul hkeys h
    exact exists_seedOrigins henabled hnul hkeys h

/-- An endpoint of the small epoch that becomes due. -/
theorem droughtForcing_small :
    ∃ plain planned, planMiner (fun _ => .zero) .ascii smallHardAuditor (smallMiner 0 4096)
        (fun _ _ _ _ => "") = .ok plain ∧
      planMiner (fun _ => .zero) .ascii (smallHardAuditor.withDue [("0xa", 0)] [])
        (smallMiner 0 4096) (fun _ _ _ _ => "") = .ok planned ∧
      Forced (fun _ => .zero) smallHardAuditor (smallMiner 0 4096) (fun _ _ _ _ => "") plain
          planned ∧
        ∃ test ∈ planned, test.verifyProof = true := by
  obtain ⟨plain, hplain⟩ : Accepts (planMiner (fun _ => .zero) .ascii smallHardAuditor
      (smallMiner 0 4096) fun _ _ _ _ => "") := by decide +kernel
  obtain ⟨planned, hplanned⟩ : Accepts (planMiner (fun _ => .zero) .ascii
      (smallHardAuditor.withDue [("0xa", 0)] []) (smallMiner 0 4096) fun _ _ _ _ => "") := by
    decide +kernel
  exact ⟨plain, planned, hplain, hplanned,
    ((droughtForcing (fun _ => .zero) .ascii (fun _ _ _ _ => "") smallHardAuditor rfl).1
      (smallMiner 0 4096) [("0xa", 0)] [] (by decide +kernel) (by decide +kernel)).2 plain planned
        hplain hplanned⟩

/-- The digest of ones. -/
def onesDigest : Digest := Digest.fill 255

/-- A hard auditor with few candidates, whose decode rates are invalid. -/
def unratedHardAuditor : CanaryScheduler :=
  { smallHardAuditor with hardCandidateTargetPerEpoch := 1, hardDecodeAnchorBps := 0 }

/-- An endpoint of the small epoch, under another address and model. -/
def namedMiner (address modelId : String) : Miner :=
  { smallMiner 0 4096 with address, modelId }

/-- With invalid rates an endpoint without candidates has a plan that it loses when it is due. Two
endpoints have the same preimages when their addresses differ in case only, or when a zero byte moves
between address and model identifier. -/
theorem droughtForcing_fails :
    (Accepts (planMiner (fun _ => onesDigest) .ascii unratedHardAuditor (smallMiner 0 4096)
        fun _ _ _ _ => "") ∧
      ¬ Accepts (planMiner (fun _ => onesDigest) .ascii (unratedHardAuditor.withDue [("0xa", 0)] [])
        (smallMiner 0 4096) fun _ _ _ _ => "")) ∧
      (Accepts (planEpoch (fun _ => .zero) .ascii smallHardAuditor (fun _ _ _ _ => "")
          [namedMiner "0xA" "m", namedMiner "0xa" "m"]) ∧
        (SeedOrigin.test 0).preimage .ascii smallHardAuditor (namedMiner "0xA" "m") =
          (SeedOrigin.test 0).preimage .ascii smallHardAuditor (namedMiner "0xa" "m")) ∧
      Accepts (planEpoch (fun _ => .zero) .ascii smallHardAuditor (fun _ _ _ _ => "")
          [namedMiner "0xa\x00b" "m", namedMiner "0xa" "b\x00m"]) ∧
        (SeedOrigin.test 0).preimage .ascii smallHardAuditor (namedMiner "0xa\x00b" "m") =
          (SeedOrigin.test 0).preimage .ascii smallHardAuditor (namedMiner "0xa" "b\x00m") := by
  refine ⟨⟨?_, ?_⟩, ⟨?_, ?_⟩, ?_, ?_⟩
  all_goals decide +kernel

end Verathos.CanarySchedule
