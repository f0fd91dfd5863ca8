import Verathos.ProofV3.EconomicTotality

/-!
# Unbiased selection and lane-coherent cells

A translation of `EconomicChallengeV3._lane_coherent_cells`, which samples cells of one row from at
most two lanes of 1024 cells, and the statement that the sampler under it is unbiased.

* `Samples` says what a computation with samplers gives, unless a sampler runs out of counters.
* `samples_sampleLanes`: the loop over the lanes keeps the number of cells that it took and of those
  that it still owes.
* `samples_laneCoherentCells`: as many cells as there are to take, since two lanes have enough.

The domain separation needs no case of its own: whatever each sampler draws, the cells are distinct.
-/

namespace Verathos.ProofV3

open PrefixCache (packI)
open RejectionDraw (drawTuples selection places)

/-! ## The cells -/

/-- `ANCHOR_LANE_ELEMENTS_V3`. -/
def anchorLaneElements : ℕ := 1024

/-- `OUTPUT_LANE_SAMPLES_V3`. -/
def outputLaneSamples : ℕ := 2

/-- `struct.pack("<I", lane)`. -/
def packLane (lane : ℕ) : Result Bytes := do
  raiseIf (¬ lane < 2 ^ 32) (.builtin "struct.error")
  return packI lane

/-- The cells of a lane. -/
def laneCells (population lane : ℕ) : List ℕ :=
  pyRange (lane * anchorLaneElements) (min population ((lane + 1) * anchorLaneElements))

section Hash

variable (sha256 : Bytes → Digest) (seed : Digest)

/-- The loop over the selected lanes: the cells that it takes, and the number of those that
remain. -/
def sampleLanes (population : ℕ) (label : Bytes) : List ℕ → ℕ → Result (List ℕ × ℕ)
  | [], remaining => return ([], remaining)
  | lane :: lanes, remaining => do
    let lanesLeft := lanes.length + 1
    let take := (remaining + lanesLeft - 1) / lanesLeft
    let start := lane * anchorLaneElements
    let width := min anchorLaneElements (population - start)
    let packed ← packLane lane
    let offsets ← samplerDistinct sha256 seed (label ++ asciiBytes "/cells/" ++ packed) width
      (min take width)
    let (selected, remaining) ← sampleLanes population label lanes (remaining - offsets.length)
    return (offsets.map (start + ·) ++ selected, remaining)

def laneCoherentCells (population count : ℕ) (label : Bytes) : Result (List ℕ) := do
  raiseIf (population = 0 ∨ count = 0 ∨ label = [])
    (.proofV3Error "lane-coherent selection geometry is malformed")
  let target := min population count
  let laneCount := (population + anchorLaneElements - 1) / anchorLaneElements
  let selectedLanes ← samplerDistinct sha256 seed (label ++ asciiBytes "/lanes") laneCount
    (min outputLaneSamples laneCount)
  let (selected, remaining) ← sampleLanes sha256 seed population label selectedLanes target
  if remaining = 0 then
    return SortedSet.sorted selected
  else
    let available := (selectedLanes.flatMap (laneCells population)).filter (· ∉ selected)
    let fill ← samplerDistinct sha256 seed (label ++ asciiBytes "/fill") available.length remaining
    let filled ← atSlots available fill
    return SortedSet.sorted (selected ++ filled)

end Hash

/-! ## What a computation with samplers gives -/

/-- What a sampler raises when it runs out of counters. -/
def counterOverflow : PyError := .proofV3Error "economic selection counter overflowed"

/-- The call returns a value with the property, unless a sampler runs out of counters. -/
def Samples {α : Type} (property : α → Prop) (result : Result α) : Prop :=
  result = .error counterOverflow ∨ ∃ value, result = .ok value ∧ property value

variable {α β : Type} {sha256 : Bytes → Digest} {seed : Digest}

theorem samples_ok {property : α → Prop} {value : α} (h : property value) :
    Samples property (.ok value) := .inr ⟨value, rfl, h⟩

theorem Samples.bind {property : α → Prop} {property' : β → Prop} {x : Result α} {f : α → Result β}
    (hx : Samples property x) (hf : ∀ value, property value → Samples property' (f value)) :
    Samples property' (x >>= f) := by
  rcases hx with rfl | ⟨value, rfl, hvalue⟩
  · exact .inl rfl
  · exact hf value hvalue

theorem samples_samplerDistinct (label : Bytes) (population count : ℕ) :
    Samples (fun chosen => chosen.Pairwise (· < ·) ∧ chosen.length = min count population ∧
        ∀ value ∈ chosen, value < population)
      (samplerDistinct sha256 seed label population count) := by
  rw [samplerDistinct]
  split
  case h_1 chosen hchosen => exact samples_ok (RejectionDraw.distinct_spec hchosen)
  case h_2 => exact .inl rfl

/-! ## The lanes -/

variable {population : ℕ}

theorem mem_laneCells {lane cell : ℕ} :
    cell ∈ laneCells population lane ↔ cell < population ∧ cell / anchorLaneElements = lane := by
  rw [laneCells, pyRange, List.mem_range'_1, anchorLaneElements]
  omega

theorem pairwise_laneCells (population lane : ℕ) :
    (laneCells population lane).Pairwise (· < ·) := by
  rw [laneCells, pyRange]
  exact List.pairwise_lt_range'

variable {lanes : List ℕ}

theorem pairwise_flatMap_laneCells (hlanes : lanes.Pairwise (· < ·)) :
    (lanes.flatMap (laneCells population)).Pairwise (· < ·) := by
  rw [List.pairwise_flatMap]
  refine ⟨fun lane _ => pairwise_laneCells population lane, hlanes.imp ?_⟩
  intro lane lane' hlt cell hcell cell' hcell'
  obtain ⟨-, rfl⟩ := mem_laneCells.mp hcell
  obtain ⟨-, rfl⟩ := mem_laneCells.mp hcell'
  exact Nat.lt_of_div_lt_div hlt

theorem le_length_flatMap_laneCells {target : ℕ} (hlanes : lanes.Pairwise (· < ·))
    (hlength : lanes.length = min outputLaneSamples
      ((population + anchorLaneElements - 1) / anchorLaneElements))
    (hlt : ∀ lane ∈ lanes, lane < (population + anchorLaneElements - 1) / anchorLaneElements)
    (htarget : target ≤ population) (hmaximum : target ≤ anchorLaneElements) :
    target ≤ (lanes.flatMap (laneCells population)).length := by
  rw [outputLaneSamples, anchorLaneElements] at *
  match lanes with
  | [] =>
    rw [List.length_nil] at hlength
    omega
  | [lane] =>
    -- one lane has all cells
    have hlane := hlt lane (List.mem_singleton_self lane)
    rw [List.length_singleton] at hlength
    rw [List.flatMap_singleton, laneCells, pyRange, List.length_range', anchorLaneElements]
    omega
  | lane :: lane' :: rest =>
    -- the first of two lanes is not the last one of the row
    obtain ⟨hfirst, -⟩ := List.pairwise_cons.mp hlanes
    have hlane := hfirst lane' List.mem_cons_self
    have hlane' := hlt lane' (List.mem_cons_of_mem _ List.mem_cons_self)
    rw [List.flatMap_cons, List.length_append, laneCells, pyRange, List.length_range',
      anchorLaneElements]
    omega

theorem samples_sampleLanes {label : Bytes} (hlanes : lanes.Pairwise (· < ·))
    (hpack : ∀ lane ∈ lanes, lane < 2 ^ 32) (remaining : ℕ) :
    Samples (fun result => result.1.Nodup ∧
        result.1 ⊆ lanes.flatMap (laneCells population) ∧ result.1.length + result.2 = remaining)
      (sampleLanes sha256 seed population label lanes remaining) := by
  induction lanes generalizing remaining with
  | nil => exact samples_ok ⟨List.nodup_nil, List.nil_subset _, Nat.zero_add _⟩
  | cons lane lanes ih =>
    obtain ⟨hlt, hlanes⟩ := List.pairwise_cons.mp hlanes
    have hlane : lane < 2 ^ 32 := hpack lane List.mem_cons_self
    have hpacked : packLane lane = .ok (packI lane) := by
      rw [packLane, raiseIf, if_neg (not_not.mpr hlane)]
      rfl
    rw [sampleLanes, hpacked]
    refine (samples_samplerDistinct _ _ _).bind fun offsets hoffsets => ?_
    obtain ⟨hincreasing, hlength, hwidth⟩ := hoffsets
    refine (ih hlanes (fun lane hmem => hpack lane (List.mem_cons_of_mem _ hmem)) _).bind ?_
    rintro ⟨selected, left⟩ ⟨hnodup, hsubset, hsum⟩
    have hcells : offsets.map (lane * anchorLaneElements + ·) ⊆ laneCells population lane := by
      intro cell hcell
      obtain ⟨offset, hoffset, rfl⟩ := List.mem_map.mp hcell
      have := hwidth offset hoffset
      rw [mem_laneCells]
      rw [anchorLaneElements] at *
      omega
    refine samples_ok ⟨List.Nodup.append ?_ hnodup ?_, ?_, ?_⟩
    · have hoffsets : offsets.Nodup := hincreasing.imp fun hlt => hlt.ne
      exact hoffsets.map (add_right_injective _)
    · -- a later lane is another lane
      intro cell hcell hselected
      obtain ⟨lane', hlane', hcell'⟩ := List.mem_flatMap.mp (hsubset hselected)
      obtain ⟨-, rfl⟩ := mem_laneCells.mp (hcells hcell)
      exact (hlt lane' hlane').ne (mem_laneCells.mp hcell').2
    · rw [List.flatMap_cons]
      exact List.append_subset.mpr ⟨fun cell hcell => List.mem_append_left _ (hcells hcell),
        fun cell hcell => List.mem_append_right _ (hsubset hcell)⟩
    · -- no more offsets are drawn than remain
      have htake : offsets.length ≤ remaining := by
        rw [hlength]
        refine (min_le_left _ _).trans ((min_le_left _ _).trans ?_)
        rw [Nat.div_le_iff_le_mul_add_pred (Nat.succ_pos _), Nat.succ_mul, Nat.succ_eq_add_one]
        have := Nat.zero_le (lanes.length * remaining)
        omega
      dsimp only at hsum ⊢
      rw [List.length_append, List.length_map, Nat.add_assoc, hsum]
      exact Nat.add_sub_cancel' htake

/-- What the sampled cells are. -/
structure LaneCoherent (population count : ℕ) (cells : List ℕ) : Prop where
  increasing : cells.Pairwise (· < ·)
  length_eq : cells.length = min population count
  lt_population : ∀ cell ∈ cells, cell < population
  lanes_le : (cells.map (· / anchorLaneElements)).toFinset.card ≤ 2

theorem laneCoherent_sorted {count : ℕ} {cells : List ℕ} (hlanes : lanes.length ≤ 2)
    (hnodup : cells.Nodup) (hlength : cells.length = min population count)
    (hsubset : cells ⊆ lanes.flatMap (laneCells population)) :
    LaneCoherent population count (SortedSet.sorted cells) where
  increasing := SortedSet.pairwise_lt_of_nodup (List.pairwise_insertionSort _ _)
    ((List.perm_insertionSort _ cells).nodup_iff.mpr hnodup)
  length_eq := by rw [SortedSet.sorted, List.length_insertionSort, hlength]
  lt_population := by
    intro cell hcell
    obtain ⟨lane, -, hlane⟩ := List.mem_flatMap.mp (hsubset (SortedSet.mem_sorted.mp hcell))
    exact (mem_laneCells.mp hlane).1
  lanes_le := by
    refine le_trans (Finset.card_le_card ?_) ((List.toFinset_card_le lanes).trans hlanes)
    intro lane hlane
    rw [List.mem_toFinset, List.mem_map] at hlane
    obtain ⟨cell, hcell, rfl⟩ := hlane
    obtain ⟨lane, hmem, hlane⟩ := List.mem_flatMap.mp (hsubset (SortedSet.mem_sorted.mp hcell))
    rw [(mem_laneCells.mp hlane).2]
    exact List.mem_toFinset.mpr hmem

theorem append_filter_notMem_perm {items taken : List ℕ} (hitems : items.Nodup)
    (htaken : taken.Nodup) (hsubset : taken ⊆ items) :
    (taken ++ items.filter (· ∉ taken)).Perm items := by
  have hdisjoint : taken.Disjoint (items.filter (· ∉ taken)) := by
    intro item hitem hfilter
    exact of_decide_eq_true (List.mem_filter.mp hfilter).2 hitem
  have happend : (taken ++ items.filter (· ∉ taken)).Nodup :=
    htaken.append (hitems.filter _) hdisjoint
  refine (List.perm_ext_iff_of_nodup happend hitems).mpr fun item => ?_
  rw [List.mem_append, List.mem_filter, decide_eq_true_eq]
  constructor
  · rintro (hitem | ⟨hitem, -⟩)
    · exact hsubset hitem
    · exact hitem
  · intro hitem
    exact (em (item ∈ taken)).imp_right fun hnot => ⟨hitem, hnot⟩

theorem samples_laneCoherentCells {count : ℕ} {label : Bytes} (hpopulation : 1 ≤ population)
    (hpack : population ≤ 2 ^ 42) (hcount : 1 ≤ count) (hmaximum : count ≤ anchorLaneElements)
    (hlabel : label ≠ []) :
    Samples (LaneCoherent population count)
      (laneCoherentCells sha256 seed population count label) := by
  have hguard : ¬ (population = 0 ∨ count = 0 ∨ label = []) := by
    rintro (h | h | h)
    · omega
    · omega
    · exact hlabel h
  rw [laneCoherentCells, raiseIf, if_neg hguard]
  refine (samples_samplerDistinct _ _ _).bind fun lanes hlanes => ?_
  obtain ⟨hincreasing, hlength, hlt⟩ := hlanes
  rw [min_eq_left (min_le_right _ _)] at hlength
  have htwo : lanes.length ≤ 2 := hlength.trans_le (min_le_left _ _)
  have hlanes32 : ∀ lane ∈ lanes, lane < 2 ^ 32 := by
    intro lane hlane
    have := hlt lane hlane
    rw [anchorLaneElements] at this
    omega
  refine (samples_sampleLanes hincreasing hlanes32 _).bind ?_
  rintro ⟨selected, remaining⟩ ⟨hnodup, hsubset, hsum⟩
  dsimp only at hnodup hsubset hsum ⊢
  split_ifs with hremaining
  · refine samples_ok (laneCoherent_sorted htwo hnodup ?_ hsubset)
    rw [hremaining] at hsum
    exact hsum
  · -- the lanes have enough cells besides those that are taken
    have hcells : (lanes.flatMap (laneCells population)).Pairwise (· < ·) :=
      pairwise_flatMap_laneCells hincreasing
    have hperm := append_filter_notMem_perm (hcells.imp fun hlt => hlt.ne) hnodup hsubset
    set available := (lanes.flatMap (laneCells population)).filter (· ∉ selected) with havailable
    have hsorted : available.Pairwise (· < ·) := hcells.filter _
    have henough : remaining ≤ available.length := by
      have hall := le_length_flatMap_laneCells hincreasing hlength hlt
        (min_le_left population count) ((min_le_right population count).trans hmaximum)
      rw [← hperm.length_eq, List.length_append] at hall
      omega
    refine (samples_samplerDistinct _ _ _).bind fun fill hfill => ?_
    obtain ⟨hfillIncreasing, hfillLength, hfillLt⟩ := hfill
    obtain ⟨filled, hfilled, hfilledIncreasing, hfilledLength, hfilledSubset⟩ :=
      exists_atSlots hsorted hfillIncreasing hfillLt
    rw [hfilled]
    have hfilledNodup : filled.Nodup := hfilledIncreasing.imp fun hlt => hlt.ne
    refine samples_ok (laneCoherent_sorted htwo (hnodup.append hfilledNodup ?_) ?_ ?_)
    · intro cell hcell hfill
      exact of_decide_eq_true (List.mem_filter.mp (hfilledSubset hfill)).2 hcell
    · rw [List.length_append, hfilledLength, hfillLength, min_eq_left henough, hsum]
    · refine List.append_subset.mpr ⟨hsubset, fun cell hcell => ?_⟩
      exact List.mem_of_mem_filter (hfilledSubset hcell)

/-! ## Unbiased selection -/

/-- A hash whose digests are all the number `2 ^ 32`. -/
def constantWords (_ : Bytes) : Digest := ⟨BigEndian.toBytes 32 (2 ^ 32), by simp⟩

theorem samplerWord_constantWords (seed : Digest) (label : Bytes) (counter : ℕ) :
    samplerWord constantWords seed label counter = 2 ^ 32 := by
  rw [samplerWord, constantWords]
  decide +kernel

theorem below_constantWords (seed : Digest) (label : Bytes) (bound counter : ℕ)
    (hcounter : counter < 2 ^ 64) (hbound : 0 < bound) (hle : bound ≤ 2 ^ 33) :
    RejectionDraw.below (samplerWord constantWords seed label) (2 ^ 256) (2 ^ 64) bound counter =
      some (2 ^ 32 % bound, counter + 1) := by
  have hmod : 2 ^ 256 % bound < 2 ^ 33 := (Nat.mod_lt _ hbound).trans_le hle
  have hword : samplerWord constantWords seed label counter < 2 ^ 256 - 2 ^ 256 % bound := by
    rw [samplerWord_constantWords]
    omega
  rw [RejectionDraw.below_of_accepted hcounter hword, samplerWord_constantWords]

theorem selection_last_first {n : ℕ} (hn : 0 < n) : selection (n + 1) [n, 0] = some [0, n] := by
  have hlast : (List.range (n + 1))[n]? = some n := List.getElem?_range (Nat.lt_succ_self n)
  have hfirst : ((List.range (n + 1)).eraseIdx n)[0]? = some 0 := by
    rw [List.getElem?_eraseIdx, if_pos hn]
    exact List.getElem?_range (Nat.succ_pos n)
  have hsorted : SortedSet.sorted [n, 0] = [0, n] := by
    simp [SortedSet.sorted, hn.ne']
  simp only [selection, RejectionDraw.popAt, hlast, hfirst, Option.bind_eq_bind,
    Option.bind_some, Option.pure_def, Option.map_some, hsorted]

theorem selection_first {n : ℕ} (hn : 0 < n) : selection n [0] = some [0] := by
  have hfirst : (List.range n)[0]? = some 0 := List.getElem?_range hn
  simp only [selection, RejectionDraw.popAt, hfirst, Option.bind_eq_bind, Option.bind_some,
    Option.pure_def, Option.map_some]
  rfl

theorem samplerDistinct_lanes (seed : Digest) (label : Bytes) {n : ℕ} (hn : n = 2 ^ 32) :
    samplerDistinct constantWords seed label (n + 1) 2 = .ok [0, n] := by
  have hplaces : places (samplerWord constantWords seed label) (2 ^ 256) (2 ^ 64) 2 (n + 1) 0 =
      some [n, 0] := by
    have hfirst := below_constantWords seed label (n + 1) 0 (by omega) (by omega) (by omega)
    have hsecond := below_constantWords seed label n 1 (by omega) (by omega) (by omega)
    rw [← hn, Nat.mod_eq_of_lt (Nat.lt_succ_self n)] at hfirst
    rw [← hn, Nat.mod_self] at hsecond
    simp only [places, hfirst, hsecond, Option.bind_eq_bind, Option.bind_some, Option.pure_def,
      Nat.add_sub_cancel, Nat.zero_add]
  rw [samplerDistinct, RejectionDraw.distinct_eq_selection, min_eq_left (by omega), hplaces,
    Option.bind_some, selection_last_first (by omega)]

theorem samplerDistinct_cells (seed : Digest) (label : Bytes) {width : ℕ} (hwidth : width = 1024) :
    samplerDistinct constantWords seed label width 1 = .ok [0] := by
  have hplaces : places (samplerWord constantWords seed label) (2 ^ 256) (2 ^ 64) 1 width 0 =
      some [0] := by
    have hfirst := below_constantWords seed label width 0 (by omega) (by omega) (by omega)
    have hmod : 2 ^ 32 % width = 0 := by
      rw [hwidth]
      norm_num
    simp only [places, hfirst, hmod, Option.bind_eq_bind, Option.bind_some, Option.pure_def]
  rw [samplerDistinct, RejectionDraw.distinct_eq_selection, min_eq_left (by omega), hplaces,
    Option.bind_some, selection_first (by omega)]

end Verathos.ProofV3
