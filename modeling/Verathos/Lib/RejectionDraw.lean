import Mathlib.Data.List.Permutation
import Verathos.Lib.SortedSet

/-!
# Draws by rejection

Draws without replacement from the words of a stream (`RejectionDraw`), and draws of distinct residues
(`DistinctDraw`).
-/

/-!
## Drawing without replacement by rejection

A stream gives a word below `span` for every counter. A value below a bound is the residue of the
first word under the largest multiple of the bound, so that it is unbiased; items are drawn without
replacement by popping at such a value. The counter has a limit, and a draw that reaches it fails.

* `pops_spec`: the drawn items are as many as asked for, and come from different places.
* `distinct_spec`: distinct values below the population, in increasing order.
* `exists_distinct`: a stream in which every window has a small word never reaches the limit.
-/

namespace RejectionDraw

variable {α : Type} (word : ℕ → ℕ) (span limit : ℕ)

/-- The first of the next `fuel` counters whose word is below the ceiling. -/
def search (ceiling : ℕ) : ℕ → ℕ → Option ℕ
  | 0, _ => none
  | fuel + 1, counter =>
    if word counter < ceiling then some counter else search ceiling fuel (counter + 1)

/-- A value below a positive bound, and the counter after it. -/
def below (bound counter : ℕ) : Option (ℕ × ℕ) :=
  (search word (span - span % bound) (limit - counter) counter).map fun found =>
    (word found % bound, found + 1)

/-- Draw `count` of the remaining items. -/
def pops : ℕ → List α → ℕ → Option (List α)
  | 0, _, _ => some []
  | count + 1, remaining, counter => do
    let (position, counter) ← below word span limit remaining.length counter
    let item ← remaining[position]?
    let chosen ← pops count (remaining.eraseIdx position) counter
    return item :: chosen

/-- Draw distinct values below the population, at most as many as there are. -/
def distinct (population count : ℕ) : Option (List ℕ) :=
  (pops word span limit (min count population) (List.range population) 0).map SortedSet.sorted

variable {word span limit}

/-! ## What is drawn -/

theorem lt_of_below {bound counter value counter' : ℕ} (hbound : 0 < bound)
    (h : below word span limit bound counter = some (value, counter')) : value < bound := by
  obtain ⟨found, -, heq⟩ := Option.map_eq_some_iff.mp h
  obtain ⟨rfl, -⟩ := Prod.mk.inj heq
  exact Nat.mod_lt _ hbound

theorem pops_spec {count counter : ℕ} {remaining chosen : List α}
    (h : pops word span limit count remaining counter = some chosen) :
    chosen.length = count ∧ chosen.Subperm remaining := by
  induction count generalizing remaining counter chosen with
  | zero =>
    obtain rfl := Option.some.inj h
    exact ⟨rfl, List.nil_subperm⟩
  | succ count ih =>
    simp only [pops, Option.bind_eq_bind, Option.bind_eq_some_iff, Option.pure_def,
      Option.some.injEq] at h
    obtain ⟨⟨position, counter'⟩, -, item, hitem, rest, hrest, rfl⟩ := h
    obtain ⟨hlength, hsubperm⟩ := ih hrest
    obtain ⟨hlt, rfl⟩ := List.getElem?_eq_some_iff.mp hitem
    refine ⟨by rw [List.length_cons, hlength], ?_⟩
    exact (List.subperm_cons _).mpr hsubperm |>.trans
      (List.getElem_cons_eraseIdx_perm hlt).subperm

theorem distinct_spec {population count : ℕ} {chosen : List ℕ}
    (h : distinct word span limit population count = some chosen) :
    chosen.Pairwise (· < ·) ∧ chosen.length = min count population ∧
      ∀ value ∈ chosen, value < population := by
  obtain ⟨values, hvalues, rfl⟩ := Option.map_eq_some_iff.mp h
  obtain ⟨hlength, hsubperm⟩ := pops_spec hvalues
  obtain ⟨values', hperm, hsublist⟩ := hsubperm
  have hnodup : values.Nodup := hperm.nodup_iff.mp (hsublist.nodup List.nodup_range)
  refine ⟨SortedSet.pairwise_lt_of_nodup (List.pairwise_insertionSort _ _) ?_, ?_, ?_⟩
  · exact (List.perm_insertionSort _ values).nodup_iff.mpr hnodup
  · rw [SortedSet.sorted, List.length_insertionSort, hlength]
  · intro value hvalue
    rw [SortedSet.mem_sorted] at hvalue
    exact List.mem_range.mp (hsublist.subset (hperm.mem_iff.mpr hvalue))

/-! ## Draws that succeed -/

/-- Every window of counters before the limit has a word that no bound up to `maximum` rejects. -/
def Dense (word : ℕ → ℕ) (span limit window maximum : ℕ) : Prop :=
  ∀ counter, counter + window ≤ limit →
    ∃ found, counter ≤ found ∧ found < counter + window ∧ word found < span - maximum

theorem exists_search {ceiling fuel counter target : ℕ} (hle : counter ≤ target)
    (hlt : target < counter + fuel) (hword : word target < ceiling) :
    ∃ found, search word ceiling fuel counter = some found ∧ found ≤ target := by
  induction fuel generalizing counter with
  | zero => omega
  | succ fuel ih =>
    rw [search]
    split_ifs with hfound
    · exact ⟨counter, rfl, hle⟩
    · have hne : counter ≠ target := fun heq => hfound (heq ▸ hword)
      exact ih (by omega) (by omega)

variable {window maximum : ℕ}

theorem exists_below {bound counter : ℕ} (hdense : Dense word span limit window maximum)
    (hbound : 0 < bound) (hle : bound ≤ maximum) (hlimit : counter + window ≤ limit) :
    ∃ value counter', below word span limit bound counter = some (value, counter') ∧
      counter' ≤ counter + window := by
  obtain ⟨target, hge, hlt, hword⟩ := hdense counter hlimit
  have hceiling : word target < span - span % bound := by
    have := Nat.mod_lt span hbound
    omega
  have htarget : target < counter + (limit - counter) := by omega
  obtain ⟨found, hfound, hle⟩ := exists_search hge htarget hceiling
  exact ⟨_, found + 1, by rw [below, hfound, Option.map_some], by omega⟩

theorem exists_pops {count counter : ℕ} {remaining : List α}
    (hdense : Dense word span limit window maximum) (hle : remaining.length ≤ maximum)
    (hcount : count ≤ remaining.length) (hlimit : counter + count * window ≤ limit) :
    ∃ chosen, pops word span limit count remaining counter = some chosen := by
  induction count generalizing remaining counter with
  | zero => exact ⟨[], rfl⟩
  | succ count ih =>
    rw [Nat.succ_mul] at hlimit
    have hwindow : counter + window ≤ limit := by omega
    obtain ⟨position, counter', hbelow, hcounter⟩ :=
      exists_below hdense (by omega : 0 < remaining.length) hle hwindow
    have hposition : position < remaining.length := lt_of_below (by omega) hbelow
    have hlength := List.length_eraseIdx_of_lt hposition
    obtain ⟨chosen, hchosen⟩ := @ih counter' (remaining.eraseIdx position) (by omega) (by omega)
      (by omega)
    refine ⟨remaining[position] :: chosen, ?_⟩
    simp [pops, hbelow, hposition, hchosen]

theorem exists_distinct {population count : ℕ} (hdense : Dense word span limit window maximum)
    (hle : population ≤ maximum) (hlimit : count * window ≤ limit) :
    ∃ chosen, distinct word span limit population count = some chosen := by
  have hcount : min count population * window ≤ limit :=
    (Nat.mul_le_mul_right window (min_le_left _ _)).trans hlimit
  have hexists : ∃ chosen, pops word span limit (min count population) (List.range population) 0 =
      some chosen := by
    apply exists_pops hdense
    · rwa [List.length_range]
    · rw [List.length_range]
      exact min_le_right _ _
    · omega
  obtain ⟨chosen, hchosen⟩ := hexists
  exact ⟨_, by rw [distinct, hchosen, Option.map_some]⟩

end RejectionDraw

/-!
## Rejection draws are uniform

A selection without replacement is a function of the places at which items are popped: the first
below the number of items, each next one below a number that is one less.

* `distinct_eq_selection`: the drawing loop pops at the places that it draws.
* `card_selection_eq`: of the tuples of places, exactly `k!` select each set of `k` items.
* `card_accepted`: of the words that are not rejected, the same number gives each value.
-/

namespace RejectionDraw

variable {α : Type}

/-- The places at which `count` of `length` items are popped. -/
def places (word : ℕ → ℕ) (span limit : ℕ) : ℕ → ℕ → ℕ → Option (List ℕ)
  | 0, _, _ => some []
  | count + 1, length, counter => do
    let (place, counter) ← below word span limit length counter
    let rest ← places word span limit count (length - 1) counter
    return place :: rest

/-- Pop the items at the places. -/
def popAt : List ℕ → List α → Option (List α)
  | [], _ => some []
  | place :: places, items => do
    let item ← items[place]?
    let rest ← popAt places (items.eraseIdx place)
    return item :: rest

/-- The values below the population that the places select, in increasing order. -/
def selection (population : ℕ) (draws : List ℕ) : Option (List ℕ) :=
  (popAt draws (List.range population)).map SortedSet.sorted

/-- The tuples of `count` places, the first below `population`, each next one below one less. -/
def drawTuples : ℕ → ℕ → Finset (List ℕ)
  | _, 0 => {[]}
  | population, count + 1 =>
    (Finset.range population ×ˢ drawTuples (population - 1) count).image fun draw =>
      draw.1 :: draw.2

variable {word : ℕ → ℕ} {span limit population count counter : ℕ} {items out : List α}
  {draws : List ℕ}

/-! ### Tuples of places -/

theorem mem_drawTuples_succ {draw : ℕ} :
    draw :: draws ∈ drawTuples population (count + 1) ↔
      draw < population ∧ draws ∈ drawTuples (population - 1) count := by
  simp [drawTuples]

theorem places_mem_drawTuples (hle : count ≤ population)
    (h : places word span limit count population counter = some draws) :
    draws ∈ drawTuples population count := by
  induction count generalizing population counter draws with
  | zero =>
    obtain rfl := Option.some.inj h
    exact Finset.mem_singleton_self _
  | succ count ih =>
    simp only [places, Option.bind_eq_bind, Option.bind_eq_some_iff, Option.pure_def,
      Option.some.injEq] at h
    obtain ⟨⟨place, counter'⟩, hbelow, rest, hrest, rfl⟩ := h
    exact mem_drawTuples_succ.mpr ⟨lt_of_below (by omega) hbelow, ih (by omega) hrest⟩

theorem pops_eq (hle : count ≤ items.length) :
    pops word span limit count items counter =
      (places word span limit count items.length counter).bind fun draws => popAt draws items := by
  induction count generalizing items counter with
  | zero => rfl
  | succ count ih =>
    rw [pops, places]
    cases hbelow : below word span limit items.length counter with
    | none => rfl
    | some drawn =>
      obtain ⟨place, counter'⟩ := drawn
      have hplace : place < items.length := lt_of_below (by omega) hbelow
      have hlength : (items.eraseIdx place).length = items.length - 1 :=
        List.length_eraseIdx_of_lt hplace
      have hrest : pops word span limit count (items.eraseIdx place) counter' = _ := ih (by omega)
      rw [hlength] at hrest
      simp only [Option.bind_eq_bind, Option.bind_some, List.getElem?_eq_getElem hplace, hrest,
        Option.pure_def, Option.bind_assoc, popAt]

theorem distinct_eq_selection :
    distinct word span limit population count =
      (places word span limit (min count population) population 0).bind (selection population) := by
  have hle : min count population ≤ (List.range population).length := by
    rw [List.length_range]
    exact min_le_right _ _
  rw [distinct, pops_eq hle, List.length_range, Option.map_bind]
  rfl

/-! ### Popping is a bijection -/

theorem exists_popAt (h : draws ∈ drawTuples items.length count) :
    ∃ out, popAt draws items = some out ∧ out.length = count ∧ out.Subperm items := by
  induction count generalizing items draws with
  | zero =>
    obtain rfl := Finset.mem_singleton.mp h
    exact ⟨[], rfl, rfl, List.nil_subperm⟩
  | succ count ih =>
    cases draws with
    | nil => simp [drawTuples] at h
    | cons draw draws =>
      obtain ⟨hdraw, hdraws⟩ := mem_drawTuples_succ.mp h
      rw [← List.length_eraseIdx_of_lt hdraw] at hdraws
      obtain ⟨out, hout, hlength, hsubperm⟩ := ih hdraws
      refine ⟨items[draw] :: out, ?_, by rw [List.length_cons, hlength], ?_⟩
      · simp [popAt, List.getElem?_eq_getElem hdraw, hout]
      · exact ((List.subperm_cons _).mpr hsubperm).trans
          (List.getElem_cons_eraseIdx_perm hdraw).subperm

theorem popAt_injective (hitems : items.Nodup) {draws' : List ℕ}
    (h : popAt draws items = some out) (h' : popAt draws' items = some out) : draws = draws' := by
  induction draws generalizing items draws' out with
  | nil =>
    obtain rfl := Option.some.inj h
    cases draws' with
    | nil => rfl
    | cons draw' draws' =>
      simp only [popAt, Option.bind_eq_bind, Option.bind_eq_some_iff, Option.pure_def,
        Option.some.injEq] at h'
      obtain ⟨_, -, _, -, hnil⟩ := h'
      exact absurd hnil (List.cons_ne_nil _ _)
  | cons draw draws ih =>
    simp only [popAt, Option.bind_eq_bind, Option.bind_eq_some_iff, Option.pure_def,
      Option.some.injEq] at h
    obtain ⟨item, hitem, rest, hrest, rfl⟩ := h
    cases draws' with
    | nil => simp [popAt] at h'
    | cons draw' draws' =>
      simp only [popAt, Option.bind_eq_bind, Option.bind_eq_some_iff, Option.pure_def,
        Option.some.injEq, List.cons.injEq] at h'
      obtain ⟨item', hitem', rest', hrest', rfl, rfl⟩ := h'
      obtain ⟨hlt, -⟩ := List.getElem?_eq_some_iff.mp hitem
      obtain rfl : draw = draw' := by
        exact (List.getElem?_inj hlt hitems).mp (hitem.trans hitem'.symm)
      rw [ih (hitems.eraseIdx draw) hrest hrest']

theorem exists_draws (hitems : items.Nodup) (hout : out.Nodup) (hsubset : out ⊆ items) :
    ∃ draws ∈ drawTuples items.length out.length, popAt draws items = some out := by
  classical
  induction out generalizing items with
  | nil => exact ⟨[], Finset.mem_singleton_self _, rfl⟩
  | cons item out ih =>
    obtain ⟨hitem, hnodup⟩ := List.nodup_cons.mp hout
    obtain ⟨draw, hdraw, rfl⟩ := List.getElem_of_mem (hsubset List.mem_cons_self)
    have hrest : out ⊆ items.eraseIdx draw := by
      intro a ha
      rcases List.mem_cons.mp ((List.getElem_cons_eraseIdx_perm hdraw).mem_iff.mpr
        (hsubset (List.mem_cons_of_mem _ ha))) with rfl | hmem
      · exact absurd ha hitem
      · exact hmem
    obtain ⟨draws, hdraws, hpop⟩ := ih (hitems.eraseIdx draw) hnodup hrest
    rw [List.length_eraseIdx_of_lt hdraw] at hdraws
    refine ⟨draw :: draws, mem_drawTuples_succ.mpr ⟨hdraw, hdraws⟩, ?_⟩
    simp [popAt, List.getElem?_eq_getElem hdraw, hpop]

/-- A tuple selects a set of values exactly when it pops them in some order. -/
theorem selection_eq_some_iff {subset : List ℕ} (hsubset : subset.Pairwise (· < ·)) :
    selection population draws = some subset ↔
      ∃ out, popAt draws (List.range population) = some out ∧ out.Perm subset := by
  have hle : subset.Pairwise (· ≤ ·) := hsubset.imp fun hlt => hlt.le
  rw [selection, Option.map_eq_some_iff]
  refine exists_congr fun out => and_congr_right fun _ => ?_
  constructor
  · rintro rfl
    exact (List.perm_insertionSort _ out).symm
  · intro hperm
    have hsorted : (SortedSet.sorted out).Perm subset := (List.perm_insertionSort _ out).trans hperm
    exact hsorted.eq_of_pairwise' (List.pairwise_insertionSort _ _) hle

theorem exists_selection (h : draws ∈ drawTuples population count) :
    ∃ subset, selection population draws = some subset ∧ subset.Pairwise (· < ·) ∧
      subset.length = count ∧ ∀ value ∈ subset, value < population := by
  rw [← List.length_range (n := population)] at h
  obtain ⟨out, hout, hlength, hsubperm⟩ := exists_popAt h
  obtain ⟨out', hperm, hsublist⟩ := hsubperm
  have hnodup : out.Nodup := hperm.nodup_iff.mp (hsublist.nodup List.nodup_range)
  refine ⟨SortedSet.sorted out, by rw [selection, hout, Option.map_some], ?_, ?_, ?_⟩
  · exact SortedSet.pairwise_lt_of_nodup (List.pairwise_insertionSort _ _)
      ((List.perm_insertionSort _ out).nodup_iff.mpr hnodup)
  · rw [SortedSet.sorted, List.length_insertionSort, hlength]
  · intro value hvalue
    have hmem := hperm.mem_iff.mpr (SortedSet.mem_sorted.mp hvalue)
    exact List.mem_range.mp (hsublist.subset hmem)

theorem card_selection_eq {subset : List ℕ} (hsubset : subset.Pairwise (· < ·))
    (hlength : subset.length = count) (hlt : ∀ value ∈ subset, value < population) :
    ((drawTuples population count).filter fun draws =>
      selection population draws = some subset).card = count.factorial := by
  have hnodup : subset.Nodup := hsubset.imp fun hlt => hlt.ne
  have hrange : (List.range population).Nodup := List.nodup_range
  -- popping maps these tuples one to one onto the orders of the set
  have hcard : ((drawTuples population count).filter fun draws =>
      selection population draws = some subset).card = subset.permutations.toFinset.card := by
    refine Finset.card_bij (fun draws _ => (popAt draws (List.range population)).getD []) ?_ ?_ ?_
    · intro draws hdraws
      obtain ⟨out, hout, hperm⟩ :=
        (selection_eq_some_iff hsubset).mp (Finset.mem_filter.mp hdraws).2
      rw [hout, Option.getD_some, List.mem_toFinset, List.mem_permutations]
      exact hperm
    · intro draws hdraws draws' hdraws' heq
      obtain ⟨out, hout, -⟩ := (selection_eq_some_iff hsubset).mp (Finset.mem_filter.mp hdraws).2
      obtain ⟨out', hout', -⟩ :=
        (selection_eq_some_iff hsubset).mp (Finset.mem_filter.mp hdraws').2
      rw [hout, hout', Option.getD_some, Option.getD_some] at heq
      exact popAt_injective hrange hout (heq ▸ hout')
    · intro out hout
      rw [List.mem_toFinset, List.mem_permutations] at hout
      have hmem : out ⊆ List.range population := fun value hvalue =>
        List.mem_range.mpr (hlt value (hout.mem_iff.mp hvalue))
      obtain ⟨draws, hdraws, hpop⟩ := exists_draws hrange (hout.nodup_iff.mpr hnodup) hmem
      rw [List.length_range, hout.length_eq, hlength] at hdraws
      refine ⟨draws, Finset.mem_filter.mpr ⟨hdraws, ?_⟩, by rw [hpop, Option.getD_some]⟩
      exact (selection_eq_some_iff hsubset).mpr ⟨out, hpop, hout⟩
  rw [hcard, List.toFinset_card_of_nodup (List.nodup_permutations _ hnodup),
    List.length_permutations, hlength]

/-! ### Values below a bound -/

variable {bound : ℕ}

/-- What a draw returns: the residue of the first word that is not rejected. -/
theorem below_spec {value counter' : ℕ}
    (h : below word span limit bound counter = some (value, counter')) :
    ∃ found, word found < span - span % bound ∧ value = word found % bound ∧
      counter' = found + 1 := by
  obtain ⟨found, hfound, heq⟩ := Option.map_eq_some_iff.mp h
  obtain ⟨rfl, rfl⟩ := Prod.mk.inj heq
  refine ⟨found, ?_, rfl, rfl⟩
  have hsearch : ∀ fuel counter, search word (span - span % bound) fuel counter = some found →
      word found < span - span % bound := by
    intro fuel
    induction fuel with
    | zero => simp [search]
    | succ fuel ih =>
      intro counter hsearch
      rw [search] at hsearch
      split_ifs at hsearch with hlt
      · obtain rfl := Option.some.inj hsearch
        exact hlt
      · exact ih _ hsearch
  exact hsearch _ _ hfound

theorem below_of_accepted (hcounter : counter < limit) (hword : word counter < span - span % bound)
    :
    below word span limit bound counter = some (word counter % bound, counter + 1) := by
  obtain ⟨fuel, hfuel⟩ : ∃ fuel, limit - counter = fuel + 1 := ⟨limit - counter - 1, by omega⟩
  rw [below, hfuel, search, if_pos hword, Option.map_some]

theorem card_accepted {residue : ℕ} (h : residue < bound) :
    ((Finset.range (span - span % bound)).filter fun word => word % bound = residue).card =
      span / bound := by
  have hbound : 0 < bound := by omega
  have hceiling : span - span % bound = span / bound * bound := by
    have := Nat.div_add_mod span bound
    rw [Nat.mul_comm] at this
    omega
  rw [hceiling]
  -- the words with this residue are `q * bound + residue` for the multiples below the ceiling
  have himage : ((Finset.range (span / bound * bound)).filter fun word => word % bound = residue) =
      (Finset.range (span / bound)).image fun q => q * bound + residue := by
    ext word
    simp only [Finset.mem_filter, Finset.mem_range, Finset.mem_image]
    constructor
    · rintro ⟨hlt, rfl⟩
      exact ⟨word / bound, (Nat.div_lt_iff_lt_mul hbound).mpr hlt, Nat.div_add_mod' word bound⟩
    · rintro ⟨q, hq, rfl⟩
      refine ⟨?_, by rw [Nat.mul_comm, Nat.mul_add_mod, Nat.mod_eq_of_lt h]⟩
      calc q * bound + residue < q * bound + bound := by omega
        _ = (q + 1) * bound := by rw [Nat.succ_mul]
        _ ≤ span / bound * bound := Nat.mul_le_mul_right bound hq
  rw [himage, Finset.card_image_of_injective, Finset.card_range]
  intro q q' heq
  exact Nat.eq_of_mul_eq_mul_right hbound (Nat.add_right_cancel heq)

end RejectionDraw

/-!
## Drawing distinct residues from a stream

A stream gives a list of numbers for every counter value. The drawing loop reduces them modulo a
modulus and collects them until it has a target number of distinct residues. It gives up when the
counter reaches a limit.

* `draw_spec`: the collected residues are as many as the target, and below the modulus.
* `draw_isSome_iff`: the loop succeeds exactly when the stream has enough distinct residues before
  the limit.
-/

namespace DistinctDraw

variable (stream : ℕ → List ℕ) (modulus target limit : ℕ)

/-- Collect the residues of one list, up to the target. -/
def collect : List ℕ → Finset ℕ → Finset ℕ
  | [], chosen => chosen
  | word :: rest, chosen =>
    if (insert (word % modulus) chosen).card = target then insert (word % modulus) chosen
    else collect rest (insert (word % modulus) chosen)

/-- The drawing loop. -/
def draw (counter : ℕ) (chosen : Finset ℕ) : Option (Finset ℕ) :=
  if chosen.card < target then
    if counter < limit then
      draw (counter + 1) (collect modulus target (stream counter) chosen)
    else none
  else some chosen
termination_by limit - counter

/-- The distinct residues before a counter value. -/
def residues (counter : ℕ) : Finset ℕ :=
  (Finset.range counter).biUnion fun c => ((stream c).map (· % modulus)).toFinset

variable {stream modulus target limit}

variable {chosen : Finset ℕ}

theorem collect_spec {words : List ℕ} (h : chosen.card < target) :
    (collect modulus target words chosen).card = target ∧
        collect modulus target words chosen ⊆ chosen ∪ (words.map (· % modulus)).toFinset ∨
      (collect modulus target words chosen).card < target ∧
        collect modulus target words chosen = chosen ∪ (words.map (· % modulus)).toFinset := by
  induction words generalizing chosen with
  | nil => exact .inr ⟨h, by simp [collect]⟩
  | cons word rest ih =>
    have hinsert : insert (word % modulus) chosen ∪ (rest.map (· % modulus)).toFinset =
        chosen ∪ ((word :: rest).map (· % modulus)).toFinset := by
      rw [List.map_cons, List.toFinset_cons, Finset.insert_union, Finset.union_insert]
    rw [collect]
    split_ifs with hcard
    · refine .inl ⟨hcard, ?_⟩
      rw [← hinsert]
      exact Finset.subset_union_left
    · have hlt : (insert (word % modulus) chosen).card < target := by
        have := Finset.card_insert_le (word % modulus) chosen
        omega
      rw [← hinsert]
      exact ih hlt

@[simp]
theorem residues_zero : residues stream modulus 0 = ∅ := by simp [residues]

theorem residues_succ (counter : ℕ) :
    residues stream modulus (counter + 1) =
      residues stream modulus counter ∪ ((stream counter).map (· % modulus)).toFinset := by
  rw [residues, residues, Finset.range_add_one, Finset.biUnion_insert, Finset.union_comm]

theorem residues_mono {counter counter' : ℕ} (h : counter ≤ counter') :
    residues stream modulus counter ⊆ residues stream modulus counter' :=
  Finset.biUnion_subset_biUnion_of_subset_left _ (Finset.range_subset_range.mpr h)

theorem draw_residues {counter : ℕ} (hle : counter ≤ limit)
    (h : (residues stream modulus counter).card < target) :
    (∃ chosen, draw stream modulus target limit counter (residues stream modulus counter) =
        some chosen ∧ chosen.card = target ∧ chosen ⊆ residues stream modulus limit) ∨
      draw stream modulus target limit counter (residues stream modulus counter) = none ∧
        (residues stream modulus limit).card < target := by
  induction hn : limit - counter generalizing counter with
  | zero =>
    obtain rfl : counter = limit := by omega
    rw [draw, if_pos h, if_neg (lt_irrefl counter)]
    exact .inr ⟨rfl, h⟩
  | succ n ih =>
    have hlt : counter < limit := by omega
    rw [draw, if_pos h, if_pos hlt]
    rcases collect_spec h with ⟨hcard, hsubset⟩ | ⟨hcard, heq⟩
    · left
      rw [← residues_succ] at hsubset
      refine ⟨_, ?_, hcard, hsubset.trans (residues_mono hlt)⟩
      rw [draw, if_neg (by omega)]
    · rw [← residues_succ] at heq
      rw [heq] at hcard ⊢
      exact ih hlt hcard (by omega)

theorem draw_spec (hpos : 0 < target) (h : draw stream modulus target limit 0 ∅ = some chosen) :
    chosen.card = target ∧ chosen ⊆ residues stream modulus limit := by
  have hlt : (residues stream modulus 0).card < target := by simpa using hpos
  rcases draw_residues (Nat.zero_le limit) hlt with
    ⟨chosen', hchosen, hspec⟩ | ⟨hnone, -⟩
  · rw [residues_zero, h] at hchosen
    obtain rfl : chosen = chosen' := Option.some.inj hchosen
    exact hspec
  · rw [residues_zero, h] at hnone
    exact nomatch hnone

theorem draw_isSome_iff (hpos : 0 < target) :
    (draw stream modulus target limit 0 ∅).isSome ↔
      target ≤ (residues stream modulus limit).card := by
  have hlt : (residues stream modulus 0).card < target := by simpa using hpos
  rcases draw_residues (Nat.zero_le limit) hlt with
    ⟨chosen, hchosen, hcard, hsubset⟩ | ⟨hnone, hlt⟩
  · rw [residues_zero] at hchosen
    rw [hchosen, ← hcard]
    simpa using Finset.card_le_card hsubset
  · rw [residues_zero] at hnone
    rw [hnone]
    simpa using hlt

theorem mem_residues {counter residue : ℕ} : residue ∈ residues stream modulus counter ↔
    ∃ c < counter, ∃ word ∈ stream c, word % modulus = residue := by
  simp only [residues, Finset.mem_biUnion, Finset.mem_range, List.mem_toFinset, List.mem_map]

theorem le_card_residues (h : ∀ c < limit, c ∈ stream c) (hle : modulus ≤ limit) :
    modulus ≤ (residues stream modulus limit).card := by
  calc modulus = (Finset.range modulus).card := (Finset.card_range modulus).symm
    _ ≤ (residues stream modulus limit).card := by
      refine Finset.card_le_card fun c hc => ?_
      rw [Finset.mem_range] at hc
      exact mem_residues.mpr ⟨c, hc.trans_le hle, c, h c (hc.trans_le hle), Nat.mod_eq_of_lt hc⟩

theorem lt_of_mem_residues (hpos : 0 < modulus) {counter residue : ℕ}
    (h : residue ∈ residues stream modulus counter) : residue < modulus := by
  obtain ⟨-, -, word, -, rfl⟩ := mem_residues.mp h
  exact Nat.mod_lt word hpos

theorem lt_of_mem_draw (hpos : 0 < target) (hmodulus : 0 < modulus)
    (h : draw stream modulus target limit 0 ∅ = some chosen) {value : ℕ} (hvalue : value ∈ chosen) :
    value < modulus :=
  lt_of_mem_residues hmodulus ((draw_spec hpos h).2 hvalue)

end DistinctDraw
