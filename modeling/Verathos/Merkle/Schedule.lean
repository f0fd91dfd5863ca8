import Verathos.Lib.Multiproof
import Verathos.Merkle.Checks

/-!
# The sibling schedule

Both implementations of `_expected_sibling_coordinates` compute the schedule of a binary
multiproof: the Python loop works with sets, the C loop walks a sorted array and only looks at
the two neighbours of an entry. `expectedSiblingCoordinates_eq` is the common specification.
-/

namespace Verathos.Merkle

open Multiproof

@[simp]
theorem height_two_pow (h : ℕ) : height (2 ^ h) = h := by
  rw [height, Nat.size_pow, Nat.add_sub_cancel]

/-- The Python loop is the schedule. -/
theorem siblingCoordinatesLoop_eq (remaining level : ℕ) (current : Finset ℕ) :
    siblingCoordinatesLoop remaining level current = schedule remaining level current := by
  induction remaining generalizing level current with
  | zero => rfl
  | succ remaining ih =>
    rw [siblingCoordinatesLoop, schedule, ih]
    rfl

/-! ## The C loop -/

namespace Compiled

/-- In a strictly increasing array a partner can only stand right before or right after. -/
theorem mem_iff_neighbour {previous : Option ℕ} {x : ℕ} {rest : List ℕ}
    (hsorted : (previous.toList ++ x :: rest).Pairwise (· < ·)) :
    x ^^^ 1 ∈ previous.toList ++ x :: rest ↔
      previous = some (x ^^^ 1) ∨ rest.head? = some (x ^^^ 1) := by
  have hx := xor_one_div_two x
  obtain ⟨-, hrest, -⟩ := List.pairwise_append.mp hsorted
  obtain ⟨hlt, htail⟩ := List.pairwise_cons.mp hrest
  have hne : x ^^^ 1 ≠ x := by
    rcases Nat.even_or_odd x with h | h
    · rw [Nat.xor_one_of_even h]
      omega
    · rw [Nat.xor_one_of_odd h]
      have := Nat.odd_iff.mp h
      omega
  rw [List.mem_append, Option.mem_toList, List.mem_cons]
  constructor
  · rintro (h | h | h)
    · exact Or.inl h
    · exact absurd h hne
    · -- the partner is larger, so it is the successor, and nothing fits in between
      right
      match rest, h, hlt, htail with
      | y :: _, h, hlt, htail =>
        have hxy := hlt y List.mem_cons_self
        rcases List.mem_cons.mp h with h | h
        · rw [List.head?_cons, h]
        · have := (List.pairwise_cons.mp htail).1 _ h
          omega
  · rintro (h | h)
    · exact Or.inl h
    · exact Or.inr (Or.inr (List.mem_of_mem_head? h))

theorem absentPartners_eq {previous : Option ℕ} {current : List ℕ}
    (hsorted : (previous.toList ++ current).Pairwise (· < ·)) :
    absentPartners previous current =
      (current.filter fun x => x ^^^ 1 ∉ previous.toList ++ current).map (· ^^^ 1) := by
  induction current generalizing previous with
  | nil => rfl
  | cons x rest ih =>
    obtain ⟨-, hrest, hprevious⟩ := List.pairwise_append.mp hsorted
    obtain ⟨hlt, -⟩ := List.pairwise_cons.mp hrest
    have htail : absentPartners (some x) rest =
        (rest.filter fun y => y ^^^ 1 ∉ previous.toList ++ x :: rest).map (· ^^^ 1) := by
      rw [ih (by simpa using hrest)]
      refine congrArg (List.map _) (List.filter_congr fun y hy => ?_)
      -- an entry before `x` is too small to be the partner of an entry after `x`
      have hfar : ∀ p ∈ previous.toList, y ^^^ 1 ≠ p := by
        intro p hp heq
        have := xor_one_div_two y
        have := hprevious p hp x List.mem_cons_self
        have := hlt y hy
        omega
      rw [decide_eq_decide, not_iff_not, Option.toList_some, List.singleton_append,
        List.mem_append]
      exact ⟨Or.inr, fun h => h.resolve_left fun hp => hfar _ hp rfl⟩
    rw [absentPartners, List.filter_cons]
    by_cases hmem : x ^^^ 1 ∈ previous.toList ++ x :: rest
    · simp only [(mem_iff_neighbour hsorted).mp hmem, if_true, hmem, not_true, decide_false,
        Bool.false_eq_true, if_false, htail]
    · have hno := mt (mem_iff_neighbour hsorted).mpr hmem
      simp only [hno, if_false, hmem, not_false_iff, decide_true, if_true, List.map_cons, htail]

theorem absentPartners_sort (current : Finset ℕ) :
    absentPartners none current.sort = (missing current).sort := by
  have hsorted : current.sort.Pairwise (· < ·) := current.sortedLT_sort.pairwise
  rw [absentPartners_eq (by simpa using hsorted)]
  simp only [Option.toList_none, List.nil_append, Finset.mem_sort]
  set emitted := (current.sort.filter fun x => x ^^^ 1 ∉ current).map (· ^^^ 1) with hemitted
  have hincreasing : emitted.Pairwise (· < ·) := by
    rw [hemitted, List.pairwise_map]
    refine (hsorted.filter _).imp_of_mem fun {a b} ha hb hab => ?_
    -- two active nodes without partners have different parents
    simp only [List.mem_filter, Finset.mem_sort, decide_eq_true_eq] at ha hb
    have hparent : a / 2 ≠ b / 2 := by
      intro h
      rcases eq_or_eq_xor_one h with rfl | rfl
      · exact lt_irrefl _ hab
      · exact hb.2 ha.1
    have := xor_one_div_two a
    have := xor_one_div_two b
    omega
  have hfinset : emitted.toFinset = missing current := by
    ext i
    simp only [hemitted, List.mem_toFinset, List.mem_map, List.mem_filter, Finset.mem_sort,
      decide_eq_true_eq, missing, Finset.mem_image, Finset.mem_filter]
  have hnodup : emitted.Nodup := hincreasing.imp fun hab => Nat.ne_of_lt hab
  rw [← hfinset]
  exact ((List.toFinset_sort (· ≤ ·) hnodup).mpr
    (hincreasing.imp fun hab => Nat.le_of_lt hab)).symm

/-- The parents that the C loop writes in place: each parent once, in increasing order. -/
theorem dedupParents_spec (written : Option ℕ) {current : List ℕ}
    (hsorted : current.Pairwise (· < ·)) (hwritten : ∀ w ∈ written, ∀ x ∈ current, w ≤ x / 2) :
    (dedupParents written current).Pairwise (· < ·) ∧
      ∀ y, y ∈ dedupParents written current ↔ (∃ x ∈ current, x / 2 = y) ∧ written ≠ some y := by
  induction current generalizing written with
  | nil => simp [dedupParents]
  | cons x rest ih =>
    obtain ⟨hlt, htail⟩ := List.pairwise_cons.mp hsorted
    rw [dedupParents, Nat.shiftRight_one]
    split_ifs with h
    · obtain ⟨hpairwise, hmem⟩ := ih written htail fun w hw y hy => hwritten w hw y (List.mem_cons_of_mem _ hy)
      refine ⟨hpairwise, fun y => ?_⟩
      rw [hmem]
      simp only [List.mem_cons, exists_eq_or_imp]
      constructor
      · rintro ⟨hex, hne⟩
        exact ⟨Or.inr hex, hne⟩
      · rintro ⟨hxy | hex, hne⟩
        · exact absurd (hxy ▸ h) hne
        · exact ⟨hex, hne⟩
    · have hstep : ∀ w ∈ some (x / 2), ∀ y ∈ rest, w ≤ y / 2 := by
        intro w hw y hy
        obtain rfl := Option.mem_some_iff.mp hw
        have := hlt y hy
        omega
      obtain ⟨hpairwise, hmem⟩ := ih _ htail hstep
      have hbelow : ∀ y ∈ dedupParents (some (x / 2)) rest, x / 2 < y := by
        intro y hy
        obtain ⟨⟨z, hz, rfl⟩, hne⟩ := (hmem y).mp hy
        have := hstep _ rfl z hz
        have : x / 2 ≠ z / 2 := fun heq => hne (congrArg some heq)
        omega
      refine ⟨List.pairwise_cons.mpr ⟨hbelow, hpairwise⟩, fun y => ?_⟩
      simp only [List.mem_cons, hmem, exists_eq_or_imp]
      constructor
      · rintro (rfl | ⟨hex, hne⟩)
        · exact ⟨Or.inl rfl, h⟩
        · obtain ⟨z, hz, rfl⟩ := hex
          refine ⟨Or.inr ⟨z, hz, rfl⟩, fun hw => ?_⟩
          -- an already written parent is at most the parent of `x`
          have hle := hwritten _ hw x List.mem_cons_self
          have := hstep _ rfl z hz
          have : x / 2 ≠ z / 2 := fun heq => hne (congrArg some heq)
          omega
      · rintro ⟨hxy | hex, hne⟩
        · exact Or.inl hxy.symm
        · by_cases hxy : x / 2 = y
          · exact Or.inl hxy.symm
          · exact Or.inr ⟨hex, fun heq => hxy (Option.some.inj heq)⟩

theorem dedupParents_sort (current : Finset ℕ) :
    dedupParents none current.sort = (parents current).sort := by
  obtain ⟨hpairwise, hmem⟩ :=
    dedupParents_spec none current.sortedLT_sort.pairwise (by simp)
  have hfinset : (dedupParents none current.sort).toFinset = parents current := by
    ext y
    simp [hmem, mem_parents]
  have hnodup := hpairwise.imp fun {a b} (hab : a < b) => Nat.ne_of_lt hab
  rw [← hfinset]
  exact ((List.toFinset_sort (· ≤ ·) hnodup).mpr
    (hpairwise.imp fun hab => Nat.le_of_lt hab)).symm

theorem siblingCoordinatesLoop_sort (remaining level : ℕ) (current : Finset ℕ) :
    siblingCoordinatesLoop (2 ^ remaining) level current.sort =
      schedule remaining level current := by
  induction remaining generalizing level current with
  | zero => rw [siblingCoordinatesLoop, dif_neg (by simp), schedule]
  | succ remaining ih =>
    have hhalf : 2 ^ (remaining + 1) >>> 1 = 2 ^ remaining := by
      rw [Nat.shiftRight_one, pow_succ]
      omega
    rw [siblingCoordinatesLoop, dif_pos (Nat.one_lt_two_pow (by omega)), absentPartners_sort,
      dedupParents_sort, hhalf, ih, schedule]

end Compiled

/-! ## The common specification -/

theorem expectedSiblingCoordinates_eq (lib : Bool) {h : ℕ} (hh : h ≤ 30) {indices : List ℕ}
    (hindices : IndicesAdmitted (2 ^ h) indices) :
    expectedSiblingCoordinates lib (2 ^ h) indices = schedule h 0 indices.toFinset := by
  have hpython : siblingCoordinatesPython (2 ^ h) indices = schedule h 0 indices.toFinset := by
    rw [siblingCoordinatesPython, height_two_pow, siblingCoordinatesLoop_eq]
  cases lib with
  | false => exact hpython
  | true =>
    have hloop : Compiled.siblingCoordinatesLoop (2 ^ h) 0 indices =
        schedule h 0 indices.toFinset := by
      conv_lhs => rw [← hindices.sort_toFinset]
      exact Compiled.siblingCoordinatesLoop_sort h 0 indices.toFinset
    have hcap : (schedule h 0 indices.toFinset).length ≤ indices.length * 64 + 8 := by
      have hlen := length_schedule_le_mul h 0 indices.toFinset
      have hcard : h * indices.toFinset.card ≤ 30 * indices.length :=
        Nat.mul_le_mul hh (List.toFinset_card_le indices)
      omega
    rw [expectedSiblingCoordinates, if_pos rfl, Compiled.siblingCoordinates, hloop,
      if_neg (by omega), Option.getD_some]

end Verathos.Merkle
