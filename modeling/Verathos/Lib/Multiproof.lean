import Mathlib.Tactic
import Mathlib.Data.Finset.Sort
import Mathlib.Data.Nat.Bitwise

/-!
# Binary multiproofs

A multiproof opens a set of leaves of a perfect binary tree at once. It carries one digest for
every node that is a partner of a node on an opened path and is not itself on one, level by
level and in ascending order.

The module fixes the combinatorics of such proofs for an arbitrary digest type `D` and an
arbitrary `combine level index left right`:

* `missing`, `parents` and `ancestors` describe one level of the opened paths;
* `schedule` lists the coordinates of the carried digests;
* `climb` recomputes the root from the opened nodes and the carried digests;
* `Derivable` says which nodes a set of carried digests determines.

The main results are `climb_honest` (an honest proof recomputes the root), `climb_binding`
(two proofs of one root agree on common leaves unless `combine` collides),
`length_schedule_add_card_le` (how many digests are carried) and the exactness of the schedule
(`derivable_root`, `not_derivable_root_erase`).
-/

namespace Multiproof

variable {D : Type*}

/-! ## One level -/

/-- The partners of the active nodes that are not active themselves. -/
def missing (current : Finset ℕ) : Finset ℕ :=
  (current.filter fun index => index ^^^ 1 ∉ current).image (· ^^^ 1)

/-- The nodes one level up from the active ones. -/
def parents (current : Finset ℕ) : Finset ℕ :=
  current.image (· / 2)

theorem xor_one_div_two (i : ℕ) : (i ^^^ 1) / 2 = i / 2 := by
  rcases Nat.even_or_odd i with h | h
  · rw [Nat.xor_one_of_even h]
    have := Nat.even_iff.mp h
    omega
  · rw [Nat.xor_one_of_odd h]
    have := Nat.odd_iff.mp h
    omega

theorem eq_or_eq_xor_one {i j : ℕ} (h : i / 2 = j / 2) : i = j ∨ i = j ^^^ 1 := by
  rcases Nat.even_or_odd j with hj | hj
  · rw [Nat.xor_one_of_even hj]
    have := Nat.even_iff.mp hj
    omega
  · rw [Nat.xor_one_of_odd hj]
    have := Nat.odd_iff.mp hj
    omega

variable {current : Finset ℕ}

theorem mem_missing {i : ℕ} : i ∈ missing current ↔ i ^^^ 1 ∈ current ∧ i ∉ current := by
  constructor
  · intro h
    obtain ⟨j, hj, rfl⟩ := Finset.mem_image.mp h
    rw [Nat.xor_xor_cancel_right]
    exact Finset.mem_filter.mp hj
  · rintro ⟨hpartner, hi⟩
    refine Finset.mem_image.mpr ⟨i ^^^ 1, ?_, Nat.xor_xor_cancel_right i 1⟩
    rw [Finset.mem_filter, Nat.xor_xor_cancel_right]
    exact ⟨hpartner, hi⟩

theorem mem_parents {j : ℕ} : j ∈ parents current ↔ ∃ i ∈ current, i / 2 = j :=
  Finset.mem_image

theorem parents_nonempty (h : current.Nonempty) : (parents current).Nonempty :=
  h.image _

variable {remaining : ℕ}

theorem lt_of_mem_parents (h : ∀ i ∈ current, i < 2 ^ (remaining + 1)) :
    ∀ j ∈ parents current, j < 2 ^ remaining := by
  intro j hj
  obtain ⟨i, hi, rfl⟩ := mem_parents.mp hj
  have := h i hi
  rw [pow_succ] at this
  omega

theorem disjoint_missing (current : Finset ℕ) : Disjoint current (missing current) :=
  Finset.disjoint_right.mpr fun _ h => (mem_missing.mp h).2

/-- Active nodes and carried partners are together all the children of the parents. -/
theorem mem_union_missing {i : ℕ} : i ∈ current ∪ missing current ↔ i / 2 ∈ parents current := by
  rw [Finset.mem_union, mem_missing, mem_parents]
  constructor
  · rintro (h | ⟨h, -⟩)
    · exact ⟨i, h, rfl⟩
    · exact ⟨i ^^^ 1, h, xor_one_div_two i⟩
  · rintro ⟨j, hj, hij⟩
    by_cases hi : i ∈ current
    · exact Or.inl hi
    · rcases eq_or_eq_xor_one hij with rfl | rfl
      · exact absurd hj hi
      · exact Or.inr ⟨hj, hi⟩

theorem card_add_card_missing (current : Finset ℕ) :
    current.card + (missing current).card = 2 * (parents current).card := by
  have hinj : Set.InjOn (fun c : ℕ × ℕ => 2 * c.1 + c.2)
      (parents current ×ˢ Finset.range 2 : Finset (ℕ × ℕ)) := by
    rintro ⟨a, b⟩ hab ⟨a', b'⟩ hab' h
    simp only [Finset.coe_product, Set.mem_prod, Finset.mem_coe, Finset.mem_range] at hab hab'
    simp only at h
    exact Prod.ext (by simp only; omega) (by simp only; omega)
  have hchildren : current ∪ missing current =
      (parents current ×ˢ Finset.range 2).image fun c => 2 * c.1 + c.2 := by
    ext i
    rw [mem_union_missing, Finset.mem_image]
    constructor
    · intro h
      exact ⟨(i / 2, i % 2), by simp [h]; omega, Nat.div_add_mod i 2⟩
    · rintro ⟨⟨a, b⟩, hab, rfl⟩
      rw [Finset.mem_product, Finset.mem_range] at hab
      have hdiv : (2 * a + b) / 2 = a := by omega
      simpa [hdiv] using hab.1
  rw [← Finset.card_union_of_disjoint (disjoint_missing current), hchildren,
    Finset.card_image_of_injOn hinj, Finset.card_product, Finset.card_range, mul_comm]

theorem card_parents_le (current : Finset ℕ) : (parents current).card ≤ current.card :=
  Finset.card_image_le

theorem card_missing_le (current : Finset ℕ) : (missing current).card ≤ current.card := by
  have := card_add_card_missing current
  have := card_parents_le current
  omega

/-- The ancestors, `k` levels up, of the active nodes. -/
def ancestors (current : Finset ℕ) (k : ℕ) : Finset ℕ :=
  current.image (· / 2 ^ k)

theorem mem_ancestors {k j : ℕ} : j ∈ ancestors current k ↔ ∃ i ∈ current, i / 2 ^ k = j :=
  Finset.mem_image

@[simp]
theorem ancestors_zero (current : Finset ℕ) : ancestors current 0 = current := by
  simp [ancestors]

theorem ancestors_parents (current : Finset ℕ) (k : ℕ) :
    ancestors (parents current) k = ancestors current (k + 1) := by
  ext j
  simp [ancestors, parents, Nat.div_div_eq_div_mul, pow_succ']

theorem parents_ancestors (current : Finset ℕ) (k : ℕ) :
    parents (ancestors current k) = ancestors current (k + 1) := by
  ext j
  simp [ancestors, parents, Nat.div_div_eq_div_mul, pow_succ]

variable {height : ℕ}

/-- Opened leaves of a tree of height `height` have the root as their only top ancestor. -/
theorem ancestors_eq_singleton (hne : current.Nonempty) (hlt : ∀ i ∈ current, i < 2 ^ height) :
    ancestors current height = {0} := by
  obtain ⟨i, hi⟩ := hne
  ext j
  rw [mem_ancestors, Finset.mem_singleton]
  constructor
  · rintro ⟨k, hk, rfl⟩
    exact Nat.div_eq_of_lt (hlt k hk)
  · rintro rfl
    exact ⟨i, hi, Nat.div_eq_of_lt (hlt i hi)⟩

/-! ## The schedule -/

/-- The coordinates `(level, index)` of the carried digests, for `remaining` levels starting at
`level` with the nodes of `current` active. -/
def schedule : ℕ → ℕ → Finset ℕ → List (ℕ × ℕ)
  | 0, _, _ => []
  | remaining + 1, level, current =>
    (missing current).sort.map (level, ·) ++ schedule remaining (level + 1) (parents current)

/-- The schedule holds the missing partners of every level, and nothing else. -/
theorem mem_schedule {level : ℕ} {l i : ℕ} :
    (l, i) ∈ schedule remaining level current ↔
      level ≤ l ∧ l < level + remaining ∧ i ∈ missing (ancestors current (l - level)) := by
  induction remaining generalizing level current with
  | zero =>
    simp only [schedule, List.not_mem_nil, false_iff]
    omega
  | succ remaining ih =>
    rw [schedule, List.mem_append, ih, ancestors_parents]
    simp only [List.mem_map, Finset.mem_sort, Prod.mk.injEq]
    constructor
    · rintro (⟨j, hj, rfl, rfl⟩ | ⟨hle, hlt, hmem⟩)
      · exact ⟨le_rfl, by omega, by simpa using hj⟩
      · refine ⟨by omega, by omega, ?_⟩
        rwa [show l - level = l - (level + 1) + 1 by omega]
    · rintro ⟨hle, hlt, hmem⟩
      rcases Nat.eq_or_lt_of_le hle with rfl | hlt'
      · exact Or.inl ⟨i, by simpa using hmem, rfl, rfl⟩
      · refine Or.inr ⟨by omega, by omega, ?_⟩
        rwa [show l - (level + 1) + 1 = l - level by omega]

theorem nodup_schedule (remaining level : ℕ) (current : Finset ℕ) :
    (schedule remaining level current).Nodup := by
  induction remaining generalizing level current with
  | zero => exact List.nodup_nil
  | succ remaining ih =>
    rw [schedule, List.nodup_append]
    refine ⟨(Finset.sort_nodup _ _).map (Prod.mk_right_injective level), ih _ _, ?_⟩
    rintro ⟨l, i⟩ h ⟨l', i'⟩ h' heq
    obtain ⟨j, -, hj⟩ := List.mem_map.mp h
    obtain ⟨hle, -, -⟩ := mem_schedule.mp h'
    simp only [Prod.mk.injEq] at hj heq
    omega

theorem length_schedule_add_card_le (level : ℕ) (hlt : ∀ i ∈ current, i < 2 ^ remaining) :
    (schedule remaining level current).length + current.card ≤ 2 ^ remaining := by
  induction remaining generalizing level current with
  | zero =>
    have hsub : current ⊆ {0} := fun i hi => by simpa using hlt i hi
    simpa [schedule] using Finset.card_le_card hsub
  | succ remaining ih =>
    have hparents := lt_of_mem_parents hlt
    have hrest := ih (level + 1) hparents
    have hcard := card_add_card_missing current
    have hbound : (parents current).card ≤ 2 ^ remaining := by
      omega
    rw [schedule, List.length_append, List.length_map, Finset.length_sort, pow_succ]
    omega

theorem length_schedule_le_mul (remaining level : ℕ) (current : Finset ℕ) :
    (schedule remaining level current).length ≤ remaining * current.card := by
  induction remaining generalizing level current with
  | zero => simp [schedule]
  | succ remaining ih =>
    have hrest := ih (level + 1) (parents current)
    have hmul : remaining * (parents current).card ≤ remaining * current.card :=
      Nat.mul_le_mul_left _ (card_parents_le current)
    have hmissing := card_missing_le current
    rw [schedule, List.length_append, List.length_map, Finset.length_sort, Nat.succ_mul]
    omega

/-! ## Lists indexed by a duplicate-free list of keys -/

/-- The value stored for a key when `keys` and `values` are read in parallel. -/
def assoc {α β : Type*} [DecidableEq α] (keys : List α) (values : List β) (default : β)
    (key : α) : β :=
  ((keys.zip values).lookup key).getD default

theorem map_assoc {α β : Type*} [DecidableEq α] {keys : List α} {values : List β} (default : β)
    (hnodup : keys.Nodup) (hlen : keys.length = values.length) :
    keys.map (assoc keys values default) = values := by
  induction keys generalizing values with
  | nil => exact (List.length_eq_zero_iff.mp hlen.symm).symm
  | cons key keys ih =>
    obtain ⟨value, values, rfl⟩ := List.exists_cons_of_length_eq_add_one hlen.symm
    obtain ⟨hkey, hnodup⟩ := List.nodup_cons.mp hnodup
    have hrest : ∀ k ∈ keys, assoc (key :: keys) (value :: values) default k =
        assoc keys values default k := by
      intro k hk
      have hne : (k == key) = false := by
        rw [beq_eq_false_iff_ne]
        rintro rfl
        exact hkey hk
      rw [assoc, List.zip_cons_cons, List.lookup_cons, hne, assoc]
    rw [List.map_cons, List.map_congr_left hrest, ih hnodup (by simpa using hlen)]
    simp [assoc]

theorem assoc_map {α β : Type*} [DecidableEq α] {keys : List α} (value : α → β) (default : β)
    {key : α} (hkey : key ∈ keys) : assoc keys (keys.map value) default key = value key := by
  induction keys with
  | nil => exact absurd hkey List.not_mem_nil
  | cons k keys ih =>
    rw [assoc, List.map_cons, List.zip_cons_cons, List.lookup_cons]
    by_cases hk : key = k
    · rw [hk, beq_self_eq_true, Option.getD_some]
    · rw [beq_false_of_ne hk]
      exact ih ((List.mem_cons.mp hkey).resolve_left hk)

theorem assoc_of_mem_zip {α β : Type*} [DecidableEq α] {keys : List α} {values : List β}
    (default : β) (hnodup : keys.Nodup) (hlen : keys.length = values.length) {key : α} {value : β}
    (h : (key, value) ∈ keys.zip values) : assoc keys values default key = value := by
  obtain ⟨i, hi, hget⟩ := List.mem_iff_getElem.mp h
  rw [List.getElem_zip, Prod.mk.injEq] at hget
  obtain ⟨rfl, rfl⟩ := hget
  have hmap := map_assoc default hnodup hlen
  conv_rhs => rw [List.getElem_of_eq hmap.symm]
  rw [List.getElem_map]

/-! ## Recomputing the root -/

/-- The digest of a child: recomputed when the child is active, carried otherwise. -/
def pick (current : Finset ℕ) (node sibling : ℕ → D) (index : ℕ) : D :=
  if index ∈ current then node index else sibling index

/-- The digests one level up. -/
def climbStep (combine : ℕ → ℕ → D → D → D) (sibling : ℕ → ℕ → D) (level : ℕ)
    (current : Finset ℕ) (node : ℕ → D) (index : ℕ) : D :=
  combine (level + 1) index (pick current node (sibling level) (2 * index))
    (pick current node (sibling level) (2 * index + 1))

/-- The root recomputed from the digests `node` of the active nodes at `level`, with the
carried digests given by `sibling level index`. -/
def climb (combine : ℕ → ℕ → D → D → D) (sibling : ℕ → ℕ → D) :
    ℕ → ℕ → Finset ℕ → (ℕ → D) → D
  | 0, _, _, node => node 0
  | remaining + 1, level, current, node =>
    climb combine sibling remaining (level + 1) (parents current)
      (climbStep combine sibling level current node)

theorem pick_eq_of_agree {node sibling tree : ℕ → D} {index : ℕ}
    (hnode : index ∈ current → node index = tree index)
    (hsibling : index ∈ missing current → sibling index = tree index)
    (hindex : index / 2 ∈ parents current) : pick current node sibling index = tree index := by
  rw [pick]
  split_ifs with h
  · exact hnode h
  · refine hsibling ?_
    have := mem_union_missing.mpr hindex
    rw [Finset.mem_union] at this
    exact this.resolve_left h

theorem climb_honest (combine : ℕ → ℕ → D → D → D) (sibling tree : ℕ → ℕ → D) (level : ℕ)
    (current : Finset ℕ) (node : ℕ → D)
    (htree : ∀ l j, level ≤ l → l < level + remaining → j < 2 ^ (level + remaining - l - 1) →
      tree (l + 1) j = combine (l + 1) j (tree l (2 * j)) (tree l (2 * j + 1)))
    (hne : current.Nonempty) (hlt : ∀ i ∈ current, i < 2 ^ remaining)
    (hnode : ∀ i ∈ current, node i = tree level i)
    (hsibling : ∀ c ∈ schedule remaining level current, sibling c.1 c.2 = tree c.1 c.2) :
    climb combine sibling remaining level current node = tree (level + remaining) 0 := by
  induction remaining generalizing level current node with
  | zero =>
    obtain ⟨i, hi⟩ := hne
    have hi0 : i = 0 := by simpa using hlt i hi
    subst hi0
    exact hnode 0 hi
  | succ remaining ih =>
    have hpick : ∀ i, i / 2 ∈ parents current →
        pick current node (sibling level) i = tree level i := by
      intro i hi
      refine pick_eq_of_agree (fun h => hnode i h) (fun h => ?_) hi
      exact hsibling (level, i) (mem_schedule.mpr ⟨le_rfl, by omega, by simpa using h⟩)
    have hparents := lt_of_mem_parents hlt
    rw [climb, show level + (remaining + 1) = level + 1 + remaining by omega]
    refine ih (level + 1) (parents current) _ ?_ ?_ hparents ?_ ?_
    · intro l j hle hlt' hj
      refine htree l j (by omega) (by omega) ?_
      rwa [show level + (remaining + 1) - l - 1 = level + 1 + remaining - l - 1 by omega]
    · exact parents_nonempty hne
    · intro j hj
      have hj' : j < 2 ^ (level + (remaining + 1) - level - 1) := by
        rw [show level + (remaining + 1) - level - 1 = remaining by omega]
        exact hparents j hj
      rw [climbStep, htree level j le_rfl (by omega) hj', hpick, hpick]
      · rwa [show (2 * j + 1) / 2 = j by omega]
      · rwa [show (2 * j) / 2 = j by omega]
    · intro c hc
      refine hsibling c ?_
      rw [schedule, List.mem_append]
      exact Or.inr hc

theorem climb_binding {combine : ℕ → ℕ → D → D → D} {sibling sibling' : ℕ → ℕ → D} {level : ℕ}
    {current' : Finset ℕ} {node node' : ℕ → D}
    (hinj : ∀ l j a b a' b', level < l → l ≤ level + remaining → j < 2 ^ (level + remaining - l) →
      combine l j a b = combine l j a' b' → a = a' ∧ b = b')
    (hlt : ∀ i ∈ current, i < 2 ^ remaining)
    (hroot : climb combine sibling remaining level current node =
      climb combine sibling' remaining level current' node') {i : ℕ} (hi : i ∈ current)
    (hi' : i ∈ current') : node i = node' i := by
  induction remaining generalizing level current current' node node' i with
  | zero =>
    have hi0 : i = 0 := by simpa using hlt i hi
    subst hi0
    exact hroot
  | succ remaining ih =>
    have hparents := lt_of_mem_parents hlt
    have hj : i / 2 ∈ parents current := mem_parents.mpr ⟨i, hi, rfl⟩
    have hj' : i / 2 ∈ parents current' := mem_parents.mpr ⟨i, hi', rfl⟩
    have hparent := ih (fun l j a b a' b' hl hl' hjl =>
      hinj l j a b a' b' (by omega) (by omega)
        (by rwa [show level + (remaining + 1) - l = level + 1 + remaining - l by omega]))
      hparents hroot hj hj'
    have hchildren := hinj (level + 1) (i / 2) _ _ _ _ (by omega) (by omega)
      (by
        rw [show level + (remaining + 1) - (level + 1) = remaining by omega]
        exact hparents _ hj) hparent
    -- `i` is one of the two children of `i / 2`, and it is active on both sides
    rcases Nat.even_or_odd' i with ⟨k, rfl | rfl⟩
    · have h := hchildren.1
      rwa [show 2 * (2 * k / 2) = 2 * k by omega, pick, pick, if_pos hi, if_pos hi'] at h
    · have h := hchildren.2
      rwa [show 2 * ((2 * k + 1) / 2) + 1 = 2 * k + 1 by omega, pick, pick, if_pos hi,
        if_pos hi'] at h

/-! ## Exactness of the schedule -/

/-- The nodes that the opened leaves and a list of carried coordinates determine. -/
inductive Derivable (opened : Finset ℕ) (carried : List (ℕ × ℕ)) : ℕ → ℕ → Prop
  | leaf {i : ℕ} : i ∈ opened → Derivable opened carried 0 i
  | sibling {l i : ℕ} : (l, i) ∈ carried → Derivable opened carried l i
  | parent {l j : ℕ} : Derivable opened carried l (2 * j) →
      Derivable opened carried l (2 * j + 1) → Derivable opened carried (l + 1) j

variable {opened : Finset ℕ}

/-- Opened leaves and the scheduled digests determine every node on an opened path. -/
theorem derivable_of_mem_ancestors {l j : ℕ} (hl : l ≤ height) (hj : j ∈ ancestors opened l) :
    Derivable opened (schedule height 0 opened) l j := by
  induction l generalizing j with
  | zero => exact .leaf (by simpa using hj)
  | succ l ih =>
    rw [← parents_ancestors] at hj
    -- each child is on an opened path or carried at its own level
    have hchild : ∀ i, i / 2 = j → Derivable opened (schedule height 0 opened) l i := by
      rintro i rfl
      have hi := mem_union_missing.mpr hj
      rw [Finset.mem_union] at hi
      rcases hi with hi | hi
      · exact ih (by omega) hi
      · exact .sibling (mem_schedule.mpr ⟨Nat.zero_le l, by omega, hi⟩)
    exact .parent (hchild (2 * j) (by omega)) (hchild (2 * j + 1) (by omega))

theorem derivable_root (hne : opened.Nonempty) (hlt : ∀ i ∈ opened, i < 2 ^ height) :
    Derivable opened (schedule height 0 opened) height 0 := by
  refine derivable_of_mem_ancestors le_rfl ?_
  rw [ancestors_eq_singleton hne hlt]
  exact Finset.mem_singleton_self 0

variable {carried : List (ℕ × ℕ)}

/-- A node off the opened paths whose descendants are not carried either is not determined. -/
theorem not_derivable_of_notMem (height : ℕ) {l j : ℕ}
    (hcarried : ∀ c ∈ carried, c ∈ schedule height 0 opened) (hoff : j ∉ ancestors opened l)
    (hnot : (l, j) ∉ carried) : ¬ Derivable opened carried l j := by
  intro h
  cases h with
  | leaf hi => exact hoff (by simpa using hi)
  | sibling hmem => exact hnot hmem
  | @parent l _ hleft _ =>
    -- the left child would be off the opened paths, so it would have to be carried; but a
    -- carried node has its partner, and hence its parent, on an opened path
    have hchild : 2 * j ∉ ancestors opened l := by
      intro hmem
      refine hoff ?_
      rw [← parents_ancestors]
      exact mem_parents.mpr ⟨2 * j, hmem, by omega⟩
    refine not_derivable_of_notMem height hcarried hchild (fun hmem => ?_) hleft
    obtain ⟨-, -, hmissing⟩ := mem_schedule.mp (hcarried _ hmem)
    refine hoff ?_
    rw [← parents_ancestors]
    have hpartner := (mem_missing.mp hmissing).1
    refine mem_parents.mpr ⟨_, hpartner, ?_⟩
    rw [xor_one_div_two]
    omega
termination_by l

/-- A scheduled node is not determined by the opened leaves and the other carried digests. -/
theorem not_derivable_erase {c : ℕ × ℕ} (hc : c ∈ schedule height 0 opened) :
    ¬ Derivable opened ((schedule height 0 opened).erase c) c.1 c.2 := by
  obtain ⟨-, -, hmissing⟩ := mem_schedule.mp hc
  refine not_derivable_of_notMem height (fun d hd => List.mem_of_mem_erase hd)
    (mem_missing.mp hmissing).2 ?_
  exact fun h => ((nodup_schedule height 0 opened).mem_erase_iff.mp h).1 rfl

/-- An inner node on an opened path is only determined through both of its children. -/
theorem derivable_children {l j : ℕ} (hcarried : ∀ c ∈ carried, c ∈ schedule height 0 opened)
    (hj : j ∈ ancestors opened (l + 1)) (h : Derivable opened carried (l + 1) j) :
    Derivable opened carried l (2 * j) ∧ Derivable opened carried l (2 * j + 1) := by
  cases h with
  | sibling hmem =>
    obtain ⟨-, -, hmissing⟩ := mem_schedule.mp (hcarried _ hmem)
    exact absurd hj (mem_missing.mp hmissing).2
  | parent hleft hright => exact ⟨hleft, hright⟩

/-- Whatever determines a node on an opened path determines every opened-path node below it. -/
theorem derivable_descend {l k i : ℕ} (hcarried : ∀ c ∈ carried, c ∈ schedule height 0 opened)
    (hi : i ∈ ancestors opened l) (h : Derivable opened carried (l + k) (i / 2 ^ k)) :
    Derivable opened carried l i := by
  induction k generalizing l i with
  | zero => simpa using h
  | succ k ih =>
    have hparent : i / 2 ∈ ancestors opened (l + 1) := by
      rw [← parents_ancestors]
      exact mem_parents.mpr ⟨i, hi, rfl⟩
    have hup : Derivable opened carried (l + 1 + k) (i / 2 / 2 ^ k) := by
      rw [Nat.div_div_eq_div_mul, ← pow_succ', show l + 1 + k = l + (k + 1) by omega]
      exact h
    obtain ⟨hleft, hright⟩ := derivable_children hcarried hparent (ih hparent hup)
    rcases Nat.even_or_odd' i with ⟨m, rfl | rfl⟩
    · rwa [show 2 * (2 * m / 2) = 2 * m by omega] at hleft
    · rwa [show 2 * ((2 * m + 1) / 2) + 1 = 2 * m + 1 by omega] at hright

theorem not_derivable_root_erase (hlt : ∀ i ∈ opened, i < 2 ^ height) {c : ℕ × ℕ}
    (hc : c ∈ schedule height 0 opened) :
    ¬ Derivable opened ((schedule height 0 opened).erase c) height 0 := by
  intro hroot
  obtain ⟨l, i⟩ := c
  have hcarried : ∀ d ∈ (schedule height 0 opened).erase (l, i), d ∈ schedule height 0 opened :=
    fun d hd => List.mem_of_mem_erase hd
  obtain ⟨-, hlh, hmissing⟩ := mem_schedule.mp hc
  rw [zero_add] at hlh
  obtain ⟨leaf, hleaf, hleafi⟩ := mem_ancestors.mp (mem_missing.mp hmissing).1
  -- descend from the root to the parent of the erased node, then to the node itself
  have hparent : i / 2 ∈ ancestors opened (l + 1) := by
    rw [← parents_ancestors]
    exact mem_parents.mpr ⟨_, (mem_missing.mp hmissing).1, xor_one_div_two i⟩
  have htop : i / 2 / 2 ^ (height - (l + 1)) = 0 := by
    rw [← xor_one_div_two, ← hleafi, tsub_zero, Nat.div_div_eq_div_mul, Nat.div_div_eq_div_mul,
      ← pow_succ', ← pow_add, show l + (height - (l + 1) + 1) = height by omega]
    exact Nat.div_eq_of_lt (hlt leaf hleaf)
  have hdown : Derivable opened ((schedule height 0 opened).erase (l, i)) (l + 1) (i / 2) := by
    refine derivable_descend (k := height - (l + 1)) hcarried hparent ?_
    rwa [htop, show l + 1 + (height - (l + 1)) = height by omega]
  obtain ⟨hleft, hright⟩ := derivable_children hcarried hparent hdown
  refine not_derivable_erase hc ?_
  rcases Nat.even_or_odd' i with ⟨m, rfl | rfl⟩
  · rwa [show 2 * (2 * m / 2) = 2 * m by omega] at hleft
  · rwa [show 2 * ((2 * m + 1) / 2) + 1 = 2 * m + 1 by omega] at hright

end Multiproof
