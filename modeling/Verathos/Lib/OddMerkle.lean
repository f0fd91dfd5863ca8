import Mathlib.Data.Nat.Bitwise
import Mathlib.Data.Nat.Size
import Mathlib.Tactic

/-!
# Odd-duplicate Merkle trees

Trees over any number of leaves, in which the last node of a level with an odd number of nodes is
combined with itself. `reduce` computes them level by level.

The same root comes from the *frontier* of the leaves, the roots of the perfect subtrees at the set
bits of the number of leaves: `carry` appends a leaf to it (`carry_frontier`), and `close` closes it
by combining the carry with itself up to the next occupied level (`close_frontier`).

Every leaf has a *path* of siblings, and climbing from the leaf along it gives the root
(`climbPath_path`); a climb determines its leaf unless two nodes collide (`climbPath_injective`).
-/

namespace OddMerkle

variable {D : Type*} (node : D → D → D)

/-! ## Levels -/

/-- The next level: neighbours are combined, and a last node without neighbour with itself. -/
def pairUp : List D → List D
  | [] => []
  | [a] => [node a a]
  | a :: b :: rest => node a b :: pairUp rest

/-- The part of the next level that comes from two different nodes. -/
def pairs : List D → List D
  | [] => []
  | [_] => []
  | a :: b :: rest => node a b :: pairs rest

theorem length_pairUp (level : List D) : (pairUp node level).length = (level.length + 1) / 2 := by
  fun_induction pairUp with
  | case1 => simp
  | case2 a => simp
  | case3 a b rest ih =>
    simp only [List.length_cons, ih]
    omega

theorem length_pairs (level : List D) : (pairs node level).length = level.length / 2 := by
  fun_induction pairs with
  | case1 => simp
  | case2 a => simp
  | case3 a b rest ih =>
    simp only [List.length_cons, ih]
    omega

variable {front : List D}

theorem pairUp_append (h : front.length % 2 = 0) (back : List D) :
    pairUp node (front ++ back) = pairs node front ++ pairUp node back := by
  fun_induction pairs node front with
  | case1 => rfl
  | case2 a => simp at h
  | case3 a b rest ih =>
    simp only [List.length_cons] at h
    rw [List.cons_append, List.cons_append, pairUp, ih (by omega), List.cons_append]

theorem pairs_append (h : front.length % 2 = 0) (back : List D) :
    pairs node (front ++ back) = pairs node front ++ pairs node back := by
  fun_induction pairs node front with
  | case1 => rfl
  | case2 a => simp at h
  | case3 a b rest ih =>
    simp only [List.length_cons] at h
    rw [List.cons_append, List.cons_append, pairs, ih (by omega), List.cons_append]

variable {level : List D}

theorem pairUp_of_even (h : level.length % 2 = 0) : pairUp node level = pairs node level := by
  simpa [pairUp] using pairUp_append node h []

/-- Reduce a level until one node is left. -/
def reduce (level : List D) : List D :=
  if 1 < level.length then reduce (pairUp node level) else level
termination_by level.length
decreasing_by
  rw [length_pairUp]
  omega

theorem reduce_of_lt (h : 1 < level.length) :
    reduce node level = reduce node (pairUp node level) := by
  rw [reduce, if_pos h]

theorem reduce_of_le (h : level.length ≤ 1) : reduce node level = level := by
  rw [reduce, if_neg (by omega)]

/-- The root; `none` without leaves. -/
def root (leaves : List D) : Option D := (reduce node leaves).head?

theorem root_of_lt (h : 1 < level.length) : root node level = root node (pairUp node level) := by
  rw [root, reduce_of_lt node h, root]

@[simp]
theorem root_nil : root node [] = none := by
  rw [root, reduce_of_le node (by simp)]
  rfl

@[simp]
theorem root_singleton (a : D) : root node [a] = some a := by
  rw [root, reduce_of_le node (by simp)]
  rfl

/-! ## The frontier -/

/-- The roots of the perfect subtrees, from the lowest level: the last node of an odd level is one,
and the others are those of the next level. -/
def frontier (leaves : List D) : List (Option D) :=
  if leaves = [] then []
  else (if leaves.length % 2 = 1 then leaves.getLast? else none) :: frontier (pairs node leaves)
termination_by leaves.length
decreasing_by
  rename_i h
  rw [length_pairs]
  have := List.length_pos_iff.mpr h
  omega

/-- Append a leaf: the carry moves up through the occupied levels. -/
def carry : List (Option D) → D → List (Option D)
  | [], leaf => [some leaf]
  | none :: rest, leaf => some leaf :: rest
  | some peak :: rest, leaf => none :: carry rest (node peak leaf)

/-- Close the levels above a carry: it is combined with the peak of the level, or with itself. -/
def climb (leaf : D) : List (Option D) → D
  | [] => leaf
  | none :: rest => climb (node leaf leaf) rest
  | some peak :: rest => climb (node peak leaf) rest

/-- Close a frontier: the lowest peak is the first carry. -/
def close : List (Option D) → Option D
  | [] => none
  | none :: rest => close rest
  | some peak :: rest => some (if rest = [] then peak else climb node (node peak peak) rest)

@[simp]
theorem frontier_nil : frontier node ([] : List D) = [] := by
  rw [frontier, if_pos rfl]

theorem frontier_of_even {leaves : List D} (hne : leaves ≠ []) (h : leaves.length % 2 = 0) :
    frontier node leaves = none :: frontier node (pairs node leaves) := by
  rw [frontier, if_neg hne, if_neg (by omega)]

theorem frontier_append (h : front.length % 2 = 0) (last : D) :
    frontier node (front ++ [last]) = some last :: frontier node (pairs node front) := by
  rw [frontier, if_neg (by simp), pairs_append node h, pairs, List.append_nil, List.getLast?_concat,
    if_pos (by simp; omega)]

variable (leaves : List D)

/-- A list is empty, or has an even number of entries, or is one entry after an even number. -/
theorem even_or_append :
    leaves.length % 2 = 0 ∨ ∃ front last, front.length % 2 = 0 ∧ leaves = front ++ [last] := by
  rcases Nat.mod_two_eq_zero_or_one leaves.length with heven | hodd
  · exact .inl heven
  · have hne : leaves ≠ [] := by
      rintro rfl
      simp at hodd
    refine .inr ⟨leaves.dropLast, leaves.getLast hne, ?_, (List.dropLast_append_getLast hne).symm⟩
    rw [List.length_dropLast]
    omega

theorem pairs_ne_nil {leaves : List D} (hne : leaves ≠ []) (h : leaves.length % 2 = 0) :
    pairs node leaves ≠ [] := by
  have hpos := List.length_pos_iff.mpr hne
  rw [← List.length_pos_iff, length_pairs]
  omega

theorem carry_frontier (leaf : D) :
    carry node (frontier node leaves) leaf = frontier node (leaves ++ [leaf]) := by
  induction h : leaves.length using Nat.strong_induction_on generalizing leaves leaf with
  | _ n ih =>
    subst h
    rcases even_or_append leaves with heven | ⟨front, last, heven, rfl⟩
    · rw [frontier_append node heven]
      by_cases hne : leaves = []
      · subst hne
        simp [carry, pairs]
      · rw [frontier_of_even node hne heven, carry]
    · -- the last leaf and the new one are combined
      have hlength : (pairs node front).length < (front ++ [last]).length := by
        rw [length_pairs, List.length_append, List.length_singleton]
        omega
      have heven' : (front ++ [last] ++ [leaf]).length % 2 = 0 := by
        simp only [List.length_append, List.length_singleton]
        omega
      rw [frontier_append node heven, carry, ih _ hlength _ _ rfl,
        frontier_of_even node (by simp) heven', List.append_assoc, pairs_append node heven]
      rfl

/-- Closing above a carry gives the root of the leaves with the carry as their last. -/
theorem climb_frontier (leaf : D) :
    root node (leaves ++ [leaf]) = some (climb node leaf (frontier node leaves)) := by
  induction h : leaves.length using Nat.strong_induction_on generalizing leaves leaf with
  | _ n ih =>
    subst h
    rcases even_or_append leaves with heven | ⟨front, last, heven, rfl⟩
    · by_cases hne : leaves = []
      · subst hne
        simp [climb]
      · have hpos := List.length_pos_iff.mpr hne
        have hlength : (pairs node leaves).length < leaves.length := by
          rw [length_pairs]
          omega
        rw [root_of_lt node (by simp; omega), pairUp_append node heven, pairUp, ih _ hlength _ _ rfl,
          frontier_of_even node hne heven, climb]
    · have hlength : (pairs node front).length < (front ++ [last]).length := by
        rw [length_pairs, List.length_append, List.length_singleton]
        omega
      rw [root_of_lt node (by simp), List.append_assoc, pairUp_append node heven,
        List.singleton_append, pairUp, pairUp, ih _ hlength _ _ rfl, frontier_append node heven,
        climb]

theorem close_frontier : close node (frontier node leaves) = root node leaves := by
  induction h : leaves.length using Nat.strong_induction_on generalizing leaves with
  | _ n ih =>
    subst h
    rcases even_or_append leaves with heven | ⟨front, last, heven, rfl⟩
    · by_cases hne : leaves = []
      · subst hne
        simp [close]
      · have hpos := List.length_pos_iff.mpr hne
        have hlength : (pairs node leaves).length < leaves.length := by
          rw [length_pairs]
          omega
        have hroot : root node leaves = root node (pairs node leaves) := by
          rw [root_of_lt node (by omega), pairUp_of_even node heven]
        rw [frontier_of_even node hne heven, close, ih _ hlength _ rfl, hroot]
    · rw [frontier_append node heven, climb_frontier, close]
      by_cases hne : front = []
      · subst hne
        simp [pairs, climb]
      · have hrest : frontier node (pairs node front) ≠ [] := by
          rw [frontier, if_neg (pairs_ne_nil node hne heven)]
          simp
        rw [if_neg hrest, frontier_of_even node hne heven, climb]

/-! ## The shape of the frontier -/

theorem size_eq_succ {n : ℕ} (h : 0 < n) : n.size = (n / 2).size + 1 := by
  have hbit : Nat.bit n.bodd n.div2 ≠ 0 := by
    rw [Nat.bit_bodd_div2]
    omega
  have hsize := Nat.size_bit hbit
  rwa [Nat.bit_bodd_div2, Nat.div2_val] at hsize

theorem length_frontier : (frontier node leaves).length = leaves.length.size := by
  fun_induction frontier with
  | case1 => simp
  | case2 leaves hne ih =>
    rw [List.length_cons, ih, length_pairs, ← size_eq_succ (List.length_pos_iff.mpr hne)]

theorem getLast?_frontier {leaves : List D} (hne : leaves ≠ []) :
    ∃ peak, (frontier node leaves).getLast? = some (some peak) := by
  induction h : leaves.length using Nat.strong_induction_on generalizing leaves with
  | _ n ih =>
    subst h
    have hpos := List.length_pos_iff.mpr hne
    by_cases hpairs : pairs node leaves = []
    · -- one leaf
      have hone : leaves.length = 1 := by
        have hlength := congrArg List.length hpairs
        rw [length_pairs, List.length_nil] at hlength
        omega
      obtain ⟨a, rfl⟩ := List.length_eq_one_iff.mp hone
      refine ⟨a, ?_⟩
      rw [frontier, if_neg hne, hpairs, frontier_nil]
      simp
    · have hlength : (pairs node leaves).length < leaves.length := by
        rw [length_pairs]
        omega
      obtain ⟨peak, hpeak⟩ := ih _ hlength hpairs rfl
      refine ⟨peak, ?_⟩
      rw [frontier, if_neg hne, List.getLast?_cons, hpeak]
      rfl

/-- The root of the perfect subtree at a level, if the number of leaves has that bit: it stands after
the leaves of the higher bits. -/
def peak (leaves : List D) (level : ℕ) : Option D :=
  if leaves.length.testBit level then
    root node ((leaves.drop (leaves.length / 2 ^ (level + 1) * 2 ^ (level + 1))).take (2 ^ level))
  else none

theorem pairs_drop (count : ℕ) (leaves : List D) :
    pairs node (leaves.drop (2 * count)) = (pairs node leaves).drop count := by
  induction count generalizing leaves with
  | zero => rfl
  | succ count ih =>
    match leaves with
    | [] => simp [pairs]
    | [a] => simp [pairs, Nat.mul_succ]
    | a :: b :: rest =>
      rw [Nat.mul_succ, pairs, List.drop_succ_cons, List.drop_succ_cons, List.drop_succ_cons, ih]

theorem pairs_take (count : ℕ) (leaves : List D) :
    pairs node (leaves.take (2 * count)) = (pairs node leaves).take count := by
  induction count generalizing leaves with
  | zero => simp [pairs]
  | succ count ih =>
    match leaves with
    | [] => simp [pairs]
    | [a] => simp [pairs, Nat.mul_succ]
    | a :: b :: rest =>
      rw [Nat.mul_succ, List.take_succ_cons, List.take_succ_cons, pairs, pairs, List.take_succ_cons,
        ih]

theorem pow_le_mod_of_testBit {n level : ℕ} (h : n.testBit level = true) :
    2 ^ level ≤ n % 2 ^ (level + 1) := by
  rw [Nat.testBit_eq_decide_div_mod_eq, decide_eq_true_eq] at h
  rw [pow_succ, Nat.mod_mul, h, mul_one]
  exact Nat.le_add_left _ _

theorem getD_frontier (level : ℕ) :
    (frontier node leaves).getD level none = peak node leaves level := by
  induction level generalizing leaves with
  | zero =>
    by_cases hne : leaves = []
    · simp [hne, peak]
    · rw [frontier, if_neg hne, peak, List.getD_cons_zero, Nat.testBit_zero]
      by_cases hodd : leaves.length % 2 = 1
      · have hlast : leaves.drop (leaves.length / 2 ^ (0 + 1) * 2 ^ (0 + 1)) =
            [leaves.getLast hne] := by
          rw [← List.drop_length_sub_one hne]
          congr 1
          omega
        rw [if_pos hodd, if_pos (by simpa using hodd), hlast, List.getLast?_eq_some_getLast hne]
        exact (root_singleton node _).symm
      · rw [if_neg hodd, if_neg (by simpa using hodd)]
  | succ level ih =>
    by_cases hne : leaves = []
    · simp [hne, peak]
    · rw [frontier, if_neg hne, List.getD_cons_succ, ih, peak, peak, length_pairs, Nat.testBit_succ]
      by_cases hbit : (leaves.length / 2).testBit level = true
      · rw [if_pos hbit, if_pos hbit]
        have hoffset : leaves.length / 2 ^ (level + 1 + 1) * 2 ^ (level + 1 + 1) =
            2 * (leaves.length / 2 / 2 ^ (level + 1) * 2 ^ (level + 1)) := by
          rw [pow_succ 2 (level + 1), mul_comm (2 ^ (level + 1)) 2, ← Nat.div_div_eq_div_mul]
          ring
        -- the subtree has all of its leaves
        have hfull : 2 ^ (level + 1) ≤ leaves.length % 2 ^ (level + 1 + 1) :=
          pow_le_mod_of_testBit (by rw [Nat.testBit_succ]; exact hbit)
        have hdivmod := Nat.div_add_mod' leaves.length (2 ^ (level + 1 + 1))
        set block := (leaves.drop (leaves.length / 2 ^ (level + 1 + 1) * 2 ^ (level + 1 + 1))).take
          (2 ^ (level + 1)) with hblock
        have hlength : block.length = 2 ^ (level + 1) := by
          rw [hblock, List.length_take, List.length_drop]
          omega
        have hpairs : pairs node block =
            ((pairs node leaves).drop (leaves.length / 2 / 2 ^ (level + 1) * 2 ^ (level + 1))).take
              (2 ^ level) := by
          rw [hblock, hoffset, pow_succ', pairs_take, pairs_drop]
        have hpow : 0 < 2 ^ level := Nat.two_pow_pos level
        have heven : block.length % 2 = 0 := by
          rw [hlength, pow_succ]
          omega
        have hlt : 1 < block.length := by
          rw [hlength, pow_succ]
          omega
        have hroot : root node block = root node (pairs node block) := by
          rw [root_of_lt node hlt, pairUp_of_even node heven]
        rw [hroot, hpairs]
      · rw [if_neg hbit, if_neg hbit]

theorem isSome_getD_frontier (level : ℕ) :
    ((frontier node leaves).getD level none).isSome = leaves.length.testBit level := by
  induction level generalizing leaves with
  | zero =>
    by_cases hne : leaves = []
    · simp [hne]
    · rw [frontier, if_neg hne, List.getD_cons_zero, Nat.testBit_zero]
      split_ifs with hodd
      · simp [hodd, hne]
      · simp [hodd]
  | succ level ih =>
    by_cases hne : leaves = []
    · simp [hne]
    · rw [frontier, if_neg hne, List.getD_cons_succ, ih, length_pairs, Nat.testBit_succ]

/-! ## Paths -/

/-- The siblings of a leaf, from the leaves up. A node without neighbour is its own sibling. -/
def path (leaves : List D) (index : ℕ) : List D :=
  if 1 < leaves.length then
    (leaves[index ^^^ 1]?.or leaves[index]?).toList ++ path (pairUp node leaves) (index / 2)
  else []
termination_by leaves.length
decreasing_by
  rw [length_pairUp]
  omega

/-- Climb from a leaf along siblings: the bits of the index say on which side they are. -/
def climbPath (leaf : D) (index : ℕ) : List D → D
  | [] => leaf
  | sibling :: rest =>
    climbPath (if index % 2 = 1 then node sibling leaf else node leaf sibling) (index / 2) rest

theorem getElem?_pairUp (level : List D) (index : ℕ) :
    (pairUp node level)[index]? =
      level[2 * index]?.map fun a => node a (level[2 * index + 1]?.getD a) := by
  fun_induction pairUp generalizing index with
  | case1 => simp
  | case2 a => cases index <;> simp [Nat.mul_succ]
  | case3 a b rest ih =>
    cases index with
    | zero => simp
    | succ index =>
      rw [List.getElem?_cons_succ, ih, Nat.mul_succ, List.getElem?_cons_succ,
        List.getElem?_cons_succ, List.getElem?_cons_succ, List.getElem?_cons_succ]

variable {index : ℕ}

/-- One step up from a node, with its sibling, is a node of the next level. -/
theorem exists_sibling {leaf : D} (h : level[index]? = some leaf) :
    ∃ sibling, level[index ^^^ 1]?.or level[index]? = some sibling ∧
      (pairUp node level)[index / 2]? =
        some (if index % 2 = 1 then node sibling leaf else node leaf sibling) := by
  have hlt : index < level.length := (List.getElem?_eq_some_iff.mp h).1
  rcases Nat.mod_two_eq_zero_or_one index with heven | hodd
  · have hxor : index ^^^ 1 = 2 * (index / 2) + 1 := by
      rw [Nat.xor_one_of_even (Nat.even_iff.mpr heven)]
      omega
    have hindex : 2 * (index / 2) = index := by omega
    refine ⟨level[index + 1]?.getD leaf, ?_, ?_⟩
    · rw [hxor, hindex, h]
      cases level[index + 1]? <;> simp
    · rw [getElem?_pairUp, hindex, h, if_neg (by omega), Option.map_some]
  · have hxor : index ^^^ 1 = 2 * (index / 2) := by
      rw [Nat.xor_one_of_odd (Nat.odd_iff.mpr hodd)]
      omega
    have hindex : 2 * (index / 2) + 1 = index := by omega
    have hbefore : level[2 * (index / 2)]? = some level[2 * (index / 2)] :=
      List.getElem?_eq_getElem (by omega)
    refine ⟨level[2 * (index / 2)], ?_, ?_⟩
    · rw [hxor, hbefore]
      rfl
    · rw [getElem?_pairUp, hindex, h, hbefore, if_pos hodd, Option.map_some, Option.getD_some]

theorem climbPath_path {leaves : List D} {leaf : D} (h : leaves[index]? = some leaf) :
    root node leaves = some (climbPath node leaf index (path node leaves index)) := by
  induction hn : leaves.length using Nat.strong_induction_on generalizing leaves index leaf with
  | _ n ih =>
    subst hn
    have hlt : index < leaves.length := (List.getElem?_eq_some_iff.mp h).1
    by_cases hone : 1 < leaves.length
    · obtain ⟨sibling, hsibling, hparent⟩ := exists_sibling node h
      have hlength : (pairUp node leaves).length < leaves.length := by
        rw [length_pairUp]
        omega
      have hpath : path node leaves index =
          sibling :: path node (pairUp node leaves) (index / 2) := by
        rw [path, if_pos hone, hsibling]
        rfl
      rw [root_of_lt node hone, ih _ hlength hparent rfl, hpath, climbPath]
    · obtain ⟨a, rfl⟩ := List.length_eq_one_iff.mp (show leaves.length = 1 by omega)
      have hzero : index = 0 := by simpa using hlt
      subst hzero
      rw [path, if_neg hone, root_singleton, climbPath]
      simpa using h

theorem length_path {leaves : List D} (h : index < leaves.length) :
    (path node leaves index).length = (leaves.length - 1).size := by
  induction hn : leaves.length using Nat.strong_induction_on generalizing leaves index with
  | _ n ih =>
    subst hn
    by_cases hone : 1 < leaves.length
    · obtain ⟨sibling, hsibling, -⟩ :=
        exists_sibling node (List.getElem?_eq_getElem h)
      have hlength : (pairUp node leaves).length < leaves.length := by
        rw [length_pairUp]
        omega
      have hindex : index / 2 < (pairUp node leaves).length := by
        rw [length_pairUp]
        omega
      have hhalf : (leaves.length + 1) / 2 - 1 = (leaves.length - 1) / 2 := by omega
      rw [path, if_pos hone, hsibling, List.length_append, ih _ hlength hindex rfl, length_pairUp,
        hhalf, size_eq_succ (show 0 < leaves.length - 1 by omega)]
      simp [Nat.add_comm]
    · have hzero : leaves.length - 1 = 0 := by omega
      rw [path, if_neg hone, hzero]
      simp

/-- The pairs that a climb combines. -/
def climbPairs (leaf : D) (index : ℕ) : List D → List (D × D)
  | [] => []
  | sibling :: rest =>
    (if index % 2 = 1 then (sibling, leaf) else (leaf, sibling)) ::
      climbPairs (if index % 2 = 1 then node sibling leaf else node leaf sibling) (index / 2) rest

/-- Two different pairs, one from each list, have the same node. -/
def Collide (pairs pairs' : List (D × D)) : Prop :=
  ∃ pair ∈ pairs, ∃ pair' ∈ pairs', pair ≠ pair' ∧ node pair.1 pair.2 = node pair'.1 pair'.2

variable {node}

theorem Collide.mono {pairs pairs' more more' : List (D × D)} (h : Collide node pairs pairs')
    (hsubset : pairs ⊆ more) (hsubset' : pairs' ⊆ more') : Collide node more more' := by
  obtain ⟨pair, hpair, pair', hpair', hcollide⟩ := h
  exact ⟨pair, hsubset hpair, pair', hsubset' hpair', hcollide⟩

theorem climbPath_injective {leaf leaf' : D} {siblings siblings' : List D}
    (hlength : siblings.length = siblings'.length)
    (h : climbPath node leaf index siblings = climbPath node leaf' index siblings') :
    leaf = leaf' ∨ Collide node (climbPairs node leaf index siblings)
      (climbPairs node leaf' index siblings') := by
  induction siblings generalizing leaf leaf' index siblings' with
  | nil =>
    obtain rfl := List.length_eq_zero_iff.mp hlength.symm
    exact .inl h
  | cons sibling rest ih =>
    match siblings', hlength with
    | sibling' :: rest', hlength =>
      rcases ih (Nat.succ.inj hlength) h with hnode | hcollide
      · by_cases hpair : (if index % 2 = 1 then (sibling, leaf) else (leaf, sibling)) =
            if index % 2 = 1 then (sibling', leaf') else (leaf', sibling')
        · refine .inl ?_
          split_ifs at hpair
          · exact congrArg Prod.snd hpair
          · exact congrArg Prod.fst hpair
        · refine .inr ⟨_, List.mem_cons_self, _, List.mem_cons_self, hpair, ?_⟩
          split_ifs at hnode ⊢
          · exact hnode
          · exact hnode
      · exact .inr (hcollide.mono (List.subset_cons_self _ _) (List.subset_cons_self _ _))

end OddMerkle

/-!
## The leaves under a Merkle root

A Merkle tree whose nodes do not tell which child is left does not bind the order of its leaves, and
one that combines the last node of an odd level with itself does not bind how often a leaf occurs.
It binds which leaves there are: when two trees over equally many leaves have one root, and a
combination determines its two nodes up to their order, both have the same leaves
(`mem_iff_of_root_eq`).

The proof labels every node with the leaves below it. Combining labels along with nodes keeps that
equal nodes have equal labels (`SameLabels.pairUp`).
-/

namespace OddMerkle

variable {D L : Type*} (node : D → D → D)

/-! ### What is combined -/

/-- The pairs of nodes that make up the next level. -/
def pairsOf : List D → List (D × D)
  | [] => []
  | [a] => [(a, a)]
  | a :: b :: rest => (a, b) :: pairsOf rest

theorem pairUp_eq_map (level : List D) :
    pairUp node level = (pairsOf level).map fun pair => node pair.1 pair.2 := by
  fun_induction pairUp with
  | case1 => rfl
  | case2 a => rfl
  | case3 a b rest ih => rw [ih, pairsOf, List.map_cons]

/-- The pairs of nodes that are combined on all levels. -/
def combined (level : List D) : List (D × D) :=
  if 1 < level.length then pairsOf level ++ combined (pairUp node level) else []
termination_by level.length
decreasing_by
  rw [length_pairUp]
  omega

theorem combined_of_lt {level : List D} (h : 1 < level.length) :
    combined node level = pairsOf level ++ combined node (pairUp node level) := by
  rw [combined, if_pos h]

theorem mem_of_mem_pairsOf {level : List D} {pair : D × D} (h : pair ∈ pairsOf level) :
    pair.1 ∈ level ∧ pair.2 ∈ level := by
  fun_induction pairsOf with
  | case1 => cases h
  | case2 a =>
    obtain rfl := List.mem_singleton.mp h
    simp
  | case3 a b rest ih =>
    rcases List.mem_cons.mp h with rfl | h
    · simp
    · exact (ih h).imp (fun h => by simp [h]) fun h => by simp [h]

theorem exists_mem_pairsOf {level : List D} {a : D} (h : a ∈ level) :
    ∃ pair ∈ pairsOf level, a = pair.1 ∨ a = pair.2 := by
  fun_induction pairsOf with
  | case1 => cases h
  | case2 b => exact ⟨_, List.mem_singleton_self _, .inl (List.mem_singleton.mp h)⟩
  | case3 b c rest ih =>
    rcases List.mem_cons.mp h with rfl | h
    · exact ⟨_, List.mem_cons_self, .inl rfl⟩
    · rcases List.mem_cons.mp h with rfl | h
      · exact ⟨_, List.mem_cons_self, .inr rfl⟩
      · obtain ⟨pair, hpair, ha⟩ := ih h
        exact ⟨pair, List.mem_cons_of_mem _ hpair, ha⟩

theorem exists_root {level : List D} (h : level ≠ []) : ∃ a, root node level = some a := by
  induction hn : level.length using Nat.strong_induction_on generalizing level with
  | _ n ih =>
    have hpos : 0 < level.length := List.length_pos_iff.mpr h
    have hpairUp : (pairUp node level).length = (level.length + 1) / 2 := length_pairUp node level
    rcases Nat.lt_or_ge 1 level.length with hlt | hle
    · rw [root_of_lt node hlt]
      exact ih _ (by omega) (List.length_pos_iff.mp (by omega)) rfl
    · obtain ⟨a, rfl⟩ := List.length_eq_one_iff.mp (show level.length = 1 by omega)
      exact ⟨a, root_singleton node a⟩

/-! ### Labels -/

/-- Combine labelled nodes: the leaves below a node are those below its children. -/
def labelled (a b : D × Set L) : D × Set L := (node a.1 b.1, a.2 ∪ b.2)

/-- The labels of a level. -/
def labels (level : List (D × Set L)) : Set L := {a | ∃ entry ∈ level, a ∈ entry.2}

theorem pairsOf_map_fst (level : List (D × Set L)) :
    pairsOf (level.map Prod.fst) = (pairsOf level).map fun pair => (pair.1.1, pair.2.1) := by
  fun_induction pairsOf level with
  | case1 => rfl
  | case2 a => rfl
  | case3 a b rest ih => rw [List.map_cons, List.map_cons, pairsOf, ih, List.map_cons]

theorem map_fst_pairUp (level : List (D × Set L)) :
    (pairUp (labelled node) level).map Prod.fst = pairUp node (level.map Prod.fst) := by
  rw [pairUp_eq_map, pairUp_eq_map, pairsOf_map_fst, List.map_map, List.map_map]
  rfl

theorem labels_pairUp (level : List (D × Set L)) :
    labels (pairUp (labelled node) level) = labels level := by
  ext a
  rw [pairUp_eq_map]
  constructor
  · rintro ⟨entry, hentry, ha⟩
    obtain ⟨pair, hpair, rfl⟩ := List.mem_map.mp hentry
    rcases ha with ha | ha
    · exact ⟨pair.1, (mem_of_mem_pairsOf hpair).1, ha⟩
    · exact ⟨pair.2, (mem_of_mem_pairsOf hpair).2, ha⟩
  · rintro ⟨entry, hentry, ha⟩
    obtain ⟨pair, hpair, heq⟩ := exists_mem_pairsOf hentry
    refine ⟨_, List.mem_map_of_mem hpair, ?_⟩
    rcases heq with rfl | rfl
    · exact .inl ha
    · exact .inr ha

/-- Equal nodes of the two levels have equal labels. -/
def SameLabels (level level' : List (D × Set L)) : Prop :=
  ∀ entry ∈ level, ∀ entry' ∈ level', entry.1 = entry'.1 → entry.2 = entry'.2

/-- The combinations on both sides determine their two nodes up to the order. -/
def Unordered (combinations combinations' : List (D × D)) : Prop :=
  ∀ pair ∈ combinations, ∀ pair' ∈ combinations',
    node pair.1 pair.2 = node pair'.1 pair'.2 → pair = pair' ∨ pair = pair'.swap

variable {node}

theorem Unordered.mono {combinations combinations' fewer fewer' : List (D × D)}
    (h : Unordered node combinations combinations') (hfewer : fewer ⊆ combinations)
    (hfewer' : fewer' ⊆ combinations') : Unordered node fewer fewer' :=
  fun pair hpair pair' hpair' => h pair (hfewer hpair) pair' (hfewer' hpair')

theorem SameLabels.pairUp {level level' : List (D × Set L)} (h : SameLabels level level')
    (hnode : Unordered node (pairsOf (level.map Prod.fst)) (pairsOf (level'.map Prod.fst))) :
    SameLabels (pairUp (labelled node) level) (pairUp (labelled node) level') := by
  rw [pairsOf_map_fst, pairsOf_map_fst] at hnode
  rw [pairUp_eq_map, pairUp_eq_map]
  intro entry hentry entry' hentry' heq
  obtain ⟨pair, hpair, rfl⟩ := List.mem_map.mp hentry
  obtain ⟨pair', hpair', rfl⟩ := List.mem_map.mp hentry'
  obtain ⟨hleft, hright⟩ := mem_of_mem_pairsOf hpair
  obtain ⟨hleft', hright'⟩ := mem_of_mem_pairsOf hpair'
  show pair.1.2 ∪ pair.2.2 = pair'.1.2 ∪ pair'.2.2
  rcases hnode _ (List.mem_map_of_mem hpair) _ (List.mem_map_of_mem hpair') heq with hsame | hswap
  · obtain ⟨hfst, hsnd⟩ := Prod.ext_iff.mp hsame
    rw [h _ hleft _ hleft' hfst, h _ hright _ hright' hsnd]
  · obtain ⟨hfst, hsnd⟩ := Prod.ext_iff.mp hswap
    rw [h _ hleft _ hright' hfst, h _ hright _ hleft' hsnd, Set.union_comm]

theorem labels_eq_of_root_eq {level level' : List (D × Set L)}
    (hlength : level.length = level'.length) (hsame : SameLabels level level')
    (hnode : Unordered node (combined node (level.map Prod.fst))
      (combined node (level'.map Prod.fst)))
    (hroot : root node (level.map Prod.fst) = root node (level'.map Prod.fst)) :
    labels level = labels level' := by
  induction hn : level.length using Nat.strong_induction_on generalizing level level' with
  | _ n ih =>
    rcases Nat.lt_or_ge 1 level.length with hlt | hle
    · have hlt' : 1 < level'.length := hlength ▸ hlt
      have hfst : 1 < (level.map Prod.fst).length := by rwa [List.length_map]
      have hfst' : 1 < (level'.map Prod.fst).length := by rwa [List.length_map]
      rw [combined_of_lt node hfst, combined_of_lt node hfst'] at hnode
      rw [root_of_lt node hfst, root_of_lt node hfst', ← map_fst_pairUp, ← map_fst_pairUp] at hroot
      rw [← labels_pairUp node level, ← labels_pairUp node level']
      refine ih _ ?_ ?_ (hsame.pairUp ?_) ?_ hroot rfl
      · rw [length_pairUp]
        omega
      · rw [length_pairUp, length_pairUp, hlength]
      · exact hnode.mono (List.subset_append_left _ _) (List.subset_append_left _ _)
      · rw [map_fst_pairUp, map_fst_pairUp]
        exact hnode.mono (List.subset_append_right _ _) (List.subset_append_right _ _)
    · -- At the root there is one node on each side, or none.
      match level, level', hlength, hle with
      | [], [], _, _ => rfl
      | [a], [b], _, _ =>
        have heq : a.1 = b.1 := by simpa using hroot
        have hlabel := hsame a List.mem_cons_self b List.mem_cons_self heq
        ext x
        simp [labels, hlabel]

/-- The leaves, each labelled with itself. -/
def ownLabels (leaves : List D) : List (D × Set D) := leaves.map fun a => (a, {a})

@[simp]
theorem map_fst_ownLabels (leaves : List D) : (ownLabels leaves).map Prod.fst = leaves := by
  rw [ownLabels, List.map_map]
  exact List.map_id _

theorem labels_ownLabels (leaves : List D) : labels (ownLabels leaves) = {a | a ∈ leaves} := by
  ext a
  simp [labels, ownLabels]

theorem sameLabels_ownLabels (leaves leaves' : List D) :
    SameLabels (ownLabels leaves) (ownLabels leaves') := by
  intro entry hentry entry' hentry' heq
  obtain ⟨b, -, rfl⟩ := List.mem_map.mp hentry
  obtain ⟨c, -, rfl⟩ := List.mem_map.mp hentry'
  exact Set.singleton_eq_singleton_iff.mpr heq

theorem mem_iff_of_root_eq {leaves leaves' : List D} (hlength : leaves.length = leaves'.length)
    (hnode : Unordered node (combined node leaves) (combined node leaves'))
    (hroot : root node leaves = root node leaves') (a : D) : a ∈ leaves ↔ a ∈ leaves' := by
  have hlengths : (ownLabels leaves).length = (ownLabels leaves').length := by
    rw [ownLabels, List.length_map, hlength, ownLabels, List.length_map]
  have hlabels := labels_eq_of_root_eq hlengths (sameLabels_ownLabels leaves leaves')
    (by simpa using hnode) (by simpa using hroot)
  rw [labels_ownLabels, labels_ownLabels] at hlabels
  exact Set.ext_iff.mp hlabels a

end OddMerkle
