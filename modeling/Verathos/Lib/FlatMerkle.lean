import Verathos.Lib.OddMerkle

/-!
# Odd-duplicate trees in one list of nodes

The levels of an odd-duplicate tree one after the other, from the leaves up (`flatten`), with the
sizes of the levels (`sizes`). A path carries, besides the siblings, the side on which each of them
is (`withSides`): it is read off the list at `siblingIndex` in every level, and folding a leaf along
it is climbing along the siblings (`foldl_withSides`).
-/

namespace FlatMerkle

open OddMerkle

variable {D : Type*} (node : D → D → D)

/-! ## Levels -/

/-- The nodes of all levels, from the leaves up. -/
def flatten (level : List D) : List D :=
  if 1 < level.length then level ++ flatten (pairUp node level) else level
termination_by level.length
decreasing_by
  rw [length_pairUp]
  omega

/-- The sizes of the levels. -/
def sizes (count : ℕ) : List ℕ :=
  if count ≤ 1 then [count] else count :: sizes ((count + 1) / 2)

/-- The number of levels above the leaves. -/
def height (count : ℕ) : ℕ :=
  if count ≤ 1 then 0 else height ((count + 1) / 2) + 1

variable {level : List D}

theorem flatten_of_lt (h : 1 < level.length) :
    flatten node level = level ++ flatten node (pairUp node level) := by
  rw [flatten, if_pos h]

theorem flatten_of_le (h : level.length ≤ 1) : flatten node level = level := by
  rw [flatten, if_neg (by omega)]

variable {count : ℕ}

theorem sizes_of_lt (h : 1 < count) : sizes count = count :: sizes ((count + 1) / 2) := by
  rw [sizes, if_neg (by omega)]

theorem sizes_of_le (h : count ≤ 1) : sizes count = [count] := by
  rw [sizes, if_pos h]

theorem sizes_ne_nil (count : ℕ) : sizes count ≠ [] := by
  rw [sizes]
  split_ifs
  · exact List.cons_ne_nil _ _
  · exact List.cons_ne_nil _ _

theorem height_of_lt (h : 1 < count) : height count = height ((count + 1) / 2) + 1 := by
  rw [height, if_neg (by omega)]

theorem dropLast_sizes_of_lt (h : 1 < count) :
    (sizes count).dropLast = count :: (sizes ((count + 1) / 2)).dropLast := by
  rw [sizes_of_lt h, List.dropLast_cons_of_ne_nil (sizes_ne_nil _)]

theorem prefix_flatten (level : List D) : level <+: flatten node level := by
  rw [flatten]
  split_ifs
  · exact List.prefix_append _ _
  · exact List.prefix_rfl

theorem getLast?_flatten (level : List D) : (flatten node level).getLast? = root node level := by
  induction h : level.length using Nat.strong_induction_on generalizing level with
  | _ n ih =>
    subst h
    by_cases hone : 1 < level.length
    · have hlength : (pairUp node level).length < level.length := by
        rw [length_pairUp]
        omega
      have hne : flatten node (pairUp node level) ≠ [] := by
        apply List.IsPrefix.ne_nil (prefix_flatten node _)
        rw [← List.length_pos_iff, length_pairUp]
        omega
      rw [flatten_of_lt node hone, List.getLast?_append_of_ne_nil _ hne, ih _ hlength _ rfl,
        root_of_lt node hone]
    · rw [flatten_of_le node (by omega)]
      match level, hone with
      | [], _ => simp
      | [a], _ => simp
      | _ :: _ :: _, hone => simp at hone

theorem length_path_eq_height {index : ℕ} (h : index < level.length) :
    (path node level index).length = height level.length := by
  induction hn : level.length using Nat.strong_induction_on generalizing level index with
  | _ n ih =>
    subst hn
    by_cases hone : 1 < level.length
    · obtain ⟨sibling, hsibling, -⟩ := exists_sibling node (List.getElem?_eq_getElem h)
      have hlength : (pairUp node level).length < level.length := by
        rw [length_pairUp]
        omega
      have hindex : index / 2 < (pairUp node level).length := by
        rw [length_pairUp]
        omega
      rw [path, if_pos hone, hsibling, List.length_append, ih _ hlength hindex rfl, length_pairUp,
        height_of_lt hone]
      exact Nat.add_comm _ _
    · rw [path, if_neg hone, height, if_pos (by omega)]
      rfl

/-! ## Paths -/

/-- The place of the sibling in a level; a node without neighbour is its own sibling. -/
def siblingIndex (index levelSize : ℕ) : ℕ :=
  if index % 2 = 0 then if levelSize ≤ index + 1 then index else index + 1 else index - 1

/-- Siblings with their sides, from the leaf up: on the left of odd nodes. -/
def withSides (index : ℕ) : List D → List (D × Bool)
  | [] => []
  | sibling :: rest => (sibling, index % 2 = 1) :: withSides (index / 2) rest

/-- One step up from a node along a sibling. -/
def combine (current : D) (step : D × Bool) : D :=
  if step.2 then node step.1 current else node current step.1

theorem length_withSides (index : ℕ) (siblings : List D) :
    (withSides index siblings).length = siblings.length := by
  induction siblings generalizing index with
  | nil => rfl
  | cons sibling rest ih => rw [withSides, List.length_cons, ih, List.length_cons]

theorem getElem?_siblingIndex {index : ℕ} (h : index < level.length) :
    level[siblingIndex index level.length]? = level[index ^^^ 1]?.or level[index]? := by
  rcases Nat.mod_two_eq_zero_or_one index with heven | hodd
  · rw [siblingIndex, if_pos heven, Nat.xor_one_of_even (Nat.even_iff.mpr heven)]
    split_ifs with hlast
    · rw [List.getElem?_eq_none hlast]
      rfl
    · rw [List.getElem?_eq_getElem (by omega)]
      rfl
  · rw [siblingIndex, if_neg (by omega), Nat.xor_one_of_odd (Nat.odd_iff.mpr hodd),
      List.getElem?_eq_getElem (by omega : index - 1 < level.length)]
    rfl

theorem foldl_withSides (leaf : D) (index : ℕ) (siblings : List D) :
    (withSides index siblings).foldl (combine node) leaf =
      climbPath node leaf index siblings := by
  induction siblings generalizing leaf index with
  | nil => rfl
  | cons sibling rest ih =>
    rw [withSides, List.foldl_cons, ih, climbPath, combine]
    simp only [decide_eq_true_eq]

end FlatMerkle
