import Verathos.Merkle.Binding

/-!
# Honest openings are accepted, and only with the exact schedule

A tree built by `from_rows` opens at every index list, and the verifier accepts the opening
(`open_accepted`). The carried nodes are exactly the ones that the opened leaves do not
determine and that the root needs, and an opening whose sibling list is changed in any position
is rejected by the constructor and by the verifier (`multiproof_complete_and_exact`).
-/

namespace Verathos.Merkle

open Multiproof

/-! ## The levels of a tree -/

/-- The node of a perfect tree over the leaves `leaf`. -/
def treeNode (combine : ℕ → ℕ → Digest → Digest → Digest) (leaf : ℕ → Digest) : ℕ → ℕ → Digest
  | 0, index => leaf index
  | level + 1, index =>
    combine (level + 1) index (treeNode combine leaf level (2 * index))
      (treeNode combine leaf level (2 * index + 1))

theorem parentLevelNodes_range' (combine : ℕ → Digest → Digest → Digest) (node : ℕ → Digest)
    (start count : ℕ) :
    parentLevelNodes combine start ((List.range' (2 * start) (2 * count)).map node) =
      (List.range' start count).map fun j => combine j (node (2 * j)) (node (2 * j + 1)) := by
  induction count generalizing start with
  | zero => rfl
  | succ count ih =>
    have hnext : 2 * start + 1 + 1 = 2 * (start + 1) := by ring
    rw [Nat.mul_succ, List.range'_succ, List.range'_succ, hnext, List.map_cons, List.map_cons,
      parentLevelNodes, ih, List.range'_succ, List.map_cons]

theorem buildLevelsLoop_eq (combine : ℕ → ℕ → Digest → Digest → Digest) (leaf : ℕ → Digest)
    (level remaining : ℕ) :
    buildLevelsLoop combine (level + 1)
        ((List.range (2 ^ remaining)).map (treeNode combine leaf level)) =
      (List.range remaining).map fun k =>
        (List.range (2 ^ (remaining - 1 - k))).map (treeNode combine leaf (level + 1 + k)) := by
  induction remaining generalizing level with
  | zero => rw [buildLevelsLoop, dif_neg (by simp), List.range_zero, List.map_nil]
  | succ remaining ih =>
    have hlength : 1 < ((List.range (2 ^ (remaining + 1))).map (treeNode combine leaf level)).length := by
      rw [List.length_map, List.length_range]
      exact Nat.one_lt_two_pow (by omega)
    have hparents : parentLevelNodes (combine (level + 1)) 0
        ((List.range (2 ^ (remaining + 1))).map (treeNode combine leaf level)) =
        (List.range (2 ^ remaining)).map (treeNode combine leaf (level + 1)) := by
      have h := parentLevelNodes_range' (combine (level + 1)) (treeNode combine leaf level) 0
        (2 ^ remaining)
      rw [← pow_succ', mul_zero, ← List.range_eq_range', ← List.range_eq_range'] at h
      rw [h]
      rfl
    rw [buildLevelsLoop, dif_pos hlength]
    simp only [hparents, ih, List.range_succ_eq_map, List.map_cons, List.map_map]
    refine congrArg₂ List.cons ?_ (List.map_congr_left fun k _ => ?_)
    · rw [Nat.add_sub_cancel, Nat.sub_zero, Nat.add_zero]
    · simp only [Function.comp_def, Nat.succ_eq_add_one]
      rw [show remaining + 1 - 1 - (k + 1) = remaining - 1 - k by omega,
        show level + 1 + (k + 1) = level + 1 + 1 + k by omega]

theorem lt_of_mem_schedule {h : ℕ} {opened : Finset ℕ} (hlt : ∀ i ∈ opened, i < 2 ^ h) {l j : ℕ}
    (hmem : (l, j) ∈ schedule h 0 opened) : l < h ∧ j < 2 ^ (h - l) := by
  obtain ⟨-, hl, hmissing⟩ := mem_schedule.mp hmem
  rw [zero_add] at hl
  rw [tsub_zero] at hmissing
  obtain ⟨i, hi, hij⟩ := mem_ancestors.mp (mem_missing.mp hmissing).1
  have hpartner : j ^^^ 1 < 2 ^ (h - l) := by
    rw [← hij, Nat.div_lt_iff_lt_mul (by positivity), ← pow_add, show h - l + l = h by omega]
    exact hlt i hi
  have hdiv := xor_one_div_two j
  have hpow : 2 ^ (h - l) = 2 * 2 ^ (h - l - 1) := by
    rw [← pow_succ', show h - l - 1 + 1 = h - l by omega]
  exact ⟨hl, by omega⟩

section Honest

variable (sha256 : Bytes → Digest) (bindingDigest : Digest) {h width : ℕ} {rows : List (List ℤ)}

/-- The nodes of the tree over `rows`. -/
def honestNode (h width : ℕ) (rows : List (List ℤ)) : ℕ → ℕ → Digest :=
  treeNode (Compiled.nodeDigest sha256 (nodePrefix bindingDigest (2 ^ h) width))
    fun i => leafDigest sha256 (leafPrefix bindingDigest (2 ^ h) width) i (rows.getD i [])

theorem buildLevels_eq_ok (hlength : rows.length = 2 ^ h)
    (hwidth : 1 ≤ width ∧ width ≤ maxLeafWidth) (hrows : ∀ row ∈ rows, IsRow width row) :
    buildLevels sha256 bindingDigest rows width =
      .ok ((List.range (h + 1)).map fun l =>
        (List.range (2 ^ (h - l))).map (honestNode sha256 bindingDigest h width rows l)) := by
  have hleaves : rows.zipIdx.mapM (fun x : List ℤ × ℕ =>
      leafHash sha256 bindingDigest (2 ^ h) width x.2 x.1) =
      .ok ((List.range (2 ^ h)).map (honestNode sha256 bindingDigest h width rows 0)) := by
    have hmap : rows.zipIdx.map (fun x : List ℤ × ℕ =>
        leafDigest sha256 (leafPrefix bindingDigest (2 ^ h) width) x.2 x.1) =
        (List.range (2 ^ h)).map (honestNode sha256 bindingDigest h width rows 0) := by
      refine List.ext_getElem (by simp [hlength]) fun i hi hi' => ?_
      simp only [List.getElem_map, List.getElem_zipIdx, List.getElem_range, Nat.zero_add]
      have hilt : i < rows.length := by simpa using hi
      rw [honestNode, treeNode, List.getD_eq_getElem _ _ hilt]
    rw [← hmap]
    refine mapM_eq_ok_map fun x hx => ?_
    have hrow := hrows x.1 (List.fst_mem_of_mem_zipIdx hx)
    rw [leafHash, bind_eq_ok]
    exact ⟨_, encodeGoldilocksMerkleLeafReference_eq_ok.mpr
      ⟨⟨width, hwidth.1, hwidth.2, hrow⟩, rfl⟩, rfl⟩
  have hcombine : parentHash sha256 bindingDigest (2 ^ h) width =
      Compiled.nodeDigest sha256 (nodePrefix bindingDigest (2 ^ h) width) := rfl
  rw [buildLevels, bind_eq_ok]
  refine ⟨_, by rw [hlength]; exact hleaves, ?_⟩
  rw [pure_eq_ok, hlength, hcombine, honestNode, buildLevelsLoop_eq, List.range_succ_eq_map,
    List.map_cons, List.map_map]
  refine congrArg₂ List.cons rfl (List.map_congr_left fun k _ => ?_)
  simp only [Function.comp_def, Nat.succ_eq_add_one]
  rw [show h - 1 - k = h - (k + 1) by omega, show 0 + 1 + k = k + 1 by omega]

/-- The tree that `from_rows` returns. -/
def honestTree (h width : ℕ) (rows : List (List ℤ)) : GoldilocksMerkleTreeReference where
  bindingDigest := bindingDigest
  leafCount := 2 ^ h
  leafWidth := width
  commitment := commitmentHash sha256 bindingDigest (2 ^ h) width
    (honestNode sha256 bindingDigest h width rows h 0)
  rows := rows
  levels := (List.range (h + 1)).map fun l =>
    (List.range (2 ^ (h - l))).map (honestNode sha256 bindingDigest h width rows l)

theorem getItem_levels_last :
    getItem ((honestTree sha256 bindingDigest h width rows).levels.getLastD []) 0 =
      .ok (honestNode sha256 bindingDigest h width rows h 0) := by
  rw [getItem_eq_ok, honestTree, List.range_succ, List.map_append, List.map_singleton,
    List.getLastD_concat, Nat.sub_self]
  rfl

/-- A table of `2 ^ h` canonical rows within the caps. -/
structure Table (h width : ℕ) (rows : List (List ℤ)) : Prop where
  length_eq : rows.length = 2 ^ h
  height_le : h ≤ 16
  width_le : 1 ≤ width ∧ width ≤ maxLeafWidth
  isRow : ∀ row ∈ rows, IsRow width row
  values_le : 2 ^ h * width ≤ maxFieldValues

theorem Table.ne_nil (ht : Table h width rows) : rows ≠ [] := by
  refine List.ne_nil_of_length_pos ?_
  rw [ht.length_eq]
  positivity

theorem postInit_honestTree (ht : Table h width rows) :
    (honestTree sha256 bindingDigest h width rows).postInit sha256 =
      .ok (honestTree sha256 bindingDigest h width rows) := by
  set tree := honestTree sha256 bindingDigest h width rows with htree
  have hrows : RowsAdmitted rows (some (2 ^ h)) (some width) := by
    refine ⟨ht.ne_nil, fun c hc => ?_, width, fun w hw => ?_, ht.width_le.1, ht.width_le.2,
      ht.isRow, ?_⟩
    · rw [← Option.mem_some_iff.mp hc, ht.length_eq]
    · exact (Option.mem_some_iff.mp hw).symm
    · rw [ht.length_eq]
      exact ht.values_le
  have hlevels : normalizedLevels tree.levels (2 ^ h) = .ok tree.levels := by
    simp only [normalizedLevels, bind_eq_ok, raiseIf_eq_ok, materializeIterable_eq_ok,
      height_two_pow, not_not]
    have hcount : tree.levels.length = h + 1 := by simp [htree, honestTree]
    refine ⟨_, ⟨hcount.le, rfl⟩, (), hcount, ?_⟩
    conv_rhs => rw [← List.zipIdx_map_fst 0 tree.levels]
    refine mapM_eq_ok_map fun x hx => ?_
    obtain ⟨nodes, l⟩ := x
    have hget := List.mk_mem_zipIdx_iff_getElem?.mp hx
    obtain ⟨hl, rfl⟩ := List.getElem?_eq_some_iff.mp hget
    have hnodes : tree.levels[l].length = 2 ^ h >>> l := by
      rw [hcount] at hl
      simp only [htree, honestTree, List.getElem_map, List.getElem_range, List.length_map,
        List.length_range]
      rw [Nat.shiftRight_eq_div_pow, Nat.pow_div (by omega) (by norm_num)]
    simp only [bind_eq_ok, raiseIf_eq_ok, materializeIterable_eq_ok, pure_eq_ok, not_not]
    exact ⟨_, ⟨hnodes.le, rfl⟩, (), hnodes, rfl⟩
  have hbuild := buildLevels_eq_ok sha256 bindingDigest ht.length_eq ht.width_le ht.isRow
  simp only [GoldilocksMerkleTreeReference.postInit, bind_eq_ok, raiseIf_eq_ok, pure_eq_ok,
    leafCount_eq_ok, leafWidth_eq_ok, fieldRows_eq_ok, not_not]
  exact ⟨_, ⟨⟨h, by have := ht.height_le; omega, rfl⟩, rfl⟩, _, ⟨ht.width_le, rfl⟩, _,
    ⟨hrows, rfl⟩, _, hlevels, _, hbuild, (), rfl, _, getItem_levels_last sha256 bindingDigest,
    (), rfl, rfl⟩

theorem fromRows_eq_ok (ht : Table h width rows) :
    GoldilocksMerkleTreeReference.fromRows sha256 rows bindingDigest =
      .ok (honestTree sha256 bindingDigest h width rows) := by
  obtain ⟨row, rest, rfl⟩ := List.exists_cons_of_ne_nil ht.ne_nil
  have hrow : row.length = width := (ht.isRow row List.mem_cons_self).1
  have hrows : RowsAdmitted (row :: rest) none none := by
    refine ⟨List.cons_ne_nil _ _, by simp, width, by simp, ht.width_le.1, ht.width_le.2, ht.isRow, ?_⟩
    rw [ht.length_eq]
    exact ht.values_le
  have hbuild := buildLevels_eq_ok sha256 bindingDigest ht.length_eq ht.width_le ht.isRow
  simp only [GoldilocksMerkleTreeReference.fromRows, bind_eq_ok, leafCount_eq_ok, leafWidth_eq_ok,
    fieldRows_eq_ok, getItem_eq_ok]
  refine ⟨_, ⟨hrows, rfl⟩, _, ⟨⟨h, by have := ht.height_le; omega, ht.length_eq⟩, rfl⟩, row, rfl, _,
    ⟨by rw [hrow]; exact ht.width_le, rfl⟩, _, by rw [hrow]; exact hbuild, _,
    getItem_eq_ok.mp (getItem_levels_last sha256 bindingDigest), ?_⟩
  rw [hrow, ht.length_eq]
  exact postInit_honestTree sha256 bindingDigest ht

/-! ## Opening -/

/-- The opening that `open` returns. -/
def honestOpening (h width : ℕ) (rows : List (List ℤ)) (indices : List ℕ) :
    GoldilocksMerkleMultiOpeningReference where
  bindingDigest := bindingDigest
  leafCount := 2 ^ h
  leafWidth := width
  indices := indices
  rows := indices.map fun i => rows.getD i []
  siblings := (schedule h 0 indices.toFinset).map fun c =>
    ⟨c.1, c.2, honestNode sha256 bindingDigest h width rows c.1 c.2⟩

variable {indices : List ℕ}

theorem coordinates_honestOpening :
    (honestOpening sha256 bindingDigest h width rows indices).coordinates =
      schedule h 0 indices.toFinset := by
  rw [GoldilocksMerkleMultiOpeningReference.coordinates, honestOpening, List.map_map]
  exact List.map_id _

theorem Table.isRow_getD (ht : Table h width rows) {i : ℕ} (hi : i < 2 ^ h) :
    IsRow width (rows.getD i []) := by
  rw [← ht.length_eq] at hi
  rw [List.getD_eq_getElem _ _ hi]
  exact ht.isRow _ (List.getElem_mem hi)

theorem admitted_honestOpening (ht : Table h width rows)
    (hindices : IndicesAdmitted (2 ^ h) indices) :
    (honestOpening sha256 bindingDigest h width rows indices).Admitted where
  abi := rfl
  leafCount := ⟨h, by have := ht.height_le; omega, rfl⟩
  leafWidth := ht.width_le
  indices := hindices
  rows := by
    refine ⟨by simpa [honestOpening] using hindices.ne_nil, by simp [honestOpening], width,
      by simp [honestOpening], ht.width_le.1, ht.width_le.2, ?_, ?_⟩
    · intro row hrow
      obtain ⟨i, hi, rfl⟩ := List.mem_map.mp hrow
      exact ht.isRow_getD (hindices.lt i hi)
    · simp only [honestOpening, List.length_map]
      exact (Nat.mul_le_mul_right _ hindices.length_le).trans ht.values_le
  siblings := by
    have hlt : ∀ i ∈ indices.toFinset, i < 2 ^ h := fun i hi => hindices.lt i (List.mem_toFinset.mp hi)
    have hcount := length_schedule_add_card_le 0 hlt
    have hpow : 2 ^ h ≤ maxLeafCount := Nat.pow_le_pow_right (by norm_num) ht.height_le
    simp only [honestOpening, List.length_map]
    omega
  coordinates := by
    rw [coordinates_honestOpening, honestOpening, height_two_pow]

theorem open_honestTree (lib : Bool) (ht : Table h width rows)
    (hindices : IndicesAdmitted (2 ^ h) indices) :
    (honestTree sha256 bindingDigest h width rows).open lib indices =
      .ok (honestOpening sha256 bindingDigest h width rows indices) := by
  have hh : h ≤ 30 := by
    have := ht.height_le
    omega
  have hlt : ∀ i ∈ indices.toFinset, i < 2 ^ h := fun i hi => hindices.lt i (List.mem_toFinset.mp hi)
  simp only [GoldilocksMerkleTreeReference.open, bind_eq_ok, indices_eq_ok]
  refine ⟨indices, ⟨hindices, rfl⟩, (honestOpening sha256 bindingDigest h width rows indices).siblings,
    ?_, (honestOpening sha256 bindingDigest h width rows indices).rows, ?_, ?_⟩
  · change (expectedSiblingCoordinates lib (2 ^ h) indices).mapM _ = _
    rw [expectedSiblingCoordinates_eq lib hh hindices]
    refine mapM_eq_ok_map fun c hc => ?_
    obtain ⟨hl, hj⟩ := lt_of_mem_schedule hlt hc
    have hpow : 2 ^ (h - c.1) ≤ 2 ^ 30 := Nat.pow_le_pow_right (by norm_num) (by omega)
    simp only [bind_eq_ok, getItem_eq_ok]
    refine ⟨(List.range (2 ^ (h - c.1))).map (honestNode sha256 bindingDigest h width rows c.1), ?_,
      honestNode sha256 bindingDigest h width rows c.1 c.2, ?_, ?_⟩
    · rw [honestTree, List.getElem?_map, List.getElem?_range (by omega), Option.map_some]
    · rw [List.getElem?_map, List.getElem?_range hj, Option.map_some]
    · simp only [GoldilocksMerkleSiblingReference.postInit, bind_eq_ok, raiseIf_eq_ok, pure_eq_ok]
      exact ⟨(), by omega, (), by omega, trivial⟩
  · refine mapM_eq_ok_map fun i hi => ?_
    have hilt : i < rows.length := by
      rw [ht.length_eq]
      exact hindices.lt i hi
    rw [getItem_eq_ok, List.getD_eq_getElem _ _ hilt]
    exact List.getElem?_eq_getElem hilt
  · exact GoldilocksMerkleMultiOpeningReference.postInit_eq_ok.mpr
      ⟨admitted_honestOpening sha256 bindingDigest ht hindices, rfl⟩

theorem rawRoot_honestOpening (hindices : IndicesAdmitted (2 ^ h) indices) :
    (honestOpening sha256 bindingDigest h width rows indices).rawRoot sha256 =
      honestNode sha256 bindingDigest h width rows h 0 := by
  have hlt : ∀ i ∈ indices.toFinset, i < 2 ^ h := fun i hi => hindices.lt i (List.mem_toFinset.mp hi)
  have hclimb := climb_honest
    (Compiled.nodeDigest sha256 (nodePrefix bindingDigest (2 ^ h) width))
    (honestOpening sha256 bindingDigest h width rows indices).carriedDigest
    (honestNode sha256 bindingDigest h width rows) 0 indices.toFinset
    (fun i => leafDigest sha256 (leafPrefix bindingDigest (2 ^ h) width) i
      ((honestOpening sha256 bindingDigest h width rows indices).openedRow i))
    (fun l j _ _ _ => rfl) hindices.toFinset_nonempty hlt
  rw [zero_add] at hclimb
  rw [GoldilocksMerkleMultiOpeningReference.rawRoot]
  have hheight : height (honestOpening sha256 bindingDigest h width rows indices).leafCount = h :=
    height_two_pow h
  rw [hheight]
  refine hclimb ?_ ?_
  · intro i hi
    have hrow : (honestOpening sha256 bindingDigest h width rows indices).openedRow i =
        rows.getD i [] :=
      assoc_map (fun i => rows.getD i []) [] (List.mem_toFinset.mp hi)
    rw [hrow]
    rfl
  · intro c hc
    rw [GoldilocksMerkleMultiOpeningReference.carriedDigest, coordinates_honestOpening]
    simp only [honestOpening, List.map_map]
    exact assoc_map (fun c => honestNode sha256 bindingDigest h width rows c.1 c.2) Digest.zero hc

theorem open_accepted (lib : Bool) (ht : Table h width rows)
    (hindices : IndicesAdmitted (2 ^ h) indices) (hlib : lib = true → width ≤ 44) :
    Accepts (verifyGoldilocksMerkleMultiopeningReference sha256 lib
      (honestTree sha256 bindingDigest h width rows).commitment.bytes
      (honestOpening sha256 bindingDigest h width rows indices) bindingDigest.bytes (2 ^ h) width
      indices) := by
  refine ((ConstructedOpening.mk _ (admitted_honestOpening sha256 bindingDigest ht
    hindices)).verify_accepts_iff sha256 lib _ _ _ _ _).mpr ⟨rfl, rfl, rfl, rfl, ?_, hlib⟩
  rw [rawRoot_honestOpening sha256 bindingDigest hindices]
  rfl

end Honest

/-! ## Changed sibling lists -/

/-- The sibling list `after` arises from `before` by one change. Repeating a node is the case
`added` with a node of the list. -/
inductive Tampered : List GoldilocksMerkleSiblingReference →
    List GoldilocksMerkleSiblingReference → Prop
  | omitted (front : List GoldilocksMerkleSiblingReference) (node : GoldilocksMerkleSiblingReference)
      (back : List GoldilocksMerkleSiblingReference) :
      Tampered (front ++ node :: back) (front ++ back)
  | added (front : List GoldilocksMerkleSiblingReference) (node : GoldilocksMerkleSiblingReference)
      (back : List GoldilocksMerkleSiblingReference) :
      Tampered (front ++ back) (front ++ node :: back)
  | swapped (front : List GoldilocksMerkleSiblingReference)
      (node : GoldilocksMerkleSiblingReference) (middle : List GoldilocksMerkleSiblingReference)
      (node' : GoldilocksMerkleSiblingReference) (back : List GoldilocksMerkleSiblingReference) :
      Tampered (front ++ node :: (middle ++ node' :: back))
        (front ++ node' :: (middle ++ node :: back))

theorem Tampered.coordinates_ne {before after : List GoldilocksMerkleSiblingReference}
    (htampered : Tampered before after)
    (hnodup : (before.map fun node => (node.level, node.index)).Nodup) :
    (after.map fun node => (node.level, node.index)) ≠
      before.map fun node => (node.level, node.index) := by
  intro heq
  have hlength := congrArg List.length heq
  cases htampered with
  | omitted front node back => simp at hlength
  | added front node back => simp at hlength
  | swapped front node middle node' back =>
    simp only [List.map_append, List.map_cons, List.append_cancel_left_eq, List.cons.injEq] at heq
    simp only [List.map_append, List.map_cons, List.nodup_append, List.nodup_cons] at hnodup
    refine hnodup.2.1.1 ?_
    rw [← heq.1]
    simp

theorem coordinates_of_accepts {sha256 : Bytes → Digest} {lib : Bool}
    {opening : GoldilocksMerkleMultiOpeningReference} {commitment expectedBindingDigest : Bytes}
    {expectedLeafCount expectedLeafWidth : ℕ} {expectedIndices : List ℕ}
    (haccepts : Accepts (verifyGoldilocksMerkleMultiopeningReference sha256 lib commitment opening
      expectedBindingDigest expectedLeafCount expectedLeafWidth expectedIndices)) :
    opening.coordinates =
      schedule (height opening.leafCount) 0 opening.indices.toFinset := by
  simp only [Accepts, verifyGoldilocksMerkleMultiopeningReference, bind_eq_ok, raiseIf_eq_ok,
    exceptProofV3_eq_ok, pure_eq_ok, fixedBytes32_eq_ok, leafCount_eq_ok, leafWidth_eq_ok,
    indices_eq_ok, not_not, not_or] at haccepts
  obtain ⟨-, x, ⟨binding, -, count, ⟨⟨h, hh, hcount⟩, rfl⟩, width, ⟨-, rfl⟩, indices,
    ⟨hindices, rfl⟩, root, -, rfl⟩, -, -, -, ⟨hc, -⟩, -, hi, -, hcoordinates, -⟩ := haccepts
  simp only at hc hi hcoordinates
  subst hcount
  rw [hcoordinates, hc, hi, expectedSiblingCoordinates_eq lib hh hindices, height_two_pow]

/-- For every table of `2 ^ h` canonical rows within the caps and every strictly increasing
index list: `from_rows` and `open` return, the verifier accepts the opening under the tree's own
metadata (with the compiled helper, when the width fits its buffer), the carried coordinates are
the partners of opened-path nodes that are on no opened path, the opened leaves determine none
of them, together they determine the root, no smaller set does, and every change of the sibling
list is rejected by the constructor and by the verifier. -/
theorem multiproof_complete_and_exact (sha256 : Bytes → Digest) (lib : Bool)
    (bindingDigest : Digest) (h width : ℕ) (rows : List (List ℤ)) (ht : Table h width rows)
    (indices : List ℕ) (hindices : IndicesAdmitted (2 ^ h) indices) :
    ∃ tree opening,
      GoldilocksMerkleTreeReference.fromRows sha256 rows bindingDigest = .ok tree ∧
      tree.open lib indices = .ok opening ∧
      ((lib = true → width ≤ 44) →
        Accepts (verifyGoldilocksMerkleMultiopeningReference sha256 lib tree.commitment.bytes opening
          tree.bindingDigest.bytes tree.leafCount tree.leafWidth indices)) ∧
      opening.coordinates.Nodup ∧
      (∀ l j, (l, j) ∈ opening.coordinates ↔
        l < h ∧ (∃ i ∈ indices, i / 2 ^ l = j ^^^ 1) ∧ ∀ i ∈ indices, i / 2 ^ l ≠ j) ∧
      (∀ c ∈ opening.coordinates, ¬ Derivable indices.toFinset [] c.1 c.2) ∧
      Derivable indices.toFinset opening.coordinates h 0 ∧
      (∀ c ∈ opening.coordinates,
        ¬ Derivable indices.toFinset (opening.coordinates.erase c) h 0) ∧
      ∀ siblings, Tampered opening.siblings siblings →
        ¬ Accepts (({ opening with siblings } : GoldilocksMerkleMultiOpeningReference).postInit
          lib) ∧
        ∀ (lib' : Bool) (commitment binding : Bytes) (count width' : ℕ) (indices' : List ℕ),
          ¬ Accepts (verifyGoldilocksMerkleMultiopeningReference sha256 lib' commitment
            { opening with siblings } binding count width' indices') := by
  have hlt : ∀ i ∈ indices.toFinset, i < 2 ^ h := fun i hi => hindices.lt i (List.mem_toFinset.mp hi)
  have hcoordinates : (honestOpening sha256 bindingDigest h width rows indices).coordinates =
      schedule h 0 indices.toFinset := coordinates_honestOpening sha256 bindingDigest
  refine ⟨honestTree sha256 bindingDigest h width rows,
    honestOpening sha256 bindingDigest h width rows indices,
    fromRows_eq_ok sha256 bindingDigest ht, open_honestTree sha256 bindingDigest lib ht hindices,
    open_accepted sha256 bindingDigest lib ht hindices, ?_, ?_, ?_, ?_, ?_, ?_⟩
  · rw [hcoordinates]
    exact nodup_schedule _ _ _
  · intro l j
    rw [hcoordinates, mem_schedule, mem_missing, tsub_zero, zero_add, mem_ancestors, mem_ancestors]
    simp only [List.mem_toFinset, Nat.zero_le, true_and, not_exists, not_and, ne_eq]
  · intro c hc
    rw [hcoordinates] at hc
    obtain ⟨-, -, hmissing⟩ := mem_schedule.mp hc
    exact not_derivable_of_notMem h (by simp) (mem_missing.mp hmissing).2 (by simp)
  · rw [hcoordinates]
    exact derivable_root hindices.toFinset_nonempty hlt
  · intro c hc
    rw [hcoordinates] at hc ⊢
    exact not_derivable_root_erase hlt hc
  · intro siblings htampered
    have hne := htampered.coordinates_ne (by
      change (honestOpening sha256 bindingDigest h width rows indices).coordinates.Nodup
      rw [hcoordinates]
      exact nodup_schedule _ _ _)
    refine ⟨?_, ?_⟩
    · rintro ⟨result, hresult⟩
      have hadmitted := (GoldilocksMerkleMultiOpeningReference.postInit_eq_ok.mp hresult).1
      refine hne (hadmitted.coordinates.trans ?_)
      exact (admitted_honestOpening sha256 bindingDigest ht hindices).coordinates.symm
    · intro lib' commitment binding count width' indices' haccepts
      refine hne ((coordinates_of_accepts haccepts).trans ?_)
      exact (admitted_honestOpening sha256 bindingDigest ht hindices).coordinates.symm

/-- The two-leaf tree with rows `[5]` and `[7]`, opened at its second leaf. -/
theorem multiproof_complete_and_exact_two_leaves :
    ∃ tree opening,
      GoldilocksMerkleTreeReference.fromRows (fun _ => Digest.zero) [[5], [7]] Digest.zero =
        .ok tree ∧
      tree.open true [1] = .ok opening ∧
      Accepts (verifyGoldilocksMerkleMultiopeningReference (fun _ => Digest.zero) true
        tree.commitment.bytes opening tree.bindingDigest.bytes tree.leafCount tree.leafWidth [1]) ∧
      (0, 0) ∈ opening.coordinates := by
  have ht : Table 1 1 [[5], [7]] := by
    refine ⟨rfl, by norm_num, by norm_num [maxLeafWidth], ?_, by norm_num [maxFieldValues]⟩
    intro row hrow
    rcases List.mem_pair.mp hrow with rfl | rfl
    · exact ⟨rfl, by decide⟩
    · exact ⟨rfl, by decide⟩
  have hindices : IndicesAdmitted (2 ^ 1) [1] := ⟨by decide, by decide, by decide⟩
  obtain ⟨tree, opening, htree, hopen, haccepts, -, hcoordinates, -⟩ :=
    multiproof_complete_and_exact (fun _ => Digest.zero) true Digest.zero 1 1 [[5], [7]] ht [1]
      hindices
  exact ⟨tree, opening, htree, hopen, haccepts fun _ => by norm_num,
    (hcoordinates 0 0).mpr ⟨by norm_num, ⟨1, by decide⟩, by decide⟩⟩

/-- `from_rows` refuses tables of canonical rows of one width beyond its caps: an empty row, a
row of 4097 elements, and `2 ^ 16` rows of 33 elements. -/
theorem fromRows_refuses_beyond_caps :
    ¬ Accepts (GoldilocksMerkleTreeReference.fromRows (fun _ => Digest.zero) [[]] Digest.zero) ∧
    ¬ Accepts (GoldilocksMerkleTreeReference.fromRows (fun _ => Digest.zero)
      [List.replicate 4097 0] Digest.zero) ∧
    ¬ Accepts (GoldilocksMerkleTreeReference.fromRows (fun _ => Digest.zero)
      (List.replicate (2 ^ 16) (List.replicate 33 0)) Digest.zero) := by
  have hrefuse : ∀ rows : List (List ℤ), ¬ RowsAdmitted rows none none →
      ¬ Accepts (GoldilocksMerkleTreeReference.fromRows (fun _ => Digest.zero) rows Digest.zero) := by
    rintro rows hrows ⟨tree, htree⟩
    rw [GoldilocksMerkleTreeReference.fromRows, bind_eq_ok] at htree
    obtain ⟨normalized, hnormalized, -⟩ := htree
    exact hrows (fieldRows_eq_ok.mp hnormalized).1
  refine ⟨hrefuse _ ?_, hrefuse _ ?_, hrefuse _ ?_⟩
  · rintro ⟨-, -, w, -, hpos, -, hrows, -⟩
    have := (hrows [] List.mem_cons_self).1
    simp only [List.length_nil] at this
    omega
  · rintro ⟨-, -, w, -, -, hcap, hrows, -⟩
    have := (hrows _ List.mem_cons_self).1
    rw [List.length_replicate] at this
    norm_num [maxLeafWidth] at hcap
    omega
  · rintro ⟨-, -, w, -, -, -, hrows, hvalues⟩
    have := (hrows (List.replicate 33 0) (List.mem_replicate.mpr ⟨by norm_num, rfl⟩)).1
    rw [List.length_replicate] at this
    rw [List.length_replicate, ← this] at hvalues
    norm_num [maxFieldValues] at hvalues

end Verathos.Merkle
