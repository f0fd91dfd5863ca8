import Verathos.Lib.RowMajor
import Verathos.Merkle.Reconstruct

/-!
# When the multi-opening verifier accepts

`verify_accepts_iff` is the one statement about `verify_goldilocks_merkle_multiopening_reference`
that the later modules use. An opening that its constructor admitted is accepted exactly when
its metadata are the expected ones and its recomputed root hashes to the commitment; with the
compiled helper loaded the leaf width must, in addition, fit the helper's message buffer.
-/

namespace Verathos.Merkle

open Multiproof

namespace GoldilocksMerkleMultiOpeningReference

/-- The invariant that the constructor of an opening establishes. -/
structure Admitted (opening : GoldilocksMerkleMultiOpeningReference) : Prop where
  abi : opening.abiId = goldilocksMerkleReferenceAbiV3
  leafCount : ∃ h ≤ 30, opening.leafCount = 2 ^ h
  leafWidth : 1 ≤ opening.leafWidth ∧ opening.leafWidth ≤ maxLeafWidth
  /-- The index list is nonempty, strictly increasing and in range. -/
  indices : IndicesAdmitted opening.leafCount opening.indices
  /-- There is one canonical row of the declared width for each index. -/
  rows : RowsAdmitted opening.rows (some opening.indices.length) (some opening.leafWidth)
  siblings : opening.siblings.length ≤ maxLeafCount
  coordinates : opening.coordinates =
    schedule (height opening.leafCount) 0 opening.indices.toFinset

theorem postInit_eq_ok {lib : Bool} {opening result : GoldilocksMerkleMultiOpeningReference} :
    opening.postInit lib = .ok result ↔ opening.Admitted ∧ result = opening := by
  simp only [postInit, bind_eq_ok, raiseIf_eq_ok, pure_eq_ok, leafCount_eq_ok, leafWidth_eq_ok,
    indices_eq_ok, fieldRows_eq_ok, materializeIterable_eq_ok, not_not]
  constructor
  · rintro ⟨-, habi, _, ⟨⟨h, hh, hcount⟩, rfl⟩, _, ⟨hwidth, rfl⟩, _, ⟨hindices, rfl⟩, _,
      ⟨hrows, rfl⟩, _, ⟨hsiblings, rfl⟩, -, hcoordinates, rfl⟩
    refine ⟨⟨habi, ⟨h, hh, hcount⟩, hwidth, hindices, hrows, hsiblings, ?_⟩, rfl⟩
    rw [hcount] at hindices hcoordinates ⊢
    rw [hcoordinates, expectedSiblingCoordinates_eq lib hh hindices, height_two_pow]
  · rintro ⟨hadmitted, rfl⟩
    obtain ⟨h, hh, hcount⟩ := hadmitted.leafCount
    refine ⟨(), hadmitted.abi, _, ⟨⟨h, hh, hcount⟩, rfl⟩, _, ⟨hadmitted.leafWidth, rfl⟩, _,
      ⟨hadmitted.indices, rfl⟩, _, ⟨hadmitted.rows, rfl⟩, _, ⟨hadmitted.siblings, rfl⟩, (), ?_, rfl⟩
    have hindices := hadmitted.indices
    have hcoordinates := hadmitted.coordinates
    rw [hcount] at hindices hcoordinates ⊢
    rw [hcoordinates, expectedSiblingCoordinates_eq lib hh hindices, height_two_pow]

/-- The row that an opening gives for a leaf index. -/
def openedRow (opening : GoldilocksMerkleMultiOpeningReference) : ℕ → List ℤ :=
  assoc opening.indices opening.rows []

/-- The digest that an opening carries for a node. -/
def carriedDigest (opening : GoldilocksMerkleMultiOpeningReference) (level index : ℕ) : Digest :=
  assoc opening.coordinates (opening.siblings.map (·.digest)) Digest.zero (level, index)

end GoldilocksMerkleMultiOpeningReference

open GoldilocksMerkleMultiOpeningReference

theorem admitted_of_open {lib : Bool} {tree : GoldilocksMerkleTreeReference} {indices : List ℕ}
    {opening : GoldilocksMerkleMultiOpeningReference} (h : tree.open lib indices = .ok opening) :
    opening.Admitted := by
  simp only [GoldilocksMerkleTreeReference.open, bind_eq_ok, postInit_eq_ok] at h
  obtain ⟨_, _, _, _, _, _, hadmitted, rfl⟩ := h
  exact hadmitted

/-- `_LEAF_DOMAIN + header`, as the verifier hoists it. -/
def leafPrefix (bindingDigest : Digest) (leafCount leafWidth : ℕ) : Bytes :=
  leafDomain ++ treeHeader bindingDigest leafCount leafWidth

/-- `_NODE_DOMAIN + header`, as the verifier hoists it. -/
def nodePrefix (bindingDigest : Digest) (leafCount leafWidth : ℕ) : Bytes :=
  nodeDomain ++ treeHeader bindingDigest leafCount leafWidth

@[simp]
theorem length_leafPrefix (bindingDigest : Digest) (leafCount leafWidth : ℕ) :
    (leafPrefix bindingDigest leafCount leafWidth).length = 90 := by
  have hdomain : leafDomain.length = 50 := by decide
  simp [leafPrefix, treeHeader, packI, hdomain]

/-- The root that an opening determines. -/
def GoldilocksMerkleMultiOpeningReference.rawRoot (sha256 : Bytes → Digest)
    (opening : GoldilocksMerkleMultiOpeningReference) : Digest :=
  climb (Compiled.nodeDigest sha256
      (nodePrefix opening.bindingDigest opening.leafCount opening.leafWidth))
    opening.carriedDigest (height opening.leafCount) 0 opening.indices.toFinset
    fun i => leafDigest sha256
      (leafPrefix opening.bindingDigest opening.leafCount opening.leafWidth) i
      (opening.openedRow i)

section Leaves

variable (sha256 : Bytes → Digest)

variable {width : ℕ}

theorem openedLeafDigest_eq_ok (leafPrefix : Bytes) {index : ℕ} {row : List ℤ}
    (hwidth : 1 ≤ width ∧ width ≤ maxLeafWidth) (hrow : IsRow width row) :
    openedLeafDigest sha256 leafPrefix width index row =
      .ok (leafDigest sha256 leafPrefix index row) := by
  unfold openedLeafDigest
  split_ifs with hone
  · subst hone
    obtain ⟨value, rfl⟩ := List.length_eq_one_iff.mp hrow.1
    have hvalue : Canonical value := hrow.2 value List.mem_cons_self
    simp [checkRowW1, raiseIf, getItem, hvalue, leafDigest]
  · rw [bind_eq_ok]
    exact ⟨_, encodeGoldilocksMerkleLeafReference_eq_ok.mpr
      ⟨⟨width, hwidth.1, hwidth.2, hrow⟩, rfl⟩, rfl⟩

theorem openedLeaves_spec (leafPrefix : Bytes) {row : ℕ → List ℤ} {indices : List ℕ}
    (stored : Nodes) (hwidth : 1 ≤ width ∧ width ≤ maxLeafWidth)
    (hrows : ∀ i ∈ indices, IsRow width (row i)) :
    ∃ leaves, openedLeaves sha256 leafPrefix width indices (indices.map row) stored = .ok leaves ∧
      ∀ i, leaves.lookup i =
        if i ∈ indices then some (leafDigest sha256 leafPrefix i (row i)) else stored.lookup i := by
  induction indices generalizing stored with
  | nil => exact ⟨stored, rfl, by simp⟩
  | cons i indices ih =>
    obtain ⟨hi, hrest⟩ := List.forall_mem_cons.mp hrows
    obtain ⟨leaves, hleaves, hlookup⟩ :=
      ih (stored.insert i (leafDigest sha256 leafPrefix i (row i))) hrest
    refine ⟨leaves, ?_, fun j => ?_⟩
    · rw [List.map_cons, openedLeaves, bind_eq_ok]
      exact ⟨_, openedLeafDigest_eq_ok sha256 leafPrefix hwidth hi, hleaves⟩
    · rw [hlookup]
      by_cases hmem : j ∈ indices
      · simp [hmem]
      · by_cases hji : j = i
        · subst hji
          simp [hmem]
        · simp [hmem, hji, Finmap.lookup_insert_of_ne]

theorem leafDigests_eq (leafPrefix : Bytes) {row : ℕ → List ℤ} {indices : List ℕ}
    (hrows : ∀ i ∈ indices, IsRow width (row i)) :
    Compiled.leafDigests sha256 leafPrefix indices
        ((indices.map row).flatten.map Int.toNat) width =
      indices.map fun i => (i, leafDigest sha256 leafPrefix i (row i)) := by
  refine List.ext_getElem? fun k => ?_
  rw [Compiled.leafDigests, List.getElem?_map, List.getElem?_map, List.getElem?_zipIdx]
  cases hk : indices[k]? with
  | none => rfl
  | some i =>
    have hget : (indices.map fun i => (row i).map Int.toNat)[k]? = some ((row i).map Int.toNat) := by
      rw [List.getElem?_map, hk, Option.map_some]
    have hlength : ∀ r ∈ indices.map fun i => (row i).map Int.toNat, r.length = width := by
      intro r hr
      obtain ⟨j, hj, rfl⟩ := List.mem_map.mp hr
      rw [List.length_map, (hrows j hj).1]
    have hslice := RowMajor.take_drop_flatten hlength hget
    simp only [Option.map_some, Nat.zero_add, Option.some.injEq, Prod.mk.injEq, true_and]
    rw [List.map_flatten, List.map_map]
    simp only [Function.comp_def, hslice, leafDigest, List.flatMap_map]

theorem arrayQ_eq_ok {values : List ℤ} (h : ∀ v ∈ values, Canonical v) :
    Compiled.arrayQ values = .ok (values.map Int.toNat) := by
  refine mapM_eq_ok_map fun v hv => if_pos ?_
  have := (h v hv).1
  have hlt := (h v hv).2
  rw [goldilocksModulus_eq] at hlt
  omega

end Leaves

/-! ## The recomputed root -/

/-- An opening that its constructor admitted. -/
structure ConstructedOpening where
  opening : GoldilocksMerkleMultiOpeningReference
  admitted : opening.Admitted

namespace ConstructedOpening

variable (sha256 : Bytes → Digest) (o : ConstructedOpening)

theorem nodup_indices : o.opening.indices.Nodup :=
  o.admitted.indices.sorted.imp fun hab => Nat.ne_of_lt hab

theorem length_rows : o.opening.rows.length = o.opening.indices.length :=
  o.admitted.rows.2.1 _ rfl

theorem map_openedRow : o.opening.indices.map o.opening.openedRow = o.opening.rows :=
  map_assoc [] o.nodup_indices o.length_rows.symm

theorem isRow_of_mem {row : List ℤ} (h : row ∈ o.opening.rows) : IsRow o.opening.leafWidth row := by
  obtain ⟨-, -, w, hw, -, -, hrows, -⟩ := o.admitted.rows
  rw [hw _ rfl]
  exact hrows row h

theorem isRow_openedRow {i : ℕ} (hi : i ∈ o.opening.indices) :
    IsRow o.opening.leafWidth (o.opening.openedRow i) := by
  refine o.isRow_of_mem ?_
  rw [← o.map_openedRow]
  exact List.mem_map_of_mem hi

theorem map_carriedDigest :
    o.opening.siblings.map (·.digest) =
      o.opening.coordinates.map fun c => o.opening.carriedDigest c.1 c.2 := by
  have hnodup : o.opening.coordinates.Nodup := by
    rw [o.admitted.coordinates]
    exact nodup_schedule _ _ _
  exact (map_assoc Digest.zero hnodup (by simp [coordinates])).symm

theorem indices_lt : ∀ i ∈ o.opening.indices.toFinset, i < 2 ^ height o.opening.leafCount := by
  obtain ⟨h, -, hcount⟩ := o.admitted.leafCount
  intro i hi
  have := o.admitted.indices.lt i (List.mem_toFinset.mp hi)
  rw [hcount] at this ⊢
  rwa [height_two_pow]

/-- The Python reconstruction returns the recomputed root. -/
theorem reconstructPython_eq_ok :
    reconstructPython sha256
        (leafPrefix o.opening.bindingDigest o.opening.leafCount o.opening.leafWidth)
        (nodePrefix o.opening.bindingDigest o.opening.leafCount o.opening.leafWidth)
        o.opening.leafCount o.opening.leafWidth o.opening.indices o.opening.rows
        o.opening.coordinates (o.opening.siblings.map (·.digest)) =
      .ok (o.opening.rawRoot sha256) := by
  obtain ⟨leaves, hleaves, hlookup⟩ := openedLeaves_spec sha256
    (leafPrefix o.opening.bindingDigest o.opening.leafCount o.opening.leafWidth)
    ∅ o.admitted.leafWidth fun i hi => o.isRow_openedRow hi
  rw [o.map_openedRow] at hleaves
  have hrepresents : Represents leaves o.opening.indices.toFinset fun i => leafDigest sha256
      (leafPrefix o.opening.bindingDigest o.opening.leafCount o.opening.leafWidth) i
      (o.opening.openedRow i) := by
    intro i
    simp only [hlookup i, Finmap.lookup_empty, List.mem_toFinset]
  have hcoordinates : ∀ l, 0 ≤ l → byLevel o.opening.coordinates l =
      byLevel (schedule (height o.opening.leafCount) 0 o.opening.indices.toFinset) l := by
    intro l _
    rw [o.admitted.coordinates]
  have hdigests : (o.opening.siblings.map (·.digest)).drop 0 =
      (schedule (height o.opening.leafCount) 0 o.opening.indices.toFinset).map
        fun c => o.opening.carriedDigest c.1 c.2 := by
    rw [List.drop_zero, o.map_carriedDigest, o.admitted.coordinates]
  obtain ⟨final, hfinal, hkeys, hroot⟩ := reconstructLoop_spec sha256
    (nodePrefix o.opening.bindingDigest o.opening.leafCount o.opening.leafWidth)
    o.opening.carriedDigest 0 hrepresents hcoordinates hdigests
    o.admitted.indices.toFinset_nonempty o.indices_lt
  have hlength : 0 + (schedule (height o.opening.leafCount) 0 o.opening.indices.toFinset).length =
      (o.opening.siblings.map (·.digest)).length := by
    rw [o.map_carriedDigest, List.length_map, o.admitted.coordinates, Nat.zero_add]
  rw [reconstructPython]
  refine bind_eq_ok.mpr ⟨leaves, hleaves, bind_eq_ok.mpr ⟨_, hfinal, bind_eq_ok.mpr ⟨(), ?_, ?_⟩⟩⟩
  · rw [raiseIf_eq_ok, hlength, hkeys]
    simp
  · simp only [hroot]
    rfl

/-- The compiled reconstruction returns the same root when the leaf message fits its buffer of
448 bytes, that is for widths up to 44, and code 4 otherwise. -/
theorem reconstructMultiopenWn_eq :
    Compiled.reconstructMultiopenWn sha256
        (leafPrefix o.opening.bindingDigest o.opening.leafCount o.opening.leafWidth)
        (nodePrefix o.opening.bindingDigest o.opening.leafCount o.opening.leafWidth)
        o.opening.leafCount o.opening.indices (o.opening.rows.flatten.map Int.toNat)
        o.opening.leafWidth
        ((o.opening.coordinates.zip (o.opening.siblings.map (·.digest))).map
          fun ((level, index), digest) => (level, index, digest)) =
      if o.opening.leafWidth ≤ 44 then .ok (o.opening.rawRoot sha256) else .error 4 := by
  obtain ⟨h, -, hcount⟩ := o.admitted.leafCount
  have hwidth := o.admitted.leafWidth.1
  rw [Compiled.reconstructMultiopenWn, length_leafPrefix, Compiled.msgCapacity]
  split_ifs with hbig hsmall hsmall
  · omega
  · rfl
  · have hsiblings : (o.opening.coordinates.zip (o.opening.siblings.map (·.digest))).map
        (fun x : (ℕ × ℕ) × Digest => (x.1.1, x.1.2, x.2)) =
        (schedule h 0 o.opening.indices.toFinset).map
          fun c => (c.1, c.2, o.opening.carriedDigest c.1 c.2) := by
      have hcoordinates := o.admitted.coordinates
      rw [hcount, height_two_pow] at hcoordinates
      have hzip : o.opening.coordinates.zip
          (o.opening.coordinates.map fun c => o.opening.carriedDigest c.1 c.2) =
          o.opening.coordinates.map fun c => (c, o.opening.carriedDigest c.1 c.2) := by
        conv_lhs => rw [← List.map_id o.opening.coordinates, List.map_map, List.zip_map']
        rfl
      rw [o.map_carriedDigest, hzip, hcoordinates, List.map_map]
      rfl
    have hleaves : Compiled.leafDigests sha256
        (leafPrefix o.opening.bindingDigest o.opening.leafCount o.opening.leafWidth)
        o.opening.indices (o.opening.rows.flatten.map Int.toNat) o.opening.leafWidth =
        Compiled.workOf o.opening.indices.toFinset fun i => leafDigest sha256
          (leafPrefix o.opening.bindingDigest o.opening.leafCount o.opening.leafWidth) i
          (o.opening.openedRow i) := by
      rw [← o.map_openedRow, leafDigests_eq sha256 _ fun i hi => o.isRow_openedRow hi,
        Compiled.workOf, o.admitted.indices.sort_toFinset]
    have hloop := Compiled.reconstructLoop_workOf sha256
      (nodePrefix o.opening.bindingDigest o.opening.leafCount o.opening.leafWidth)
      o.opening.carriedDigest h 0
      (fun i => leafDigest sha256
        (leafPrefix o.opening.bindingDigest o.opening.leafCount o.opening.leafWidth) i
        (o.opening.openedRow i))
      o.admitted.indices.toFinset_nonempty
      (by
        have hlt := o.indices_lt
        rwa [hcount, height_two_pow] at hlt)
    rw [hleaves, hsiblings, rawRoot, hcount, height_two_pow]
    rw [hcount] at hloop
    simp only [hloop, bind, Except.bind, pure, Except.pure]
  · omega

theorem reconstructCompiled_eq_ok (lib : Bool) :
    reconstructCompiled sha256 lib
        (leafPrefix o.opening.bindingDigest o.opening.leafCount o.opening.leafWidth)
        (nodePrefix o.opening.bindingDigest o.opening.leafCount o.opening.leafWidth)
        o.opening.leafCount o.opening.leafWidth o.opening.indices o.opening.rows
        o.opening.coordinates (o.opening.siblings.map (·.digest)) =
      .ok (if lib then
        some (if o.opening.leafWidth ≤ 44 then .ok (o.opening.rawRoot sha256) else .error 4)
        else none) := by
  have hcanonical : ∀ v ∈ o.opening.rows.flatten, Canonical v := by
    intro v hv
    obtain ⟨row, hrow, hv⟩ := List.mem_flatten.mp hv
    exact (o.isRow_of_mem hrow).2 v hv
  have hwords := arrayQ_eq_ok hcanonical
  rw [← o.reconstructMultiopenWn_eq sha256]
  unfold reconstructCompiled
  by_cases hone : o.opening.leafWidth = 1
  · -- width one: the rows are checked and unpacked first
    have hcheck : o.opening.rows.mapM checkRowW1 = .ok o.opening.rows.flatten := by
      have hrow : ∀ row ∈ o.opening.rows, checkRowW1 row = .ok (row.headD 0) ∧ [row.headD 0] = row := by
        intro row hrow
        obtain ⟨hlength, hrowCanonical⟩ := o.isRow_of_mem hrow
        rw [hone] at hlength
        obtain ⟨value, rfl⟩ := List.length_eq_one_iff.mp hlength
        have hvalue := hrowCanonical value List.mem_cons_self
        simp [checkRowW1, raiseIf, getItem, hvalue]
      have hflatten : o.opening.rows.map (·.headD 0) = o.opening.rows.flatten := by
        calc o.opening.rows.map (·.headD 0)
            = (o.opening.rows.map fun row => [row.headD 0]).flatten := by
              rw [← List.flatMap_def, List.map_eq_flatMap]
          _ = o.opening.rows.flatten := by
              rw [List.map_congr_left fun row h => (hrow row h).2, List.map_id']
      rw [mapM_eq_ok_map fun row h => (hrow row h).1, hflatten]
    rw [if_pos hone, bind_eq_ok]
    refine ⟨_, hcheck, ?_⟩
    cases lib with
    | false => rfl
    | true =>
      rw [if_pos rfl, if_pos rfl, Compiled.reconstructW1, bind_eq_ok]
      refine ⟨_, hwords, ?_⟩
      rw [Compiled.reconstructMultiopenW1, hone]
      rfl
  · rw [if_neg hone]
    cases lib with
    | false => rfl
    | true =>
      have hlength : o.opening.rows.flatten.length =
          o.opening.indices.length * o.opening.leafWidth := by
        rw [List.length_flatten, List.map_congr_left fun row h => (o.isRow_of_mem h).1,
          List.map_const', List.sum_replicate, o.length_rows, smul_eq_mul]
      rw [if_pos rfl, if_pos rfl, Compiled.reconstructWn, if_neg (not_not.mpr hlength), bind_eq_ok]
      exact ⟨_, hwords, rfl⟩

theorem reconstructRoot_eq_ok (lib : Bool) (root : Digest) :
    reconstructRoot sha256 lib
        (leafPrefix o.opening.bindingDigest o.opening.leafCount o.opening.leafWidth)
        (nodePrefix o.opening.bindingDigest o.opening.leafCount o.opening.leafWidth)
        o.opening.leafCount o.opening.leafWidth o.opening.indices o.opening.rows
        o.opening.coordinates (o.opening.siblings.map (·.digest)) = .ok root ↔
      root = o.opening.rawRoot sha256 ∧ (lib = true → o.opening.leafWidth ≤ 44) := by
  simp only [reconstructRoot, bind_eq_ok, o.reconstructCompiled_eq_ok sha256 lib, Except.ok.injEq,
    exists_eq_left']
  cases lib with
  | false => simp [o.reconstructPython_eq_ok sha256, eq_comm]
  | true =>
    by_cases hwidth : o.opening.leafWidth ≤ 44
    · simp only [if_true, hwidth, pure_eq_ok, forall_const, and_true]
      exact eq_comm
    · simp only [if_true, hwidth, if_false, forall_const, and_false, iff_false]
      exact fun h => by cases h

theorem verify_accepts_iff (lib : Bool) (commitment expectedBindingDigest : Bytes)
    (expectedLeafCount expectedLeafWidth : ℕ) (expectedIndices : List ℕ) :
    Accepts (verifyGoldilocksMerkleMultiopeningReference sha256 lib commitment o.opening
        expectedBindingDigest expectedLeafCount expectedLeafWidth expectedIndices) ↔
      expectedBindingDigest = o.opening.bindingDigest.bytes ∧
      expectedLeafCount = o.opening.leafCount ∧ expectedLeafWidth = o.opening.leafWidth ∧
      expectedIndices = o.opening.indices ∧
      commitment = (commitmentHash sha256 o.opening.bindingDigest o.opening.leafCount
        o.opening.leafWidth (o.opening.rawRoot sha256)).bytes ∧
      (lib = true → o.opening.leafWidth ≤ 44) := by
  obtain ⟨h, hh, hcount⟩ := o.admitted.leafCount
  have hexpected : expectedSiblingCoordinates lib o.opening.leafCount o.opening.indices =
      o.opening.coordinates := by
    have hindices := o.admitted.indices
    rw [o.admitted.coordinates]
    rw [hcount] at hindices ⊢
    rw [expectedSiblingCoordinates_eq lib hh hindices, height_two_pow]
  have hreconstruct := o.reconstructRoot_eq_ok sha256 lib
  simp only [leafPrefix, nodePrefix] at hreconstruct
  simp only [Accepts, verifyGoldilocksMerkleMultiopeningReference, bind_eq_ok, raiseIf_eq_ok,
    exceptProofV3_eq_ok, pure_eq_ok, fixedBytes32_eq_ok, leafCount_eq_ok, leafWidth_eq_ok,
    indices_eq_ok, not_not, not_or]
  constructor
  · rintro ⟨-, ⟨binding, count, width, indices, root⟩, ⟨binding', hbinding, count', ⟨-, rfl⟩, width',
      ⟨-, rfl⟩, indices', ⟨-, rfl⟩, root', hroot, heq⟩, -, hb, -, ⟨hc, hw⟩, -, hi, -, -, raw, hraw,
      hcommit⟩
    simp only [Prod.mk.injEq] at heq
    obtain ⟨rfl, rfl, rfl, rfl, rfl⟩ := heq
    subst hb hc hw hi
    rw [hexpected] at hraw
    obtain ⟨rfl, hwidth⟩ := (hreconstruct raw).mp hraw
    exact ⟨hbinding, rfl, rfl, rfl, hroot.trans (congrArg Digest.bytes hcommit), hwidth⟩
  · rintro ⟨hbinding, rfl, rfl, rfl, hroot, hwidth⟩
    refine ⟨(), (o.opening.bindingDigest, o.opening.leafCount, o.opening.leafWidth,
      o.opening.indices, commitmentHash sha256 o.opening.bindingDigest o.opening.leafCount
        o.opening.leafWidth (o.opening.rawRoot sha256)),
      ⟨_, hbinding, _, ⟨o.admitted.leafCount, rfl⟩, _, ⟨o.admitted.leafWidth, rfl⟩, _,
        ⟨o.admitted.indices, rfl⟩, _, hroot, rfl⟩, (), rfl, (), ⟨rfl, rfl⟩, (), rfl, (),
      hexpected.symm, o.opening.rawRoot sha256, ?_, rfl⟩
    rw [hexpected]
    exact (hreconstruct _).mpr ⟨rfl, hwidth⟩

end ConstructedOpening

end Verathos.Merkle
