import Verathos.Merkle.Verify

/-!
# What the input checks admit

One lemma for each check of `goldilocks_merkle_reference.py`, stating when it returns and that
it then returns its argument. The fast paths of `_field_rows` and `_indices` are covered by the
same statements: they return early on inputs that the loops accept.

`Admitted` is the invariant of a constructed opening, and `postInit_eq_ok` says that the
constructor establishes exactly this.
-/

namespace Verathos.Merkle

/-! ## Counts and widths -/

@[simp]
theorem leafCount_eq_ok {value count : ℕ} :
    leafCount value = .ok count ↔ (∃ h ≤ 30, value = 2 ^ h) ∧ count = value := by
  have hcap : maxGoldilocksNativeDomainSize = 2 ^ 30 := rfl
  simp only [leafCount, bind_eq_ok, raiseIf_eq_ok, pure_eq_ok, hcap, not_or, not_lt, not_not]
  constructor
  · rintro ⟨-, ⟨hpos, hle, hand⟩, rfl⟩
    obtain ⟨h, rfl⟩ := (Nat.and_sub_one_eq_zero_iff_isPowerOfTwo (by omega)).mp hand
    exact ⟨⟨h, (Nat.pow_le_pow_iff_right (by norm_num)).mp hle, rfl⟩, rfl⟩
  · rintro ⟨⟨h, hle, rfl⟩, rfl⟩
    refine ⟨(), ⟨Nat.one_le_two_pow, Nat.pow_le_pow_right (by norm_num) hle, ?_⟩, rfl⟩
    exact (Nat.and_sub_one_eq_zero_iff_isPowerOfTwo (by positivity)).mpr ⟨h, rfl⟩

@[simp]
theorem leafWidth_eq_ok {value width : ℕ} :
    leafWidth value = .ok width ↔ (1 ≤ value ∧ value ≤ maxLeafWidth) ∧ width = value := by
  simp only [leafWidth, bind_eq_ok, raiseIf_eq_ok, pure_eq_ok]
  constructor
  · rintro ⟨-, h, rfl⟩
    exact ⟨by omega, rfl⟩
  · rintro ⟨h, rfl⟩
    exact ⟨(), by omega, rfl⟩

variable {name : String}

@[simp]
theorem materializeIterable_eq_ok {α : Type} {items result : List α} {maximum : ℕ} :
    materializeIterable items name maximum = .ok result ↔
      items.length ≤ maximum ∧ result = items := by
  simp only [materializeIterable, bind_eq_ok, raiseIf_eq_ok, pure_eq_ok]
  constructor
  · rintro ⟨-, h, rfl⟩
    exact ⟨by omega, rfl⟩
  · rintro ⟨h, rfl⟩
    exact ⟨(), by omega, rfl⟩

/-! ## Rows -/

/-- A row of `width` canonical field elements. -/
def IsRow (width : ℕ) (row : List ℤ) : Prop :=
  row.length = width ∧ ∀ item ∈ row, Canonical item

variable {width : Option ℕ}

theorem fieldRow_eq_ok {value row : List ℤ} :
    fieldRow value name width = .ok row ↔
      (∃ w, (∀ w' ∈ width, w' = w) ∧ 1 ≤ w ∧ w ≤ maxLeafWidth ∧ IsRow w value) ∧ row = value := by
  have hitems : ∀ (a : ℤ × ℕ) (b : ℤ),
      canonicalGoldilocks a.1 (name ++ "[" ++ toString a.2 ++ "]") = .ok b ↔
        Canonical a.1 ∧ b = a.1 := fun _ _ => canonicalGoldilocks_eq_ok
  simp only [fieldRow, bind_eq_ok, raiseIf_eq_ok, materializeIterable_eq_ok,
    mapM_eq_ok_of_iff hitems]
  have hforall : (∀ a ∈ value.zipIdx, Canonical a.1) ↔ ∀ item ∈ value, Canonical item := by
    constructor
    · intro h item hitem
      obtain ⟨i, hi, rfl⟩ := List.mem_iff_getElem.mp hitem
      exact h (value[i], i) (List.mk_mem_zipIdx_iff_getElem?.mpr (List.getElem?_eq_getElem hi))
    · rintro h ⟨item, i⟩ hmem
      exact h item (List.fst_mem_of_mem_zipIdx hmem)
  simp only [List.zipIdx_map_fst]
  constructor
  · rintro ⟨items, ⟨hcap, rfl⟩, -, hne, -, hwidth, hall, rfl⟩
    refine ⟨⟨row.length, ?_, ?_, hcap, rfl, hforall.mp hall⟩, rfl⟩
    · intro w' hw'
      by_contra h
      exact hwidth ⟨w', hw', fun heq => h heq.symm⟩
    · exact List.length_pos_iff.mpr hne
  · rintro ⟨⟨w, hwidth, hpos, hcap, rfl, hall⟩, rfl⟩
    refine ⟨row, ⟨hcap, rfl⟩, (), List.ne_nil_of_length_pos hpos, (), ?_, hforall.mpr hall, rfl⟩
    rintro ⟨w', hw', hne⟩
    exact hne (hwidth w' hw').symm

variable {rows : List (List ℤ)}

theorem fieldRowsLoop_some_eq_ok {result : List (List ℤ)} {k w total : ℕ}
    (hw : 1 ≤ w ∧ w ≤ maxLeafWidth) :
    fieldRowsLoop name (rows.zipIdx k) (some w) total = .ok (result, width) ↔
      (∀ row ∈ rows, IsRow w row) ∧ (rows ≠ [] → total + rows.length * w ≤ maxFieldValues) ∧
        result = rows ∧ width = some w := by
  induction rows generalizing result k total with
  | nil => simp [fieldRowsLoop, eq_comm]
  | cons row rows ih =>
    simp only [List.zipIdx_cons, fieldRowsLoop, bind_eq_ok, raiseIf_eq_ok, pure_eq_ok,
      fieldRow_eq_ok, Option.mem_some_iff, Option.getD_some, Prod.mk.injEq]
    constructor
    · rintro ⟨row', ⟨⟨w', hw', -, -, hrow⟩, rfl⟩, -, htotal, ⟨rest, width'⟩, hrest, rfl, rfl⟩
      obtain rfl := hw' w rfl
      obtain ⟨hall, hcount, rfl, rfl⟩ := ih.mp hrest
      refine ⟨List.forall_mem_cons.mpr ⟨hrow, hall⟩, fun _ => ?_, rfl, rfl⟩
      rw [hrow.1] at htotal hcount
      rcases List.eq_nil_or_concat rest with rfl | ⟨_, _, rfl⟩
      · simpa using htotal
      · have := hcount (by simp)
        simp only [List.length_cons, Nat.succ_mul] at this ⊢
        omega
    · rintro ⟨hall, hcount, rfl, rfl⟩
      obtain ⟨hrow, hall⟩ := List.forall_mem_cons.mp hall
      have htotal := hcount (by simp)
      simp only [List.length_cons, Nat.succ_mul] at htotal
      refine ⟨row, ⟨⟨w, fun w' h => h.symm, hw.1, hw.2, hrow⟩, rfl⟩, (), ?_, (rows, some w), ?_,
        rfl, rfl⟩
      · rw [hrow.1]
        omega
      · refine ih.mpr ⟨hall, fun _ => ?_, rfl, rfl⟩
        rw [hrow.1]
        omega

/-- The tables that `_field_rows` admits. -/
def RowsAdmitted (rows : List (List ℤ)) (expectedCount width : Option ℕ) : Prop :=
  rows ≠ [] ∧ (∀ count ∈ expectedCount, rows.length = count) ∧
    ∃ w, (∀ w' ∈ width, w' = w) ∧ 1 ≤ w ∧ w ≤ maxLeafWidth ∧ (∀ row ∈ rows, IsRow w row) ∧
      rows.length * w ≤ maxFieldValues

theorem fieldRowsLoop_eq_ok {result : List (List ℤ)} {final : Option ℕ} (hne : rows ≠ []) :
    fieldRowsLoop name rows.zipIdx width 0 = .ok (result, final) ↔
      (∃ w, (∀ w' ∈ width, w' = w) ∧ 1 ≤ w ∧ w ≤ maxLeafWidth ∧ (∀ row ∈ rows, IsRow w row) ∧
        rows.length * w ≤ maxFieldValues ∧ final = some w) ∧ result = rows := by
  obtain ⟨row, rest, rfl⟩ := List.exists_cons_of_ne_nil hne
  simp only [List.zipIdx_cons, fieldRowsLoop, bind_eq_ok, raiseIf_eq_ok, pure_eq_ok,
    fieldRow_eq_ok, Prod.mk.injEq]
  constructor
  · rintro ⟨row', ⟨⟨w, hwidth, hpos, hcap, hrow⟩, rfl⟩, -, htotal, ⟨rest', width'⟩, hrest, rfl, rfl⟩
    have hgetD : width.getD row'.length = w := by
      cases width with
      | none => exact hrow.1
      | some w' => exact hwidth w' rfl
    rw [hgetD] at hrest
    obtain ⟨hall, hcount, rfl, rfl⟩ := (fieldRowsLoop_some_eq_ok ⟨hpos, hcap⟩).mp hrest
    refine ⟨⟨w, hwidth, hpos, hcap, List.forall_mem_cons.mpr ⟨hrow, hall⟩, ?_, rfl⟩, rfl⟩
    rw [hrow.1] at htotal hcount
    rcases List.eq_nil_or_concat rest' with rfl | ⟨_, _, rfl⟩
    · simpa using htotal
    · have := hcount (by simp)
      simp only [List.length_cons, Nat.succ_mul] at this ⊢
      omega
  · rintro ⟨⟨w, hwidth, hpos, hcap, hall, hcount, rfl⟩, rfl⟩
    obtain ⟨hrow, hall⟩ := List.forall_mem_cons.mp hall
    have hgetD : width.getD row.length = w := by
      cases width with
      | none => exact hrow.1
      | some w' => exact hwidth w' rfl
    simp only [List.length_cons, Nat.succ_mul] at hcount
    refine ⟨row, ⟨⟨w, hwidth, hpos, hcap, hrow⟩, rfl⟩, (), ?_, (rest, some w), ?_, rfl, rfl⟩
    · rw [hrow.1]
      omega
    · rw [hgetD]
      refine (fieldRowsLoop_some_eq_ok ⟨hpos, hcap⟩).mpr ⟨hall, fun _ => ?_, rfl, rfl⟩
      rw [hrow.1]
      omega

/-- The fast path of `_field_rows` returns only tables that the loop admits. -/
theorem rowsAdmitted_of_fastPath {expectedCount : Option ℕ}
    (h : fieldRowsFastPath rows expectedCount width = true) :
    RowsAdmitted rows expectedCount width := by
  match rows, h with
  | (head :: tail) :: rest, h =>
    simp only [fieldRowsFastPath, Bool.and_eq_true, decide_eq_true_eq, Option.all_eq_true] at h
    obtain ⟨⟨-, hcount⟩, hrows⟩ := h
    have hwidth : ∀ w' ∈ width, w' = width.getD (head :: tail).length := by
      rintro w' hw'
      rw [Option.mem_def.mp hw', Option.getD_some]
    refine ⟨List.cons_ne_nil _ _, hcount, width.getD (head :: tail).length, hwidth, ?_⟩
    split at hrows
    · rename_i hone
      simp only [Bool.and_eq_true, List.all_eq_true, decide_eq_true_eq, List.mem_flatten,
        forall_exists_index, and_imp] at hrows
      refine ⟨hone.1.ge, hone.1.le.trans (by norm_num [maxLeafWidth]), fun row hrow => ?_, ?_⟩
      · exact ⟨(hrows.1 row hrow).trans hone.1.symm, fun item => hrows.2 item row hrow⟩
      · rw [hone.1, mul_one]
        exact hone.2
    · simp only [Bool.and_eq_true, List.all_eq_true, decide_eq_true_eq] at hrows
      obtain ⟨⟨⟨hpos, hcap⟩, htotal⟩, hall⟩ := hrows
      exact ⟨hpos, hcap, fun row hrow => ⟨(hall row hrow).1, (hall row hrow).2⟩, htotal⟩

theorem fieldRows_eq_ok {value : List (List ℤ)} {expectedCount : Option ℕ} :
    fieldRows value name expectedCount width = .ok rows ↔
      RowsAdmitted value expectedCount width ∧ rows = value := by
  unfold fieldRows
  split_ifs with hfast
  · rw [pure_eq_ok, eq_comm]
    exact (and_iff_right (rowsAdmitted_of_fastPath hfast)).symm
  · simp only [bind_eq_ok, raiseIf_eq_ok, pure_eq_ok, materializeIterable_eq_ok,
      leafWidth_eq_ok, RowsAdmitted]
    constructor
    · rintro ⟨rows', ⟨-, rfl⟩, -, hne, -, hcount, ⟨normalized, final⟩, hloop, -, -, rfl⟩
      obtain ⟨⟨w, hwidth, hpos, hcap, hall, htotal, -⟩, rfl⟩ := (fieldRowsLoop_eq_ok hne).mp hloop
      refine ⟨⟨hne, fun count hc => ?_, w, hwidth, hpos, hcap, hall, htotal⟩, rfl⟩
      by_contra h
      exact hcount ⟨count, hc, h⟩
    · rintro ⟨⟨hne, hcount, w, hwidth, hpos, hcap, hall, htotal⟩, rfl⟩
      refine ⟨rows, ⟨?_, rfl⟩, (), hne, (), ?_, (rows, some w),
        (fieldRowsLoop_eq_ok hne).mpr ⟨⟨w, hwidth, hpos, hcap, hall, htotal, rfl⟩, rfl⟩, w,
        ⟨⟨hpos, hcap⟩, rfl⟩, rfl⟩
      · exact (Nat.le_mul_of_pos_right _ hpos).trans htotal
      · rintro ⟨count, hc, h⟩
        exact h (hcount count hc)

theorem encodeGoldilocksMerkleLeafReference_eq_ok {values : List ℤ} {bytes : Bytes} :
    encodeGoldilocksMerkleLeafReference values = .ok bytes ↔
      (∃ w, 1 ≤ w ∧ w ≤ maxLeafWidth ∧ IsRow w values) ∧
        bytes = values.flatMap fun value => LittleEndian.toBytes 8 value.toNat := by
  have hitems : ∀ (a : ℤ) (b : Bytes), goldilocksToBytes a = .ok b ↔
      Canonical a ∧ b = LittleEndian.toBytes 8 a.toNat := by
    intro a b
    simp only [goldilocksToBytes, bind_eq_ok, pure_eq_ok, canonicalGoldilocks_eq_ok]
    constructor
    · rintro ⟨_, ⟨h, rfl⟩, rfl⟩
      exact ⟨h, rfl⟩
    · rintro ⟨h, rfl⟩
      exact ⟨a, ⟨h, rfl⟩, rfl⟩
  simp only [encodeGoldilocksMerkleLeafReference, bind_eq_ok, pure_eq_ok, fieldRow_eq_ok,
    mapM_eq_ok_of_iff hitems, Option.mem_def, reduceCtorEq, false_implies, implies_true, true_and]
  constructor
  · rintro ⟨row, ⟨hrow, rfl⟩, encoded, ⟨-, rfl⟩, rfl⟩
    exact ⟨hrow, (List.flatMap_def ..).symm⟩
  · rintro ⟨⟨w, hpos, hcap, hrow⟩, rfl⟩
    exact ⟨values, ⟨⟨w, hpos, hcap, hrow⟩, rfl⟩, _, ⟨hrow.2, rfl⟩, (List.flatMap_def ..).symm⟩

/-! ## Index lists -/

/-- A nonempty strictly increasing list of leaf indices. -/
structure IndicesAdmitted (leafCount : ℕ) (indices : List ℕ) : Prop where
  ne_nil : indices ≠ []
  lt : ∀ index ∈ indices, index < leafCount
  sorted : indices.Pairwise (· < ·)

variable {leafCount : ℕ}

theorem IndicesAdmitted.length_le {indices : List ℕ} (h : IndicesAdmitted leafCount indices) :
    indices.length ≤ leafCount := by
  have hnodup : indices.Nodup := h.sorted.imp fun hab => Nat.ne_of_lt hab
  have hsub : indices.toFinset ⊆ Finset.range leafCount := fun i hi =>
    Finset.mem_range.mpr (h.lt i (List.mem_toFinset.mp hi))
  simpa [List.toFinset_card_of_nodup hnodup] using Finset.card_le_card hsub

theorem IndicesAdmitted.sort_toFinset {indices : List ℕ} (h : IndicesAdmitted leafCount indices) :
    indices.toFinset.sort = indices := by
  have hnodup : indices.Nodup := h.sorted.imp fun hab => Nat.ne_of_lt hab
  exact (List.toFinset_sort (· ≤ ·) hnodup).mpr (h.sorted.imp fun hab => Nat.le_of_lt hab)

theorem IndicesAdmitted.toFinset_nonempty {indices : List ℕ} (h : IndicesAdmitted leafCount indices) :
    indices.toFinset.Nonempty :=
  (List.toFinset_nonempty_iff indices).mpr h.ne_nil

theorem indicesLoop_eq_ok {k : ℕ} {previous : Option ℕ} {entries : List ℕ} {u : Unit} :
    indicesLoop leafCount name previous (entries.zipIdx k) = .ok u ↔
      (∀ entry ∈ entries, entry < leafCount) ∧ (previous.toList ++ entries).IsChain (· < ·) := by
  induction entries generalizing previous k with
  | nil => cases previous <;> simp [indicesLoop]
  | cons entry entries ih =>
    simp only [List.zipIdx_cons, indicesLoop, bind_eq_ok, raiseIf_eq_ok, ih, not_le, ge_iff_le,
      List.forall_mem_cons, Option.toList_some, List.cons_append, List.nil_append]
    cases previous with
    | none => simp [and_assoc]
    | some p =>
      simp only [Option.mem_some_iff, exists_eq_left', not_le, Option.toList_some,
        List.cons_append, List.nil_append, List.isChain_cons_cons, exists_const]
      tauto

theorem indices_eq_ok {value result : List ℕ} :
    indices value leafCount name = .ok result ↔ IndicesAdmitted leafCount value ∧ result = value := by
  unfold indices
  split_ifs with hfast
  · rw [pure_eq_ok, eq_comm]
    simp only [indicesFastPath, Bool.and_eq_true, decide_eq_true_eq, List.all_eq_true] at hfast
    obtain ⟨⟨⟨hpos, -⟩, hlt⟩, hchain⟩ := hfast
    exact (and_iff_right ⟨List.ne_nil_of_length_pos hpos, hlt, hchain.pairwise⟩).symm
  · simp only [bind_eq_ok, raiseIf_eq_ok, pure_eq_ok, materializeIterable_eq_ok,
      indicesLoop_eq_ok, Option.toList_none, List.nil_append]
    constructor
    · rintro ⟨entries, ⟨-, rfl⟩, -, hne, -, ⟨hlt, hchain⟩, rfl⟩
      exact ⟨⟨hne, hlt, hchain.pairwise⟩, rfl⟩
    · rintro ⟨h, rfl⟩
      exact ⟨result, ⟨h.length_le, rfl⟩, (), h.ne_nil, (), ⟨h.lt, h.sorted.isChain⟩, rfl⟩

end Verathos.Merkle
