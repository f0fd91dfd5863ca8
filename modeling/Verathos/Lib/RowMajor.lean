import Mathlib.Tactic

/-!
# Matrices as lists of rows

* `HasShape`: every row has as many entries as the matrix has columns;
* `take_drop_flatten`, `eq_of_flatten`: the entries of a matrix in one list, from which the rows are
  cut out again;
* `block`: a square block at block coordinates; the blocks of a block row make its band of rows
  (`besides_blocks`), those of a block column its band of columns (`flatten_blocks`).
-/

namespace RowMajor

variable {α : Type*}

/-- A matrix with these numbers of rows and columns. -/
def HasShape (rows columns : ℕ) (matrix : List (List α)) : Prop :=
  matrix.length = rows ∧ ∀ row ∈ matrix, row.length = columns

/-! ## Entries in one list -/

variable {rows columns : ℕ}

theorem length_flatten {matrix : List (List α)} (h : HasShape rows columns matrix) :
    matrix.flatten.length = rows * columns := by
  rw [List.length_flatten, List.map_congr_left h.2, List.map_const', List.sum_replicate, h.1,
    smul_eq_mul]

theorem take_drop_flatten {rows : List (List α)} {width i : ℕ} {row : List α}
    (hrows : ∀ r ∈ rows, r.length = width) (hi : rows[i]? = some row) :
    (rows.flatten.drop (i * width)).take width = row := by
  induction rows generalizing i with
  | nil => simp at hi
  | cons first rows ih =>
    obtain ⟨hfirst, hrest⟩ := List.forall_mem_cons.mp hrows
    cases i with
    | zero =>
      obtain rfl : first = row := by simpa using hi
      rw [zero_mul, List.drop_zero, List.flatten_cons, List.take_append_of_le_length hfirst.ge,
        ← hfirst, List.take_length]
    | succ i =>
      rw [List.flatten_cons, Nat.succ_mul, Nat.add_comm, ← List.drop_drop, ← hfirst,
        List.drop_left, hfirst]
      exact ih hrest (by simpa using hi)

theorem eq_of_flatten {matrix matrix' : List (List α)} (h : HasShape rows columns matrix)
    (h' : HasShape rows columns matrix') (heq : matrix.flatten = matrix'.flatten) :
    matrix = matrix' := by
  refine List.ext_getElem (h.1.trans h'.1.symm) fun i hi hi' => ?_
  rw [← take_drop_flatten h.2 (List.getElem?_eq_getElem hi), heq,
    take_drop_flatten h'.2 (List.getElem?_eq_getElem hi')]

theorem flatMap_slices {count size : ℕ} {items : List α} (h : items.length = count * size) :
    ((List.range count).flatMap fun i => (items.drop (i * size)).take size) = items := by
  induction count generalizing items with
  | zero =>
    rw [Nat.zero_mul] at h
    exact (List.length_eq_zero_iff.mp h).symm
  | succ count ih =>
    rw [Nat.succ_mul] at h
    have hfront : (items.take (count * size)).length = count * size := by
      rw [List.length_take]
      omega
    have hslices : ((List.range count).flatMap fun i => (items.drop (i * size)).take size) =
        items.take (count * size) := by
      rw [← ih hfront]
      refine List.flatMap_congr fun i hi => ?_
      have hle : (i + 1) * size ≤ count * size :=
        Nat.mul_le_mul_right size (List.mem_range.mp hi)
      rw [Nat.add_mul, one_mul] at hle
      rw [List.drop_take, List.take_take, min_eq_left (by omega)]
    rw [List.range_succ, List.flatMap_append, hslices, List.flatMap_singleton,
      List.take_of_length_le (l := items.drop (count * size)) (by rw [List.length_drop]; omega),
      List.take_append_drop]

/-! ## Blocks -/

/-- The rows of a block row. -/
def rowBand (matrix : List (List α)) (size bi : ℕ) : List (List α) :=
  (matrix.drop (bi * size)).take size

/-- The columns of a block column. -/
def columnBand (matrix : List (List α)) (size bj : ℕ) : List (List α) :=
  matrix.map fun row => (row.drop (bj * size)).take size

/-- The block at block coordinates. -/
def block (matrix : List (List α)) (size bi bj : ℕ) : List (List α) :=
  columnBand (rowBand matrix size bi) size bj

theorem length_slice {count size i : ℕ} {items : List α} (h : items.length = count * size)
    (hi : i < count) : ((items.drop (i * size)).take size).length = size := by
  have hle : (i + 1) * size ≤ count * size := Nat.mul_le_mul_right size hi
  rw [Nat.add_mul, one_mul] at hle
  rw [List.length_take, List.length_drop]
  omega

variable {count size : ℕ} {matrix : List (List α)}

theorem hasShape_rowBand {bi : ℕ} (h : HasShape (count * size) columns matrix) (hbi : bi < count) :
    HasShape size columns (rowBand matrix size bi) :=
  ⟨length_slice h.1 hbi, fun row hrow => h.2 row (List.mem_of_mem_drop (List.mem_of_mem_take hrow))⟩

theorem hasShape_columnBand {bj : ℕ} (h : HasShape rows (count * size) matrix) (hbj : bj < count) :
    HasShape rows size (columnBand matrix size bj) := by
  refine ⟨(List.length_map _).trans h.1, fun row hrow => ?_⟩
  obtain ⟨source, hsource, rfl⟩ := List.mem_map.mp hrow
  exact length_slice (h.2 source hsource) hbj

theorem hasShape_block {bi bj : ℕ} (h : HasShape (count * size) (count * size) matrix)
    (hbi : bi < count) (hbj : bj < count) : HasShape size size (block matrix size bi bj) :=
  hasShape_columnBand (hasShape_rowBand h hbi) hbj

theorem besides_blocks {bi : ℕ} (h : HasShape (count * size) (count * size) matrix)
    (hbi : bi < count) :
    ((List.range size).map fun row => ((List.range count).map fun bj =>
        block matrix size bi bj).flatMap fun b => b.getD row []) = rowBand matrix size bi := by
  obtain ⟨hlength, hrows⟩ := hasShape_rowBand h hbi
  refine List.ext_getElem (by rw [List.length_map, List.length_range, hlength]) fun r _ hr => ?_
  have hrow : (rowBand matrix size bi)[r].length = count * size := hrows _ (List.getElem_mem hr)
  rw [List.getElem_map, List.getElem_range, List.flatMap_map, ← flatMap_slices hrow]
  refine List.flatMap_congr fun bj _ => ?_
  rw [block, columnBand, List.getD_eq_getElem?_getD, List.getElem?_map,
    List.getElem?_eq_getElem hr]
  rfl

theorem flatten_blocks {bj : ℕ} (h : HasShape (count * size) rows matrix) :
    ((List.range count).map fun bi => block matrix size bi bj).flatten =
      columnBand matrix size bj := by
  have hmap : ((List.range count).flatMap fun bi => block matrix size bi bj) =
      columnBand ((List.range count).flatMap fun bi => rowBand matrix size bi) size bj :=
    (List.map_flatMap ..).symm
  rw [← List.flatMap_def, hmap]
  congr 1
  exact flatMap_slices h.1

end RowMajor
