import Mathlib.Tactic

/-!
# Intervals

An interval in blocks of one size (`Blocks`), and in runs of any sizes (`Tiling`).
-/

/-!
## Cutting an interval into blocks

An interval of `total` points is cut into blocks of `size` points; the last block has what remains.

* `blockSizes size total`: the sizes of the blocks in order.
* `eq_blockSizes_iff`: a list of positive sizes that are at most `size` is this cut of its sum,
  exactly when every size but the last is `size`.
-/

namespace Blocks

variable {size total : ℕ}

/-- The number of blocks, `len(range(0, total, size))`. -/
def blockCount (size total : ℕ) : ℕ := (total + size - 1) / size

/-- The sizes of the blocks. -/
def blockSizes (size total : ℕ) : List ℕ :=
  (List.range (blockCount size total)).map fun i => min size (total - i * size)

@[simp]
theorem blockCount_zero (hsize : 0 < size) : blockCount size 0 = 0 := by
  rw [blockCount, Nat.div_eq_of_lt (by omega)]

theorem blockCount_of_le (htotal : 0 < total) (hle : total ≤ size) : blockCount size total = 1 := by
  exact Nat.div_eq_of_lt_le (by omega) (by omega)

theorem blockCount_add (hsize : 0 < size) :
    blockCount size (size + total) = blockCount size total + 1 := by
  rw [blockCount, blockCount, ← Nat.add_div_right _ hsize]
  congr 1
  omega

theorem blockSizes_zero (hsize : 0 < size) : blockSizes size 0 = [] := by
  simp [blockSizes, hsize]

theorem blockSizes_of_le (htotal : 0 < total) (hle : total ≤ size) :
    blockSizes size total = [total] := by
  simp [blockSizes, blockCount_of_le htotal hle, hle]

theorem blockSizes_add (hsize : 0 < size) :
    blockSizes size (size + total) = size :: blockSizes size total := by
  rw [blockSizes, blockCount_add hsize, List.range_succ_eq_map, List.map_cons, List.map_map]
  congr 1
  · omega
  · refine List.map_congr_left fun i _ => ?_
    simp only [Function.comp_apply, Nat.succ_eq_add_one, Nat.add_mul, one_mul]
    omega

/-- Every block but the last is full. -/
theorem eq_of_mem_dropLast_blockSizes (hsize : 0 < size) {n : ℕ}
    (h : n ∈ (blockSizes size total).dropLast) : n = size := by
  induction total using Nat.strong_induction_on with
  | _ total ih =>
    rcases Nat.eq_zero_or_pos total with rfl | htotal
    · simp [blockSizes_zero hsize] at h
    rcases le_or_gt total size with hle | hlt
    · simp [blockSizes_of_le htotal hle] at h
    · obtain ⟨rest, rfl⟩ := Nat.exists_eq_add_of_le hlt.le
      have hrest : blockSizes size rest ≠ [] := by
        intro hnil
        have := congrArg List.length hnil
        simp only [blockSizes, List.length_map, List.length_range, List.length_nil,
          blockCount, Nat.div_eq_zero_iff] at this
        omega
      rw [blockSizes_add hsize, List.dropLast_cons_of_ne_nil hrest, List.mem_cons] at h
      exact h.elim id (ih rest (by omega))

theorem eq_blockSizes_iff (hsize : 0 < size) {sizes : List ℕ}
    (hsizes : ∀ n ∈ sizes, 0 < n ∧ n ≤ size) :
    sizes = blockSizes size sizes.sum ↔ ∀ n ∈ sizes.dropLast, n = size := by
  constructor
  · intro h n hn
    rw [h] at hn
    exact eq_of_mem_dropLast_blockSizes hsize hn
  · intro h
    induction sizes with
    | nil => exact (blockSizes_zero hsize).symm
    | cons n rest ih =>
      obtain ⟨hn, hle⟩ := hsizes n List.mem_cons_self
      rcases eq_or_ne rest [] with rfl | hrest
      · simp [blockSizes_of_le hn hle]
      · -- the first block is full, and the rest is the cut of what remains
        rw [List.dropLast_cons_of_ne_nil hrest] at h
        obtain rfl : n = size := h n List.mem_cons_self
        rw [List.sum_cons, blockSizes_add hsize, ← ih
          (fun m hm => hsizes m (List.mem_cons_of_mem _ hm))
          (fun m hm => h m (List.mem_cons_of_mem _ hm))]

end Blocks

/-!
## Tilings of an interval

A run is a pair of an offset and a size. A list of runs tiles the interval from `start` to `stop`
when the first run begins at `start`, every run has a cell and begins where the one before it ends,
and the last one ends at `stop`.

* `tiles_append`: a tiling in two parts is a tiling of two intervals that meet.
* `Tiles.flatMap_cells`: the cells of the runs, in order, are the cells of the interval.
-/

namespace Tiling

/-- Non-empty runs that follow each other from `start` to `stop`. -/
def Tiles (start stop : ℕ) : List (ℕ × ℕ) → Prop
  | [] => start = stop
  | (offset, size) :: rest => offset = start ∧ 0 < size ∧ Tiles (start + size) stop rest

/-- The cells of a run. -/
def cells (run : ℕ × ℕ) : List ℕ := List.range' run.1 run.2

variable {start stop : ℕ} {runs runs' : List (ℕ × ℕ)}

@[simp]
theorem tiles_nil : Tiles start stop [] ↔ start = stop := Iff.rfl

@[simp]
theorem tiles_cons {run : ℕ × ℕ} : Tiles start stop (run :: runs) ↔
    run.1 = start ∧ 0 < run.2 ∧ Tiles (start + run.2) stop runs := Iff.rfl

theorem Tiles.le (h : Tiles start stop runs) : start ≤ stop := by
  induction runs generalizing start with
  | nil => exact h.le
  | cons run runs ih =>
    obtain ⟨-, -, hrest⟩ := h
    exact (Nat.le_add_right _ _).trans (ih hrest)

theorem tiles_append : Tiles start stop (runs ++ runs') ↔
    ∃ middle, Tiles start middle runs ∧ Tiles middle stop runs' := by
  induction runs generalizing start with
  | nil => simp
  | cons run runs ih => simp only [List.cons_append, tiles_cons, ih, and_assoc, exists_and_left]

theorem Tiles.flatMap_cells (h : Tiles start stop runs) :
    runs.flatMap cells = List.range' start (stop - start) := by
  induction runs generalizing start with
  | nil =>
    obtain rfl : start = stop := h
    simp
  | cons run runs ih =>
    obtain ⟨hoffset, -, hrest⟩ := h
    have hle := hrest.le
    have hsplit : stop - start = run.2 + (stop - (start + run.2)) := by omega
    rw [List.flatMap_cons, ih hrest, cells, hoffset, hsplit, ← List.range'_append_1]

theorem Tiles.sum_sizes (h : Tiles start stop runs) :
    start + (runs.map Prod.snd).sum = stop := by
  induction runs generalizing start with
  | nil => simpa using h
  | cons run runs ih =>
    obtain ⟨-, -, hrest⟩ := h
    rw [List.map_cons, List.sum_cons, ← Nat.add_assoc]
    exact ih hrest

end Tiling
