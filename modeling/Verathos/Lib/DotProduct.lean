import Mathlib.Data.Fintype.Pi
import Mathlib.Tactic

/-!
# Products of integer lists

The sum of the products of two lists, up to the end of the shorter one, with its bound for bounded
entries.
-/

namespace DotProduct

/-- The sum of the products of the entries. -/
def dot (xs ys : List ℤ) : ℤ := (xs.zipWith (· * ·) ys).sum

@[simp]
theorem dot_nil_left (ys : List ℤ) : dot [] ys = 0 := rfl

@[simp]
theorem dot_nil_right (xs : List ℤ) : dot xs [] = 0 := by
  rw [dot, List.zipWith_nil_right, List.sum_nil]

@[simp]
theorem dot_cons_cons (x y : ℤ) (xs ys : List ℤ) : dot (x :: xs) (y :: ys) = x * y + dot xs ys := by
  rw [dot, List.zipWith_cons_cons, List.sum_cons, dot]

theorem dot_replicate (n : ℕ) (a b : ℤ) :
    dot (List.replicate n a) (List.replicate n b) = n * (a * b) := by
  rw [dot, List.zipWith_replicate, Nat.min_self, List.sum_replicate, nsmul_eq_mul]

theorem dot_eq_sum {xs ys : List ℤ} (h : xs.length = ys.length) :
    dot xs ys = ∑ i ∈ Finset.range ys.length, xs.getD i 0 * ys.getD i 0 := by
  induction ys generalizing xs with
  | nil => simp
  | cons y ys ih =>
    obtain ⟨x, xs, rfl⟩ := List.exists_cons_of_length_eq_add_one h
    rw [dot_cons_cons, ih (Nat.succ.inj h), List.length_cons, Finset.sum_range_succ']
    simp only [List.getD_cons_succ, List.getD_cons_zero]
    rw [add_comm]

theorem dot_append_replicate_zero (xs ys : List ℤ) (n : ℕ) :
    dot (xs ++ List.replicate n 0) ys = dot xs ys := by
  induction xs generalizing ys with
  | nil =>
    rw [List.nil_append, dot_nil_left]
    induction n generalizing ys with
    | zero => rfl
    | succ n ih =>
      cases ys with
      | nil => exact dot_nil_right _
      | cons y ys => rw [List.replicate_succ, dot_cons_cons, zero_mul, zero_add, ih]
  | cons x xs ih =>
    cases ys with
    | nil => rw [dot_nil_right, dot_nil_right]
    | cons y ys => rw [List.cons_append, dot_cons_cons, dot_cons_cons, ih]

theorem abs_dot_le {a b : ℤ} {xs ys : List ℤ} (ha : 0 ≤ a) (hb : 0 ≤ b) (hxs : ∀ x ∈ xs, |x| ≤ a)
    (hys : ∀ y ∈ ys, |y| ≤ b) :
    |dot xs ys| ≤ xs.length * (a * b) := by
  induction xs generalizing ys with
  | nil => simp
  | cons x xs ih =>
    obtain ⟨hx, hxs⟩ := List.forall_mem_cons.mp hxs
    cases ys with
    | nil =>
      rw [dot_nil_right, abs_zero]
      exact mul_nonneg (Int.natCast_nonneg _) (mul_nonneg ha hb)
    | cons y ys =>
      obtain ⟨hy, hys⟩ := List.forall_mem_cons.mp hys
      have hrest := ih hxs hys
      rw [dot_cons_cons, List.length_cons]
      push_cast
      calc |x * y + dot xs ys| ≤ |x * y| + |dot xs ys| := abs_add_le _ _
        _ ≤ a * b + xs.length * (a * b) := by
          refine add_le_add ?_ hrest
          rw [abs_mul]
          exact mul_le_mul hx hy (abs_nonneg _) ha
        _ = (xs.length + 1) * (a * b) := by ring

end DotProduct

/-!
## Counting the solutions of an equation

A sum with one term for each coordinate takes a given value on few vectors, when one of the terms
is injective in its coordinate: the other coordinates determine that one.
-/

namespace LinearCount

variable {ι κ A : Type*} [Fintype ι] [DecidableEq ι] [Fintype κ] [AddCommGroup A]

/-- The vectors on which a sum of terms takes a value. -/
def solutions [DecidableEq A] [DecidableEq κ] (term : ι → κ → A) (value : A) : Finset (ι → κ) :=
  Finset.univ.filter fun u => ∑ j, term j (u j) = value

omit [Fintype κ] in
/-- A solution is determined by the coordinates other than one with an injective term. -/
theorem eq_of_agree {term : ι → κ → A} {value : A} {i : ι} (hinjective : Function.Injective (term i))
    {u v : ι → κ} (hu : ∑ j, term j (u j) = value) (hv : ∑ j, term j (v j) = value)
    (h : ∀ j, j ≠ i → u j = v j) : u = v := by
  have hothers : ∑ j ∈ Finset.univ.erase i, term j (u j) =
      ∑ j ∈ Finset.univ.erase i, term j (v j) := by
    refine Finset.sum_congr rfl fun j hj => ?_
    rw [h j (Finset.ne_of_mem_erase hj)]
  have hterm : term i (u i) = term i (v i) := by
    rw [← Finset.add_sum_erase _ _ (Finset.mem_univ i)] at hu hv
    rw [hothers] at hu
    exact add_right_cancel (hu.trans hv.symm)
  funext j
  by_cases hj : j = i
  · rw [hj]
    exact hinjective hterm
  · exact h j hj

/-- There are at most as many solutions as choices of the other coordinates. -/
theorem card_solutions_le [DecidableEq A] [DecidableEq κ] {term : ι → κ → A} (value : A) {i : ι}
    (hinjective : Function.Injective (term i)) :
    (solutions term value).card ≤ Fintype.card κ ^ (Fintype.card ι - 1) := by
  have hcard : Fintype.card ({j // j ≠ i} → κ) = Fintype.card κ ^ (Fintype.card ι - 1) := by
    rw [Fintype.card_fun, Fintype.card_subtype_compl, Fintype.card_subtype_eq]
  rw [← hcard, ← Finset.card_univ]
  refine Finset.card_le_card_of_injOn (fun u j => u j) (fun u _ => Finset.mem_coe.mpr
    (Finset.mem_univ _)) ?_
  intro u hu v hv h
  have hu' := (Finset.mem_filter.mp hu).2
  have hv' := (Finset.mem_filter.mp hv).2
  exact eq_of_agree hinjective hu' hv' fun j hj => congrFun h ⟨j, hj⟩

end LinearCount
