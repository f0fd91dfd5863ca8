import Mathlib.Data.List.GetD
import Verathos.Lib.StableSort

/-!
# Medians

The median of a list is the middle one of its sorted values, or the mean of the two middle ones.

* `median_perm`: the order of the values does not matter;
* `median_flatten_replicate`: nor does a repetition of all of them;
* `median_between`: one value among three or more cannot move the median out of the range of the
  others.
-/

namespace Median

open StableSort

variable {K : Type*} [Field K] [LinearOrder K] [IsStrictOrderedRing K]

local instance atLeastTwo : Nat.AtLeastTwo 2 := ⟨le_rfl⟩

/-- The middle value, the mean of the two middle values, or zero without values. -/
def median (values : List K) : K :=
  let sorted := sortBy id values
  let n := values.length
  if n = 0 then 0
  else if n % 2 = 1 then sorted.getD (n / 2) 0
  else (sorted.getD (n / 2 - 1) 0 + sorted.getD (n / 2) 0) / 2

omit [Field K] [IsStrictOrderedRing K] in
/-- The sorted values are the only arrangement in order. -/
theorem sortBy_id_eq {values sorted : List K} (hperm : values.Perm sorted)
    (hsorted : sorted.Pairwise (· ≤ ·)) : sortBy id values = sorted := by
  have h := map_key_sortBy id (hperm.map id)
  rwa [List.map_id, List.map_id, sortBy_of_pairwise id hsorted] at h

omit [IsStrictOrderedRing K] in
theorem median_perm {values values' : List K} (h : values.Perm values') :
    median values = median values' := by
  have hsorted : sortBy id values = sortBy id values' :=
    sortBy_id_eq (h.trans (sortBy_perm id values').symm) (pairwise_sortBy id values')
  simp only [median, hsorted, h.length_eq]

/-! ## Repetition -/

omit [Field K] [LinearOrder K] [IsStrictOrderedRing K] in
theorem flatten_replicate_perm (k : ℕ) (values : List K) :
    (List.replicate k values).flatten.Perm (values.flatMap (List.replicate k)) := by
  induction k with
  | zero =>
    have hempty : values.flatMap (List.replicate 0) = [] :=
      List.flatMap_eq_nil_iff.mpr fun _ _ => rfl
    rw [List.replicate_zero, List.flatten_nil, hempty]
  | succ k ih =>
    have hsplit : (values.flatMap (List.replicate (k + 1))) =
        values.flatMap fun value => [value] ++ List.replicate k value := rfl
    rw [List.replicate_succ, List.flatten_cons, hsplit]
    refine List.Perm.trans ?_ (List.flatMap_append_perm values _ _)
    rw [List.flatMap_singleton']
    exact ih.append_left values

omit [LinearOrder K] [IsStrictOrderedRing K] in
theorem getD_flatMap_replicate {k : ℕ} (hk : 0 < k) (values : List K) (j : ℕ) :
    (values.flatMap (List.replicate k)).getD j 0 = values.getD (j / k) 0 := by
  induction values generalizing j with
  | nil => rfl
  | cons value values ih =>
    rw [List.flatMap_cons]
    rcases lt_or_ge j k with hj | hj
    · rw [List.getD_append _ _ _ _ (by rwa [List.length_replicate]), Nat.div_eq_of_lt hj,
        List.getD_replicate _ hj, List.getD_cons_zero]
    · rw [List.getD_append_right _ _ _ _ (by rwa [List.length_replicate]), List.length_replicate, ih,
        ← Nat.sub_add_cancel hj, Nat.add_div_right _ hk, List.getD_cons_succ,
        Nat.add_sub_cancel]

theorem median_flatten_replicate {k : ℕ} (hk : 0 < k) (values : List K) :
    median (List.replicate k values).flatten = median values := by
  have hsorted : sortBy id (values.flatMap (List.replicate k)) =
      (sortBy id values).flatMap (List.replicate k) := by
    refine sortBy_id_eq ((sortBy_perm id values).symm.flatMap_right _) ?_
    rw [List.pairwise_flatMap]
    refine ⟨fun value _ => List.pairwise_replicate_of_refl, ?_⟩
    refine (pairwise_sortBy id values).imp fun hle a ha b hb => ?_
    rw [List.eq_of_mem_replicate ha, List.eq_of_mem_replicate hb]
    exact hle
  have hlength : (values.flatMap (List.replicate k)).length = values.length * k := by
    simp [List.length_flatMap]
  rw [median_perm (flatten_replicate_perm k values)]
  simp only [median, hsorted, hlength, getD_flatMap_replicate hk]
  -- the middle of the copies is a copy of the middle
  obtain ⟨m, hm | hm⟩ := Nat.even_or_odd' values.length
  · rw [hm]
    rcases Nat.eq_zero_or_pos m with rfl | hpos
    · simp
    · have hmiddle : 2 * m * k / 2 = m * k := by rw [mul_assoc, Nat.mul_div_cancel_left _ two_pos]
      have hbefore : (m * k - 1) / k = m - 1 := by
        obtain ⟨m, rfl⟩ := Nat.exists_eq_add_of_le' hpos
        rw [Nat.div_eq_iff hk]
        constructor <;> rw [Nat.add_mul, Nat.add_sub_cancel] <;> omega
      have hne : ¬ 2 * m * k = 0 := by positivity
      have heven : ¬ 2 * m * k % 2 = 1 := by rw [mul_assoc, Nat.mul_mod_right]; omega
      have hne' : ¬ 2 * m = 0 := by omega
      have heven' : ¬ 2 * m % 2 = 1 := by omega
      rw [if_neg hne, if_neg heven, if_neg hne', if_neg heven', hmiddle, Nat.mul_div_cancel _ hk,
        hbefore, Nat.mul_div_cancel_left _ two_pos]
  · rw [hm]
    have hne : ¬ (2 * m + 1) * k = 0 := by positivity
    have hne' : ¬ 2 * m + 1 = 0 := by omega
    have hodd' : (2 * m + 1) % 2 = 1 := by omega
    have hhalf' : (2 * m + 1) / 2 = m := by omega
    have hmiddle : (2 * m + 1) * k / 2 / k = m := by
      rw [Nat.div_div_eq_div_mul, Nat.mul_div_mul_right _ _ hk]
      omega
    rw [if_neg hne, if_neg hne', if_pos hodd', hmiddle, hhalf']
    rcases Nat.even_or_odd k with hparity | hparity
    · -- an even number of copies has two middle values, both copies of the middle one
      have heven : ¬ (2 * m + 1) * k % 2 = 1 := by
        rw [Nat.even_iff.mp (hparity.mul_left _)]
        exact zero_ne_one
      have hbefore : ((2 * m + 1) * k / 2 - 1) / k = m := by
        obtain ⟨j, rfl⟩ := hparity
        have hhalf : (2 * m + 1) * (j + j) / 2 = m * (j + j) + j := by
          rw [← two_mul, ← mul_assoc, mul_comm (2 * m + 1) 2, mul_assoc,
            Nat.mul_div_cancel_left _ two_pos]
          ring
        rw [hhalf, Nat.div_eq_iff hk]
        constructor <;> omega
      rw [if_neg heven, hbefore, add_self_div_two]
    · have hodd : (2 * m + 1) * k % 2 = 1 :=
        Nat.odd_iff.mp (Odd.mul (odd_two_mul_add_one m) hparity)
      rw [if_pos hodd]

/-! ## One value among others -/

omit [Field K] [IsStrictOrderedRing K] in
/-- A bound that at most `m` values exceed holds of all but the last `m` sorted values. -/
theorem getElem_sortBy_le {values : List K} {bound : K} {i m : ℕ}
    (hcount : values.countP (fun value => bound < value) ≤ m) (hi : i < (sortBy id values).length)
    (hm : i + m < values.length) : (sortBy id values)[i] ≤ bound := by
  by_contra hlt
  have hlength := (sortBy_perm id values).length_eq
  have hall : ∀ value ∈ (sortBy id values).drop i, bound < value := by
    intro value hvalue
    obtain ⟨j, hj, rfl⟩ := List.mem_iff_getElem.mp hvalue
    rw [List.length_drop] at hj
    rw [List.getElem_drop]
    refine lt_of_lt_of_le (not_le.mp hlt) ?_
    exact (pairwise_sortBy id values).rel_get_of_le (a := ⟨i, hi⟩) (b := ⟨i + j, by omega⟩)
      (Nat.le_add_right i j)
  have hdrop := List.countP_eq_length.mpr fun value hvalue => decide_eq_true (hall value hvalue)
  have hle := (List.drop_sublist i (sortBy id values)).countP_le (p := fun value => bound < value)
  rw [hdrop, (sortBy_perm id values).countP_eq, List.length_drop] at hle
  omega

omit [Field K] [IsStrictOrderedRing K] in
/-- A bound that at most `m` values fall short of holds of all but the first `m` sorted values. -/
theorem le_getElem_sortBy {values : List K} {bound : K} {i m : ℕ}
    (hcount : values.countP (fun value => value < bound) ≤ m) (hi : i < (sortBy id values).length)
    (hm : m ≤ i) : bound ≤ (sortBy id values)[i] := by
  by_contra hlt
  have hall : ∀ value ∈ (sortBy id values).take (i + 1), value < bound := by
    intro value hvalue
    obtain ⟨j, hj, rfl⟩ := List.mem_iff_getElem.mp hvalue
    rw [List.length_take] at hj
    rw [List.getElem_take]
    refine lt_of_le_of_lt ?_ (not_le.mp hlt)
    exact (pairwise_sortBy id values).rel_get_of_le (a := ⟨j, by omega⟩) (b := ⟨i, hi⟩)
      (by change j ≤ i; omega)
  have htake := List.countP_eq_length.mpr fun value hvalue => decide_eq_true (hall value hvalue)
  have hle := (List.take_sublist (i + 1) (sortBy id values)).countP_le
    (p := fun value => value < bound)
  rw [htake, (sortBy_perm id values).countP_eq, List.length_take] at hle
  omega

/-- One value among three or more does not move the median out of bounds on the others. -/
theorem median_bounds (value : K) {lower upper : K} {others : List K} (hcount : 2 ≤ others.length)
    (hothers : ∀ other ∈ others, lower ≤ other ∧ other ≤ upper) :
    lower ≤ median (value :: others) ∧ median (value :: others) ≤ upper := by
  have hlength : (sortBy id (value :: others)).length = others.length + 1 :=
    (sortBy_perm id _).length_eq
  have hbelow : (value :: others).countP (fun v => v < lower) ≤ 1 := by
    have hnone : others.countP (fun v => v < lower) = 0 :=
      List.countP_eq_zero.mpr fun other hother => by simpa using (hothers other hother).1
    rw [List.countP_cons, hnone]
    split_ifs <;> omega
  have habove : (value :: others).countP (fun v => upper < v) ≤ 1 := by
    have hnone : others.countP (fun v => upper < v) = 0 :=
      List.countP_eq_zero.mpr fun other hother => by simpa using (hothers other hother).2
    rw [List.countP_cons, hnone]
    split_ifs <;> omega
  have hmiddle : ∀ i, 1 ≤ i → i + 1 < others.length + 1 →
      lower ≤ (sortBy id (value :: others)).getD i 0 ∧
        (sortBy id (value :: others)).getD i 0 ≤ upper := by
    intro i hpos hi
    rw [List.getD_eq_getElem _ _ (by omega)]
    exact ⟨le_getElem_sortBy hbelow _ hpos,
      getElem_sortBy_le habove _ (by rwa [List.length_cons])⟩
  simp only [median, List.length_cons]
  rw [if_neg (Nat.succ_ne_zero _)]
  split_ifs with hodd
  · exact hmiddle _ (by omega) (by omega)
  · obtain ⟨hlow, hhigh⟩ := hmiddle ((others.length + 1) / 2 - 1) (by omega) (by omega)
    obtain ⟨hlow', hhigh'⟩ := hmiddle ((others.length + 1) / 2) (by omega) (by omega)
    constructor <;> linarith

theorem median_between (value : K) {others : List K} (hcount : 2 ≤ others.length) :
    (∃ lower ∈ others, lower ≤ median (value :: others)) ∧
      ∃ upper ∈ others, median (value :: others) ≤ upper := by
  have hne : others.toFinset.Nonempty := by
    rw [List.toFinset_nonempty_iff]
    rintro rfl
    simp at hcount
  obtain ⟨lower, hlower, hmin⟩ := others.toFinset.exists_min_image id hne
  obtain ⟨upper, hupper, hmax⟩ := others.toFinset.exists_max_image id hne
  simp only [List.mem_toFinset, id_eq] at hlower hupper hmin hmax
  obtain ⟨hlow, hhigh⟩ := median_bounds value hcount
    fun other hother => ⟨hmin other hother, hmax other hother⟩
  exact ⟨⟨lower, hlower, hlow⟩, upper, hupper, hhigh⟩

end Median
