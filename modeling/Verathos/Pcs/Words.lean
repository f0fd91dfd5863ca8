import Verathos.Pcs.Compiled

/-!
# Word arithmetic, search and sorting of the compiled verifier

The word operations compute in the field: `glc_add` and `glc_sub` on canonical words, `glc_mul`
and `glc_pow` on all words. `bsearch_idx` finds an entry of a strictly increasing array, and the
insertion sort of distinct keys is the sorted list of their set.
-/

namespace Verathos.Pcs.Compiled

/-! ## Words -/

/-- A canonical word. -/
def IsWord (w : ℕ) : Prop := w < glP

theorem glP_eq : glP = 18446744069414584321 := goldilocksModulus_eq

theorem glP_pos : 0 < glP := by
  rw [glP_eq]
  norm_num

theorem IsWord.canonical {w : ℕ} (h : IsWord w) : Canonical (w : ℤ) :=
  ⟨Int.natCast_nonneg _, Int.ofNat_lt.mpr h⟩

theorem isWord_toNat {value : ℤ} (h : Canonical value) : IsWord value.toNat := by
  have := h.1
  have := h.2
  rw [IsWord, glP]
  omega

theorem natCast_toNat {value : ℤ} (h : 0 ≤ value) : ((value.toNat : ℕ) : F) = (value : F) := by
  rw [← Int.cast_natCast, Int.toNat_of_nonneg h]

variable {a b : ℕ}

theorem IsWord.ext (ha : IsWord a) (hb : IsWord b) (h : (a : F) = b) : a = b := by
  have := ha.canonical.ext hb.canonical (by exact_mod_cast h)
  exact_mod_cast this

theorem glP_cast : (glP : F) = 0 := ZMod.natCast_self goldilocksModulus

theorem glcAdd_spec (ha : IsWord a) (hb : IsWord b) :
    IsWord (glcAdd a b) ∧ (glcAdd a b : F) = a + b := by
  have hp := glP_eq
  simp only [IsWord] at ha hb ⊢
  simp only [glcAdd]
  split_ifs with h
  · have hlt : a + b - glP < 2 ^ 64 := by omega
    rw [Nat.mod_eq_of_lt hlt]
    refine ⟨by omega, ?_⟩
    rw [Nat.cast_sub h, glP_cast, sub_zero, Nat.cast_add]
  · have hlt : a + b < 2 ^ 64 := by omega
    rw [Nat.mod_eq_of_lt hlt]
    exact ⟨by omega, Nat.cast_add a b⟩

theorem glcSub_spec (ha : IsWord a) (hb : IsWord b) :
    IsWord (glcSub a b) ∧ (glcSub a b : F) = a - b := by
  have hp := glP_eq
  simp only [IsWord] at ha hb ⊢
  rw [glcSub]
  split_ifs with h
  · exact ⟨by omega, Nat.cast_sub h⟩
  · have hmod : (a + glP + 2 ^ 128 - b) % 2 ^ 128 % 2 ^ 64 = a + glP - b := by
      rw [show a + glP + 2 ^ 128 - b = a + glP - b + 2 ^ 128 by omega, Nat.add_mod_right,
        Nat.mod_eq_of_lt (by omega), Nat.mod_eq_of_lt (by omega)]
    rw [hmod]
    refine ⟨by omega, ?_⟩
    rw [Nat.cast_sub (by omega), Nat.cast_add, glP_cast, add_zero]

theorem reduceLoop_eq (r : ℕ) : reduceLoop r = r % glP := by
  induction r using Nat.strong_induction_on with
  | _ r ih =>
    rw [reduceLoop]
    split_ifs with h
    · rw [ih (r - glP) (by have := glP_pos; omega), ← Nat.mod_eq_sub_mod h]
    · rw [Nat.mod_eq_of_lt (by omega)]

theorem glcMul_spec (ha : a < 2 ^ 64) (hb : b < 2 ^ 64) :
    IsWord (glcMul a b) ∧ (glcMul a b : F) = a * b := by
  have hp := glP_eq
  have hx : a * b < 2 ^ 128 := by
    calc a * b ≤ (2 ^ 64 - 1) * (2 ^ 64 - 1) := Nat.mul_le_mul (by omega) (by omega)
      _ < 2 ^ 128 := by norm_num
  simp only [glcMul]
  rw [Nat.mod_eq_of_lt hx, reduceLoop_eq]
  set x := a * b with hxdef
  set lo := x % 2 ^ 64 with hlo
  have hhi : x >>> 64 % 2 ^ 64 = x / 2 ^ 64 := by
    rw [Nat.shiftRight_eq_div_pow, Nat.mod_eq_of_lt (by omega)]
  rw [hhi]
  set hi := x / 2 ^ 64 with hhidef
  have hhiHi : hi >>> 32 = hi / 2 ^ 32 := Nat.shiftRight_eq_div_pow _ _
  have hhiLo : hi &&& 0xFFFFFFFF = hi % 2 ^ 32 := Nat.and_two_pow_sub_one_eq_mod hi 32
  rw [hhiHi, hhiLo]
  have hlolt : lo < 2 ^ 64 := Nat.mod_lt _ (by norm_num)
  have hhilt : hi < 2 ^ 64 := by omega
  set hiHi := hi / 2 ^ 32 with hhiHidef
  set hiLo := hi % 2 ^ 32 with hhiLodef
  have hhiHilt : hiHi < 2 ^ 32 := by omega
  set t := if lo ≥ hiHi then lo - hiHi else (lo + glP - hiHi) % 2 ^ 64 with ht
  have htcast : (t : F) = lo - hiHi := by
    rw [ht]
    split_ifs with h
    · exact Nat.cast_sub h
    · rw [Nat.mod_eq_of_lt (by omega), Nat.cast_sub (by omega), Nat.cast_add, glP_cast, add_zero]
  have hmodlt : (t + hiLo * 0xFFFFFFFF) % glP < glP := Nat.mod_lt _ glP_pos
  rw [Nat.mod_eq_of_lt (show (t + hiLo * 0xFFFFFFFF) % glP < 2 ^ 64 by omega)]
  refine ⟨hmodlt, ?_⟩
  have hsplit : x = hiHi * 2 ^ 96 + hiLo * 2 ^ 64 + lo := by omega
  have hpzero : (18446744069414584321 : F) = 0 := by
    have := glP_cast
    rw [glP_eq] at this
    exact_mod_cast this
  have hcast : ((t + hiLo * 0xFFFFFFFF) % glP : ℕ) = ((t + hiLo * 0xFFFFFFFF : ℕ) : F) :=
    ZMod.natCast_mod _ goldilocksModulus
  rw [hcast, ← Nat.cast_mul, ← hxdef, hsplit]
  push_cast
  rw [htcast]
  linear_combination (-(hiHi : F) * (2 ^ 32 + 1) - (hiLo : F)) * hpzero

theorem IsWord.lt {w : ℕ} (h : IsWord w) : w < 2 ^ 64 := by
  have := glP_eq
  simp only [IsWord] at h
  omega

theorem glcPowLoop_spec (exp : ℕ) {result base : ℕ} (hresult : IsWord result)
    (hbase : base < 2 ^ 64) :
    IsWord (glcPowLoop result base exp) ∧
      (glcPowLoop result base exp : F) = result * (base : F) ^ exp := by
  induction exp using Nat.strong_induction_on generalizing result base with
  | _ exp ih =>
    rw [glcPowLoop]
    split_ifs with hzero hodd
    · subst hzero
      exact ⟨hresult, by simp⟩
    · obtain ⟨hprod, hprodCast⟩ := glcMul_spec hresult.lt hbase
      obtain ⟨hsq, hsqCast⟩ := glcMul_spec hbase hbase
      obtain ⟨hword, hcast⟩ := ih (exp >>> 1) (by rw [Nat.shiftRight_one]; omega) hprod hsq.lt
      refine ⟨hword, ?_⟩
      rw [Nat.and_one_is_mod] at hodd
      rw [hcast, hprodCast, hsqCast, Nat.shiftRight_one, ← pow_two, ← pow_mul, mul_assoc,
        ← pow_succ']
      congr 2
      omega
    · obtain ⟨hsq, hsqCast⟩ := glcMul_spec hbase hbase
      obtain ⟨hword, hcast⟩ := ih (exp >>> 1) (by rw [Nat.shiftRight_one]; omega) hresult hsq.lt
      refine ⟨hword, ?_⟩
      rw [Nat.and_one_is_mod] at hodd
      rw [hcast, hsqCast, Nat.shiftRight_one, ← pow_two, ← pow_mul]
      congr 2
      omega

theorem glcPow_spec {base : ℕ} (hbase : base < 2 ^ 64) (exp : ℕ) :
    IsWord (glcPow base exp) ∧ (glcPow base exp : F) = (base : F) ^ exp := by
  have hone : IsWord 1 := by
    rw [IsWord, glP_eq]
    norm_num
  obtain ⟨hword, hcast⟩ := glcPowLoop_spec exp hone hbase
  exact ⟨hword, by rw [glcPow, hcast, Nat.cast_one, one_mul]⟩

theorem isWord_glcInv2 : IsWord glcInv2 := by
  rw [IsWord, glP_eq, glcInv2]
  norm_num

theorem glcInv2_cast : (glcInv2 : F) = (inv2 : F) := by
  have h : (glcInv2 : ℤ) = inv2 := by decide +kernel
  exact_mod_cast congrArg (Int.cast : ℤ → F) h

/-! ## Binary search -/

theorem bsearchLoop_eq_some {arr : List ℕ} (hsorted : arr.Pairwise (· < ·)) {key lo hi k : ℕ}
    (hhi : hi ≤ arr.length) (hlo : lo ≤ k) (hk : k < hi) (hkey : arr[k]? = some key) :
    bsearchLoop arr key lo hi = some k := by
  have hget : ∀ i (hi : i < arr.length), arr.getD i 0 = arr[i] := fun i hi =>
    List.getD_eq_getElem _ _ hi
  have hlt : ∀ i j (hi : i < arr.length) (hj : j < arr.length), i < j → arr[i] < arr[j] :=
    fun i j hi hj hij => List.pairwise_iff_getElem.mp hsorted i j hi hj hij
  obtain ⟨hklt, hkeq⟩ := List.getElem?_eq_some_iff.mp hkey
  fun_induction bsearchLoop arr key lo hi with
  | case1 lo hi hlohi mid hmid =>
    rw [hget mid (by omega)] at hmid
    rcases Nat.lt_trichotomy mid k with h | h | h
    · have := hlt mid k (by omega) hklt h
      omega
    · rw [h]
    · have := hlt k mid hklt (by omega) h
      omega
  | case2 lo hi hlohi mid hmid hless ih =>
    rw [hget mid (by omega)] at hless
    refine ih hhi ?_ hk
    by_contra hle
    rcases Nat.eq_or_lt_of_le (show k ≤ mid by omega) with h | h
    · subst h
      omega
    · have := hlt k mid hklt (by omega) h
      omega
  | case3 lo hi hlohi mid hmid hless ih =>
    rw [hget mid (by omega)] at hless hmid
    refine ih (by omega) hlo ?_
    by_contra hle
    rcases Nat.eq_or_lt_of_le (show mid ≤ k by omega) with h | h
    · subst h
      omega
    · have := hlt mid k (by omega) hklt h
      omega
  | case4 lo hi hlohi => omega

theorem bsearchIdx_eq_some {arr : List ℕ} (hsorted : arr.Pairwise (· < ·)) {key k : ℕ}
    (hkey : arr[k]? = some key) : bsearchIdx arr key = some k :=
  bsearchLoop_eq_some hsorted le_rfl (Nat.zero_le k) (List.getElem?_eq_some_iff.mp hkey).1 hkey

/-! ## Insertion sort -/

theorem insertKey_perm (key : ℕ) (keys : List ℕ) : (insertKey key keys).Perm (key :: keys) := by
  induction keys with
  | nil => exact .refl _
  | cons last rest ih =>
    rw [insertKey]
    split_ifs
    · exact (ih.cons last).trans (.swap key last rest)
    · exact .refl _

theorem insertKey_sorted (key : ℕ) {keys : List ℕ} (h : keys.Pairwise (· ≥ ·)) :
    (insertKey key keys).Pairwise (· ≥ ·) := by
  induction keys with
  | nil => exact List.pairwise_singleton _ _
  | cons last rest ih =>
    obtain ⟨hlast, hrest⟩ := List.pairwise_cons.mp h
    rw [insertKey]
    split_ifs with hgt
    · refine List.pairwise_cons.mpr ⟨fun a ha => ?_, ih hrest⟩
      rcases List.mem_cons.mp ((insertKey_perm key rest).mem_iff.mp ha) with rfl | ha
      · omega
      · exact hlast a ha
    · refine List.pairwise_cons.mpr ⟨fun a ha => ?_, h⟩
      rcases List.mem_cons.mp ha with rfl | ha
      · omega
      · have := hlast a ha
        omega

theorem insertionSort_eq {keys : List ℕ} (hnodup : keys.Nodup) :
    insertionSort keys = keys.toFinset.sort := by
  have hloop : ∀ (rest sorted : List ℕ), sorted.Pairwise (· ≤ ·) →
      (rest.foldl (fun sorted key => (insertKey key sorted.reverse).reverse) sorted).Pairwise
        (· ≤ ·) ∧
      (rest.foldl (fun sorted key => (insertKey key sorted.reverse).reverse) sorted).Perm
        (sorted ++ rest) := by
    intro rest
    induction rest with
    | nil => exact fun sorted h => ⟨h, by simp⟩
    | cons key rest ih =>
      intro sorted h
      have hnext : (insertKey key sorted.reverse).reverse.Pairwise (· ≤ ·) :=
        List.pairwise_reverse.mpr (insertKey_sorted key (List.pairwise_reverse.mpr h))
      obtain ⟨hsorted, hperm⟩ := ih _ hnext
      refine ⟨hsorted, hperm.trans ?_⟩
      have hinsert : (insertKey key sorted.reverse).reverse.Perm (sorted ++ [key]) :=
        (List.reverse_perm _).trans ((insertKey_perm key _).trans
          (((List.reverse_perm sorted).cons key).trans (List.perm_append_singleton key sorted).symm))
      calc (insertKey key sorted.reverse).reverse ++ rest
          |>.Perm ((sorted ++ [key]) ++ rest) := hinsert.append_right rest
        _ = sorted ++ key :: rest := by simp
  obtain ⟨hsorted, hperm⟩ := hloop keys [] List.Pairwise.nil
  rw [List.nil_append] at hperm
  rw [← List.toFinset_eq_of_perm _ _ hperm]
  exact ((List.toFinset_sort (· ≤ ·) (hperm.nodup_iff.mpr hnodup)).mpr hsorted).symm

end Verathos.Pcs.Compiled
