import Mathlib.Tactic
import Mathlib.Algebra.Polynomial.Roots

/-!
# Sums of simple fractions

A sum `∑ m / (β + x)` over a list of terms `(m, x)` is a rational function of `β` with simple poles.
It is determined by its residues: if it vanishes at more points than it has terms, every residue is
zero (`residue_eq_zero`).
-/

namespace PartialFractions

open Polynomial

variable {K : Type*} [Field K]

/-- The sum `∑ m / (β + x)` over the terms `(m, x)`. -/
def poleSum (β : K) (terms : List (K × K)) : K :=
  (terms.map fun term => term.1 / (β + term.2)).sum

variable (β : K)

@[simp]
theorem poleSum_nil : poleSum β [] = 0 := rfl

@[simp]
theorem poleSum_cons (term : K × K) (terms : List (K × K)) :
    poleSum β (term :: terms) = term.1 / (β + term.2) + poleSum β terms := by
  simp [poleSum]

@[simp]
theorem poleSum_append (left right : List (K × K)) :
    poleSum β (left ++ right) = poleSum β left + poleSum β right := by
  simp [poleSum]

theorem poleSum_neg (terms : List (K × K)) :
    poleSum β (terms.map fun term => (-term.1, term.2)) = -poleSum β terms := by
  induction terms with
  | nil => simp
  | cons term terms ih =>
    rw [List.map_cons, poleSum_cons, poleSum_cons, ih]
    ring

variable [DecidableEq K]

/-- The residue at `-a`: the numerators of the terms at `a`. -/
def residue (a : K) (terms : List (K × K)) : K :=
  (terms.map fun term => if term.2 = a then term.1 else 0).sum

@[simp]
theorem residue_nil (a : K) : residue a [] = 0 := rfl

@[simp]
theorem residue_cons (a : K) (term : K × K) (terms : List (K × K)) :
    residue a (term :: terms) = (if term.2 = a then term.1 else 0) + residue a terms := by
  simp [residue]

@[simp]
theorem residue_append (a : K) (left right : List (K × K)) :
    residue a (left ++ right) = residue a left + residue a right := by
  simp [residue]

variable {terms : List (K × K)}

theorem residue_of_not_mem {a : K} (h : ∀ term ∈ terms, term.2 ≠ a) : residue a terms = 0 := by
  induction terms with
  | nil => rfl
  | cons term terms ih =>
    obtain ⟨hterm, hterms⟩ := List.forall_mem_cons.mp h
    rw [residue_cons, if_neg hterm, ih hterms, add_zero]

theorem residue_map_one (a : K) (values : List K) :
    residue a (values.map fun x => (1, x)) = values.count a := by
  induction values with
  | nil => simp
  | cons x values ih =>
    rw [List.map_cons, residue_cons, ih, List.count_cons, Nat.cast_add, add_comm]
    simp

variable {S : Finset K}

theorem poleSum_eq_sum_residue (hS : ∀ term ∈ terms, term.2 ∈ S) :
    poleSum β terms = ∑ a ∈ S, residue a terms / (β + a) := by
  induction terms with
  | nil => simp
  | cons term terms ih =>
    obtain ⟨hterm, hterms⟩ := List.forall_mem_cons.mp hS
    simp only [poleSum_cons, residue_cons, add_div, Finset.sum_add_distrib, ih hterms]
    congr 1
    rw [Finset.sum_eq_single_of_mem term.2 hterm fun a _ ha => by rw [if_neg ha.symm, zero_div],
      if_pos rfl]

/-- The numerator of `∑ c a / (X + a)` over the common denominator. -/
noncomputable def numerator (S : Finset K) (c : K → K) : K[X] :=
  ∑ a ∈ S, C (c a) * ∏ b ∈ S.erase a, (X + C b)

theorem natDegree_numerator_lt (hS : S.Nonempty) (c : K → K) :
    (numerator S c).natDegree < S.card := by
  have hle : (numerator S c).natDegree ≤ S.card - 1 := by
    refine natDegree_sum_le_of_forall_le _ _ fun a ha => ?_
    refine (natDegree_C_mul_le _ _).trans ((natDegree_prod_le _ _).trans ?_)
    simp [Finset.card_erase_of_mem ha]
  have := hS.card_pos
  omega

theorem eval_numerator {β : K} (hβ : ∀ a ∈ S, β + a ≠ 0) (c : K → K) :
    (numerator S c).eval β = (∑ a ∈ S, c a / (β + a)) * ∏ b ∈ S, (β + b) := by
  rw [numerator, eval_finsetSum, Finset.sum_mul]
  refine Finset.sum_congr rfl fun a ha => ?_
  have h := hβ a ha
  rw [← Finset.mul_prod_erase S _ ha, eval_mul, eval_C, eval_prod]
  simp only [eval_add, eval_X, eval_C]
  field_simp

/-- The numerator at a pole keeps the term of that pole only. -/
theorem eval_numerator_neg {a : K} (ha : a ∈ S) (c : K → K) :
    (numerator S c).eval (-a) = c a * ∏ b ∈ S.erase a, (-a + b) := by
  rw [numerator, eval_finsetSum, Finset.sum_eq_single_of_mem a ha]
  · simp [eval_prod]
  · intro b _ hba
    have hmem : a ∈ S.erase b := Finset.mem_erase.mpr ⟨hba.symm, ha⟩
    rw [eval_mul, eval_prod, Finset.prod_eq_zero hmem (by simp), mul_zero]

theorem residue_eq_zero {B : Finset K} (hcard : terms.length < B.card)
    (hpole : ∀ β ∈ B, ∀ term ∈ terms, β + term.2 ≠ 0) (hzero : ∀ β ∈ B, poleSum β terms = 0) (a : K) :
    residue a terms = 0 := by
  set S := (terms.map Prod.snd).toFinset with hS
  have hmem : ∀ term ∈ terms, term.2 ∈ S := fun term hterm =>
    List.mem_toFinset.mpr (List.mem_map_of_mem hterm)
  by_cases ha : a ∈ S
  · have hSB : S.card < B.card :=
      ((List.toFinset_card_le _).trans (List.length_map _).le).trans_lt hcard
    have hpoleS : ∀ β ∈ B, ∀ b ∈ S, β + b ≠ 0 := by
      intro β hβ b hb
      obtain ⟨term, hterm, rfl⟩ := List.mem_map.mp (List.mem_toFinset.mp hb)
      exact hpole β hβ term hterm
    -- the numerator has more roots than its degree
    have hnumerator : numerator S (residue · terms) = 0 := by
      refine eq_zero_of_natDegree_lt_card_of_eval_eq_zero' _ B (fun β hβ => ?_)
        ((natDegree_numerator_lt ⟨a, ha⟩ _).trans hSB)
      rw [eval_numerator (hpoleS β hβ), ← poleSum_eq_sum_residue β hmem, hzero β hβ, zero_mul]
    have heval := eval_numerator_neg ha (residue · terms)
    rw [hnumerator, eval_zero, eq_comm, mul_eq_zero] at heval
    refine heval.resolve_right (Finset.prod_ne_zero_iff.mpr fun b hb => ?_)
    rw [neg_add_eq_sub, sub_ne_zero]
    exact (Finset.mem_erase.mp hb).1
  · refine residue_of_not_mem fun term hterm h => ha ?_
    rw [← h]
    exact hmem term hterm

end PartialFractions
