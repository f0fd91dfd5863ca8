import Verathos.Lib.Multilinear

/-!
# Folding a codeword on a coset

A codeword on the coset `s * w ^ i` of `2 * half` points, where `w ^ half = -1`, is folded to half
its length: the entries at `i` and `i + half` belong to a point and its negative, and they give the
even and the odd part at the square of the point.

* `cosetFold_evalPoly`: folding the values of a polynomial gives the values, on the squared coset, of
  its even part plus the challenge times its odd part. The degree bound is halved.
* `FoldChain.evalPoly`: repeated folding keeps the values of polynomials, and after as many folds as
  the degree bound has bits the word is constant (`FoldChain.const`).
-/

namespace CosetFold

open Multilinear

variable {K : Type*} [Field K] {half m : ℕ} {s w c : K}

local instance atLeastTwo : Nat.AtLeastTwo 2 := ⟨le_rfl⟩

/-- The folded word. -/
def cosetFold (half : ℕ) (s w c : K) (u : ℕ → K) (i : ℕ) : K :=
  (u i + u (i + half)) * 2⁻¹ + c * ((u i - u (i + half)) * 2⁻¹ * (s * w ^ i)⁻¹)

/-- The coefficients of the even part plus `c` times the odd part. -/
def evenOdd (c : K) (v : ℕ → K) (j : ℕ) : K := v (2 * j) + c * v (2 * j + 1)

theorem evalPoly_evenOdd (m : ℕ) (c : K) (v : ℕ → K) (x : K) :
    evalPoly m (evenOdd c v) x =
      evalPoly m (fun j => v (2 * j)) x + c * evalPoly m (fun j => v (2 * j + 1)) x := by
  simp only [evalPoly, evenOdd, Finset.mul_sum, ← Finset.sum_add_distrib]
  refine Finset.sum_congr rfl fun j _ => ?_
  ring

theorem cosetFold_evalPoly (htwo : (2 : K) ≠ 0) (hs : s ≠ 0) (hw : w ^ half = -1) {u v : ℕ → K}
    (hu : ∀ i < 2 * half, u i = evalPoly (2 * m) v (s * w ^ i)) {i : ℕ} (hi : i < half) :
    cosetFold half s w c u i = evalPoly m (evenOdd c v) (s ^ 2 * (w ^ 2) ^ i) := by
  have hne : w ≠ 0 := by
    rintro rfl
    rw [zero_pow (by omega)] at hw
    exact one_ne_zero (neg_eq_zero.mp hw.symm)
  have hx : s * w ^ i ≠ 0 := mul_ne_zero hs (pow_ne_zero i hne)
  -- the partner of a point is its negative
  have hneg : s * w ^ (i + half) = -(s * w ^ i) := by rw [pow_add, hw]; ring
  have hsq : s ^ 2 * (w ^ 2) ^ i = (s * w ^ i) ^ 2 := by ring
  rw [cosetFold, hu i (by omega), hu (i + half) (by omega), hneg, hsq, evalPoly_two_mul,
    evalPoly_two_mul, neg_sq, evalPoly_evenOdd]
  generalize evalPoly m (fun j => v (2 * j)) ((s * w ^ i) ^ 2) = even
  generalize evalPoly m (fun j => v (2 * j + 1)) ((s * w ^ i) ^ 2) = odd
  field_simp
  ring

/-- A word folded `rounds` times: the word `u 0` on the coset `s * w 0 ^ i` of `2 ^ n` points, and
every further word from the one before, on the squared coset, with the challenge `c`. -/
structure FoldChain (n rounds : ℕ) (s : K) (w c : ℕ → K) (u : ℕ → ℕ → K) : Prop where
  rounds_le : rounds ≤ n
  two_ne_zero : (2 : K) ≠ 0
  shift_ne_zero : s ≠ 0
  root_pow : ∀ r < rounds, w r ^ 2 ^ (n - r - 1) = -1
  root_sq : ∀ r < rounds, w r ^ 2 = w (r + 1)
  fold : ∀ r < rounds, ∀ i < 2 ^ (n - r - 1),
    u (r + 1) i = cosetFold (2 ^ (n - r - 1)) (s ^ 2 ^ r) (w r) (c r) (u r) i

namespace FoldChain

variable {n rounds : ℕ} {w c : ℕ → K} {u : ℕ → ℕ → K}

theorem evalPoly (h : FoldChain n rounds s w c u) {v : ℕ → K}
    (hu : ∀ i < 2 ^ n, u 0 i = Multilinear.evalPoly (2 ^ rounds) v (s * w 0 ^ i)) {r : ℕ}
    (hr : r ≤ rounds) :
    ∃ v', ∀ i < 2 ^ (n - r),
      u r i = Multilinear.evalPoly (2 ^ (rounds - r)) v' (s ^ 2 ^ r * w r ^ i) := by
  induction r with
  | zero => exact ⟨v, by simpa using hu⟩
  | succ r ih =>
    obtain ⟨v', hv'⟩ := ih (by omega)
    have hlt : r < rounds := hr
    have hle := h.rounds_le
    have hsize : 2 ^ (n - r) = 2 * 2 ^ (n - r - 1) := by
      rw [← pow_succ', show n - r - 1 + 1 = n - r by omega]
    have hdegree : 2 ^ (rounds - r) = 2 * 2 ^ (rounds - (r + 1)) := by
      rw [← pow_succ', show rounds - (r + 1) + 1 = rounds - r by omega]
    rw [hsize, hdegree] at hv'
    refine ⟨evenOdd (c r) v', fun i hi => ?_⟩
    rw [← Nat.sub_sub] at hi
    rw [h.fold r hlt i hi, cosetFold_evalPoly h.two_ne_zero (pow_ne_zero _ h.shift_ne_zero)
      (h.root_pow r hlt) hv' hi, h.root_sq r hlt, ← pow_mul, ← pow_succ]

theorem const (h : FoldChain n rounds s w c u) {v : ℕ → K}
    (hu : ∀ i < 2 ^ n, u 0 i = Multilinear.evalPoly (2 ^ rounds) v (s * w 0 ^ i)) :
    ∃ a, ∀ i < 2 ^ (n - rounds), u rounds i = a := by
  obtain ⟨v', hv'⟩ := h.evalPoly hu le_rfl
  refine ⟨v' 0, fun i hi => ?_⟩
  rw [hv' i hi, Nat.sub_self, pow_zero, Multilinear.evalPoly, Finset.sum_range_one, pow_zero, mul_one]

end FoldChain

end CosetFold
