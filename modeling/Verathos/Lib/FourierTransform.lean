import Mathlib.LinearAlgebra.Lagrange
import Mathlib.RingTheory.RootsOfUnity.PrimitiveRoots
import Verathos.Lib.Multilinear

/-!
# The discrete Fourier transform

Its fast algorithm (`Radix2`), and its inversion (`Fourier`).
-/

/-!
## Bit reversal and radix-2 butterflies

The mathematics of the in-place fast Fourier transform, over a commutative ring.

* `rev k i` reverses the `k` low-order bits of `i`; it is an involution on `i < 2 ^ k`.
* `Transformed k s root x a` says what `a` holds after `s` of `k` butterfly stages over the
  bit-reversed vector `x`: blocks of `2 ^ s` entries, each the transform of a stride of `x`.
* `transformed_succ` is one stage, and `Transformed.eval` reads the transform off the last one.
-/

namespace Radix2

/-! ## Bit reversal -/

/-- The reversal of the `k` low-order bits. -/
def rev : ℕ → ℕ → ℕ
  | 0, _ => 0
  | k + 1, i => rev k (i / 2) + i % 2 * 2 ^ k

theorem rev_lt (k i : ℕ) : rev k i < 2 ^ k := by
  induction k generalizing i with
  | zero => simp [rev]
  | succ k ih =>
    have hrec := ih (i / 2)
    have hbit : i % 2 * 2 ^ k ≤ 1 * 2 ^ k := Nat.mul_le_mul_right _ (by omega)
    rw [rev, pow_succ]
    omega

@[simp]
theorem rev_zero (k : ℕ) : rev k 0 = 0 := by
  induction k with
  | zero => rfl
  | succ k ih => simp [rev, ih]

theorem rev_two_mul (k b : ℕ) : rev (k + 1) (2 * b) = rev k b := by
  rw [rev, show 2 * b / 2 = b by omega, show 2 * b % 2 = 0 by omega, zero_mul, add_zero]

theorem rev_two_mul_add_one (k b : ℕ) : rev (k + 1) (2 * b + 1) = rev k b + 2 ^ k := by
  rw [rev, show (2 * b + 1) / 2 = b by omega, show (2 * b + 1) % 2 = 1 by omega, one_mul]

variable {k : ℕ}

theorem rev_add_top {i b : ℕ} (hi : i < 2 ^ k) (hb : b < 2) :
    rev (k + 1) (i + b * 2 ^ k) = 2 * rev k i + b := by
  induction k generalizing i with
  | zero =>
    obtain rfl : i = 0 := by simpa using hi
    simp [rev, Nat.mod_eq_of_lt hb]
  | succ k ih =>
    have hhalf : i / 2 < 2 ^ k := by
      rw [pow_succ] at hi
      omega
    have hdiv : (i + b * 2 ^ (k + 1)) / 2 = i / 2 + b * 2 ^ k := by
      rw [pow_succ', show b * (2 * 2 ^ k) = 2 * (b * 2 ^ k) by ring]
      omega
    have hmod : (i + b * 2 ^ (k + 1)) % 2 = i % 2 := by
      rw [pow_succ', show b * (2 * 2 ^ k) = 2 * (b * 2 ^ k) by ring]
      omega
    rw [rev, hdiv, hmod, ih hhalf, rev, pow_succ]
    ring

theorem rev_rev {i : ℕ} (hi : i < 2 ^ k) : rev k (rev k i) = i := by
  induction k generalizing i with
  | zero =>
    obtain rfl : i = 0 := by simpa using hi
    rfl
  | succ k ih =>
    have hhalf : i / 2 < 2 ^ k := by
      rw [pow_succ] at hi
      omega
    have hinner : rev (k + 1) i = rev k (i / 2) + i % 2 * 2 ^ k := rfl
    rw [hinner, rev_add_top (rev_lt k (i / 2)) (Nat.mod_lt i (by norm_num)), ih hhalf]
    omega

/-! ## Butterflies -/

variable {R : Type*} [CommRing R]

/-- After `s` of `k` stages, entry `i` of block `b` is the transform, of length `2 ^ s`, of the
entries of `x` with stride `2 ^ (k - s)` that start at the reversal of `b`. -/
def Transformed (k s : ℕ) (root : R) (x a : ℕ → R) : Prop :=
  ∀ b < 2 ^ (k - s), ∀ i < 2 ^ s,
    a (b * 2 ^ s + i) =
      ∑ m ∈ Finset.range (2 ^ s), x (m * 2 ^ (k - s) + rev (k - s) b) * root ^ (2 ^ (k - s) * (i * m))

variable {x a : ℕ → R}

theorem transformed_zero (root : R) (h : ∀ i < 2 ^ k, a i = x (rev k i)) :
    Transformed k 0 root x a := by
  intro b hb i hi
  obtain rfl : i = 0 := by simpa using hi
  simpa using h b hb

theorem Transformed.eval {root : R} (h : Transformed k k root x a) {i : ℕ} (hi : i < 2 ^ k) :
    a i = ∑ m ∈ Finset.range (2 ^ k), x m * root ^ (i * m) := by
  have := h 0 (by simp) i hi
  simpa [rev] using this

theorem transformed_succ {s : ℕ} {root : R} {a' : ℕ → R} (hs : s < k)
    (hroot : root ^ 2 ^ (k - 1) = -1) (h : Transformed k s root x a)
    (hlow : ∀ b < 2 ^ (k - (s + 1)), ∀ j < 2 ^ s, a' (b * 2 ^ (s + 1) + j) =
      a (b * 2 ^ (s + 1) + j) + root ^ (2 ^ (k - (s + 1)) * j) * a (b * 2 ^ (s + 1) + j + 2 ^ s))
    (hhigh : ∀ b < 2 ^ (k - (s + 1)), ∀ j < 2 ^ s, a' (b * 2 ^ (s + 1) + j + 2 ^ s) =
      a (b * 2 ^ (s + 1) + j) - root ^ (2 ^ (k - (s + 1)) * j) * a (b * 2 ^ (s + 1) + j + 2 ^ s)) :
    Transformed k (s + 1) root x a' := by
  obtain ⟨t, rfl⟩ : ∃ t, k = s + 1 + t := ⟨k - (s + 1), by omega⟩
  simp only [show s + 1 + t - (s + 1) = t by omega] at hlow hhigh
  have hks : s + 1 + t - s = t + 1 := by omega
  have hminus : root ^ (2 ^ t * 2 ^ s) = -1 := by
    rw [← pow_add, show t + s = s + 1 + t - 1 by omega]
    exact hroot
  intro b hb i hi
  rw [show s + 1 + t - (s + 1) = t by omega] at hb ⊢
  -- the two halves of block `b` are the blocks `2 * b` and `2 * b + 1` of the stage before
  have heven : ∀ j < 2 ^ s, a (b * 2 ^ (s + 1) + j) =
      ∑ m ∈ Finset.range (2 ^ s), x (2 * m * 2 ^ t + rev t b) * root ^ (2 ^ t * (j * (2 * m))) := by
    intro j hj
    have hblock := h (2 * b) (by rw [hks, pow_succ]; omega) j hj
    rw [hks, rev_two_mul] at hblock
    rw [pow_succ', show b * (2 * 2 ^ s) = 2 * b * 2 ^ s by ring, hblock]
    refine Finset.sum_congr rfl fun m _ => ?_
    rw [pow_succ, show m * (2 ^ t * 2) = 2 * m * 2 ^ t by ring,
      show 2 ^ t * 2 * (j * m) = 2 ^ t * (j * (2 * m)) by ring]
  have hodd : ∀ j < 2 ^ s, root ^ (2 ^ t * j) * a (b * 2 ^ (s + 1) + j + 2 ^ s) =
      ∑ m ∈ Finset.range (2 ^ s),
        x ((2 * m + 1) * 2 ^ t + rev t b) * root ^ (2 ^ t * (j * (2 * m + 1))) := by
    intro j hj
    have hblock := h (2 * b + 1) (by rw [hks, pow_succ]; omega) j hj
    rw [hks, rev_two_mul_add_one] at hblock
    rw [pow_succ', show b * (2 * 2 ^ s) + j + 2 ^ s = (2 * b + 1) * 2 ^ s + j by ring, hblock,
      Finset.mul_sum]
    refine Finset.sum_congr rfl fun m _ => ?_
    rw [pow_succ, show m * (2 ^ t * 2) + (rev t b + 2 ^ t) = (2 * m + 1) * 2 ^ t + rev t b by ring,
      show 2 ^ t * (j * (2 * m + 1)) = 2 ^ t * j + 2 ^ t * 2 * (j * m) by ring, pow_add]
    ring
  conv_rhs => rw [pow_succ', Multilinear.sum_range_two_mul, Finset.sum_add_distrib]
  rw [pow_succ] at hi
  rcases Nat.lt_or_ge i (2 ^ s) with hlt | hge
  · rw [hlow b hb i hlt, heven i hlt, hodd i hlt]
  · obtain ⟨j, rfl⟩ : ∃ j, i = j + 2 ^ s := ⟨i - 2 ^ s, by omega⟩
    have hj : j < 2 ^ s := by omega
    rw [← Nat.add_assoc, hhigh b hb j hj, heven j hj, hodd j hj, sub_eq_add_neg,
      ← Finset.sum_neg_distrib]
    refine congrArg₂ (· + ·) (Finset.sum_congr rfl fun m _ => ?_) (Finset.sum_congr rfl fun m _ => ?_)
    · rw [show 2 ^ t * ((j + 2 ^ s) * (2 * m)) =
        2 ^ t * (j * (2 * m)) + 2 ^ t * 2 ^ s * (2 * m) by ring, pow_add _ (2 ^ t * (j * (2 * m))),
        pow_mul _ (2 ^ t * 2 ^ s), hminus, pow_mul (-1), neg_one_sq, one_pow, mul_one]
    · rw [show 2 ^ t * ((j + 2 ^ s) * (2 * m + 1)) =
        2 ^ t * (j * (2 * m + 1)) + 2 ^ t * 2 ^ s * (2 * m + 1) by ring,
        pow_add _ (2 ^ t * (j * (2 * m + 1))), pow_mul _ (2 ^ t * 2 ^ s), hminus, pow_succ, pow_mul (-1),
        neg_one_sq, one_pow]
      ring

end Radix2

/-!
## Fourier inversion and interpolation

The discrete Fourier transform of length `n` over a field, for a primitive root of unity `w`.

* `dft_dft`: transforming with `w` and then with its inverse multiplies by `n`.
* `ofCoefficients n c` is the polynomial with the coefficients `c`, of degree less than `n`. It is
  the only one with its values on `n` different points (`eq_of_eval_eq`), such as those of a coset
  `s * w ^ i` (`coset_injOn`).
-/

namespace Fourier

open Polynomial

variable {K : Type*} [Field K] {n : ℕ} {w w' : K}

/-- The discrete Fourier transform of length `n`. -/
def dft (n : ℕ) (w : K) (x : ℕ → K) (i : ℕ) : K := ∑ m ∈ Finset.range n, x m * w ^ (i * m)

theorem dft_congr {x y : ℕ → K} (h : ∀ m < n, x m = y m) (i : ℕ) : dft n w x i = dft n w y i :=
  Finset.sum_congr rfl fun m hm => by rw [h m (Finset.mem_range.mp hm)]

theorem sum_pow_mul_pow (hw : IsPrimitiveRoot w n) (hinv : w * w' = 1) {i j : ℕ} (hi : i < n)
    (hj : j < n) :
    ∑ m ∈ Finset.range n, w ^ (m * j) * w' ^ (i * m) = if j = i then (n : K) else 0 := by
  have hterm : ∀ m, w ^ (m * j) * w' ^ (i * m) = (w ^ j * w' ^ i) ^ m := by
    intro m
    rw [mul_pow, ← pow_mul, ← pow_mul, mul_comm m j]
  simp only [hterm]
  split_ifs with hij
  · subst hij
    rw [← mul_pow, hinv]
    simp
  · have hpow : (w ^ j * w' ^ i) ^ n = 1 := by
      have hw' : w' ^ n = 1 := by
        have hmul := congrArg (· ^ n) hinv
        simpa [mul_pow, hw.pow_eq_one] using hmul
      rw [mul_pow, ← pow_mul, ← pow_mul, mul_comm j, mul_comm i, pow_mul, pow_mul, hw.pow_eq_one,
        hw', one_pow, one_pow, one_mul]
    have hne : w ^ j * w' ^ i ≠ 1 := by
      intro hone
      refine hij (hw.pow_inj hj hi ?_)
      calc w ^ j = w ^ j * (w * w') ^ i := by rw [hinv, one_pow, mul_one]
        _ = w ^ i * (w ^ j * w' ^ i) := by rw [mul_pow]; ring
        _ = w ^ i := by rw [hone, mul_one]
    rw [geom_sum_eq hne, hpow, sub_self, zero_div]

theorem dft_dft (hw : IsPrimitiveRoot w n) (hinv : w * w' = 1) (x : ℕ → K) {i : ℕ} (hi : i < n) :
    dft n w' (dft n w x) i = n * x i := by
  have hswap : dft n w' (dft n w x) i =
      ∑ j ∈ Finset.range n, x j * ∑ m ∈ Finset.range n, w ^ (m * j) * w' ^ (i * m) := by
    simp only [dft, Finset.sum_mul, Finset.mul_sum]
    rw [Finset.sum_comm]
    exact Finset.sum_congr rfl fun j _ => Finset.sum_congr rfl fun m _ => by ring
  have horthogonal : ∀ j ∈ Finset.range n,
      x j * ∑ m ∈ Finset.range n, w ^ (m * j) * w' ^ (i * m) = if j = i then n * x i else 0 := by
    intro j hj
    rw [sum_pow_mul_pow hw hinv hi (Finset.mem_range.mp hj), mul_ite, mul_zero]
    split_ifs with hij
    · rw [hij, mul_comm]
    · rfl
  rw [hswap, Finset.sum_congr rfl horthogonal, Finset.sum_ite_eq', if_pos (Finset.mem_range.mpr hi)]

/-! ### Polynomials -/

/-- The polynomial with the coefficients `c 0, …, c (n - 1)`. -/
noncomputable def ofCoefficients (n : ℕ) (c : ℕ → K) : K[X] :=
  ∑ j ∈ Finset.range n, C (c j) * X ^ j

theorem eval_ofCoefficients (n : ℕ) (c : ℕ → K) (x : K) :
    (ofCoefficients n c).eval x = ∑ j ∈ Finset.range n, c j * x ^ j := by
  simp [ofCoefficients, eval_finsetSum]

theorem degree_ofCoefficients_lt (n : ℕ) (c : ℕ → K) : (ofCoefficients n c).degree < n := by
  refine (degree_sum_le _ _).trans_lt ((Finset.sup_lt_iff (WithBot.bot_lt_coe n)).mpr ?_)
  intro j hj
  exact (degree_C_mul_X_pow_le j (c j)).trans_lt (Nat.cast_lt.mpr (Finset.mem_range.mp hj))

/-- Every polynomial of degree less than `n` is given by its coefficients. -/
theorem ofCoefficients_coeff {P : K[X]} (h : P.degree < n) : ofCoefficients n P.coeff = P := by
  ext k
  have hcoeff : (ofCoefficients n P.coeff).coeff k = if k < n then P.coeff k else 0 := by
    simp [ofCoefficients, coeff_C_mul, coeff_X_pow]
  rw [hcoeff]
  split_ifs with hk
  · rfl
  · exact (coeff_eq_zero_of_degree_lt (h.trans_le (Nat.cast_le.mpr (not_lt.mp hk)))).symm

theorem eq_of_eval_eq {points : ℕ → K} (hpoints : Set.InjOn points (Finset.range n)) {P Q : K[X]}
    (hP : P.degree < n) (hQ : Q.degree < n) (h : ∀ i < n, P.eval (points i) = Q.eval (points i)) :
    P = Q := by
  refine eq_of_degrees_lt_of_eval_index_eq (Finset.range n) hpoints ?_ ?_ ?_
  · rwa [Finset.card_range]
  · rwa [Finset.card_range]
  · exact fun i hi => h i (Finset.mem_range.mp hi)

theorem coset_injOn (hw : IsPrimitiveRoot w n) {s : K} (hs : s ≠ 0) :
    Set.InjOn (fun i => s * w ^ i) (Finset.range n) := by
  intro i hi j hj h
  exact hw.pow_inj (Finset.mem_range.mp hi) (Finset.mem_range.mp hj) (mul_left_cancel₀ hs h)

end Fourier
