import Mathlib.Algebra.BigOperators.Ring.Finset
import Mathlib.Data.List.GetD
import Mathlib.Tactic

/-!
# Multilinear extensions and their sumcheck

Vectors over a boolean hypercube are functions `ℕ → R`, read at the indices below `2 ^ n`; bit
zero of the index is the first variable. All definitions are over a commutative ring.

* `fold c v` binds the first variable of `v` to `c`, and `foldAll` binds one variable after
  another.
* `eqWeight point` is the table of the equality polynomial, and `mle point v` the multilinear
  extension of `v` at `point`; `mle_append_bitPoint` selects a block of `v`.
* `evalPoly m v` is the univariate polynomial with the coefficients `v`; `evalPoly_fold` computes
  the folded polynomial at `x ^ 2` from the values at `x` and `-x`.
* `quad half g` is the quadratic with the values `g` at 0, 1 and 2, where `half` inverts 2.
* `honestRound n v w` is the triple that an honest prover sends for the product of `v` and `w`.

`sumcheck_sound` is the round-by-round soundness of the sumcheck for `v` times `w`, and
`honestRound_sum`, `quad_honestRound` are its completeness. `shiftedRounds` is a run that starts from
a false sum and never meets the honest quadratics: it ends in a false value.
-/

namespace Multilinear

variable {R : Type*} [CommRing R]

/-! ## Folding -/

/-- Bind the first variable to `c`. -/
def fold (c : R) (v : ℕ → R) (i : ℕ) : R :=
  v (2 * i) + c * (v (2 * i + 1) - v (2 * i))

/-- Bind the variables in order. -/
def foldAll : List R → (ℕ → R) → ℕ → R
  | [], v => v
  | c :: cs, v => foldAll cs (fold c v)

@[simp]
theorem fold_smul (c a : R) (v : ℕ → R) : (fold c fun i => a * v i) = fun i => a * fold c v i := by
  funext i
  simp only [fold]
  ring

theorem fold_add (c : R) (v w : ℕ → R) :
    (fold c fun i => v i + w i) = fun i => fold c v i + fold c w i := by
  funext i
  simp only [fold]
  ring

theorem fold_list_sum {ι : Type*} (c : R) (items : List ι) (v : ι → ℕ → R) :
    (fold c fun i => (items.map fun item => v item i).sum) =
      fun i => (items.map fun item => fold c (v item) i).sum := by
  induction items with
  | nil =>
    funext i
    simp [fold]
  | cons item items ih =>
    simp only [List.map_cons, List.sum_cons]
    rw [fold_add, ih]

variable (cs : List R)

theorem foldAll_smul (a : R) (v : ℕ → R) :
    (foldAll cs fun i => a * v i) = fun i => a * foldAll cs v i := by
  induction cs generalizing v with
  | nil => rfl
  | cons c cs ih => rw [foldAll, fold_smul, ih, foldAll]

theorem foldAll_append (cs ds : List R) (v : ℕ → R) :
    foldAll (cs ++ ds) v = foldAll ds (foldAll cs v) := by
  induction cs generalizing v with
  | nil => rfl
  | cons c cs ih => exact ih (fold c v)

variable {v w : ℕ → R}

/-- Folding only reads the first entries of a vector. -/
theorem fold_congr {c : R} {m : ℕ} (h : ∀ i < 2 * m, v i = w i) :
    ∀ i < m, fold c v i = fold c w i := by
  intro i hi
  rw [fold, fold, h (2 * i) (by omega), h (2 * i + 1) (by omega)]

theorem foldAll_congr {cs : List R} {m : ℕ} (h : ∀ i < 2 ^ cs.length * m, v i = w i) :
    ∀ i < m, foldAll cs v i = foldAll cs w i := by
  induction cs generalizing v w with
  | nil => simpa [foldAll] using h
  | cons c cs ih =>
    refine ih (fold_congr fun i hi => h i ?_)
    rwa [List.length_cons, pow_succ', mul_assoc]

/-! ## The equality polynomial -/

/-- The equality polynomial in one variable. -/
def eqTerm (c r : R) : R :=
  (1 - c) * (1 - r) + c * r

/-- The equality polynomial at a point and at the bits of an index. -/
def eqWeight : List R → ℕ → R
  | [], _ => 1
  | r :: rs, i => (if i % 2 = 1 then r else 1 - r) * eqWeight rs (i / 2)

/-- Binding the first variable of the equality polynomial takes out one factor. -/
theorem fold_eqWeight (c r : R) (rs : List R) :
    fold c (eqWeight (r :: rs)) = fun i => eqTerm c r * eqWeight rs i := by
  funext i
  have heven : (2 * i) % 2 ≠ 1 := by omega
  have hodd : (2 * i + 1) % 2 = 1 := by omega
  have hdiv : (2 * i + 1) / 2 = i := by omega
  have hdiv' : (2 * i) / 2 = i := by omega
  rw [fold, eqWeight, eqWeight, if_neg heven, if_pos hodd, hdiv, hdiv', eqTerm]
  ring

/-- Binding every variable of the equality polynomial leaves the product of the factors. -/
theorem foldAll_eqWeight {cs rs : List R} (h : cs.length = rs.length) (i : ℕ) :
    foldAll cs (eqWeight rs) i = ((cs.zip rs).map fun x => eqTerm x.1 x.2).prod := by
  induction cs generalizing rs with
  | nil =>
    obtain rfl := List.length_eq_zero_iff.mp h.symm
    simp [foldAll, eqWeight]
  | cons c cs ih =>
    obtain ⟨r, rs, rfl⟩ := List.exists_cons_of_length_eq_add_one h.symm
    rw [foldAll, fold_eqWeight, foldAll_smul]
    simp only [ih (Nat.succ.inj h), List.zip_cons_cons, List.map_cons, List.prod_cons]

/-! ## Sums over the hypercube -/

theorem sum_range_two_mul (f : ℕ → R) (m : ℕ) :
    ∑ i ∈ Finset.range (2 * m), f i = ∑ i ∈ Finset.range m, (f (2 * i) + f (2 * i + 1)) := by
  induction m with
  | zero => simp
  | succ m ih =>
    rw [Nat.mul_succ, Finset.sum_range_succ, Finset.sum_range_succ, ih, Finset.sum_range_succ]
    ring

/-- The inner product over the hypercube of dimension `n`. -/
def inner (n : ℕ) (v w : ℕ → R) : R :=
  ∑ i ∈ Finset.range (2 ^ n), v i * w i

/-- The multilinear extension of `v` at `point`. -/
def mle (point : List R) (v : ℕ → R) : R :=
  inner point.length v (eqWeight point)

variable {n : ℕ}

theorem inner_congr {v' w' : ℕ → R} (hv : ∀ i < 2 ^ n, v i = v' i) (hw : ∀ i < 2 ^ n, w i = w' i) :
    inner n v w = inner n v' w' := by
  refine Finset.sum_congr rfl fun i hi => ?_
  rw [hv i (Finset.mem_range.mp hi), hw i (Finset.mem_range.mp hi)]

theorem mle_cons (r : R) (rs : List R) (v : ℕ → R) : mle (r :: rs) v = mle rs (fold r v) := by
  rw [mle, mle, inner, inner, List.length_cons, pow_succ', sum_range_two_mul]
  refine Finset.sum_congr rfl fun i _ => ?_
  have heven : (2 * i) % 2 ≠ 1 := by omega
  have hodd : (2 * i + 1) % 2 = 1 := by omega
  have hdiv : (2 * i + 1) / 2 = i := by omega
  have hdiv' : (2 * i) / 2 = i := by omega
  rw [eqWeight, eqWeight, if_neg heven, if_pos hodd, hdiv, hdiv', fold]
  ring

theorem foldAll_eq_mle (point : List R) (v : ℕ → R) : foldAll point v 0 = mle point v := by
  induction point generalizing v with
  | nil => simp [foldAll, mle, inner, eqWeight]
  | cons r rs ih => rw [foldAll, ih, mle_cons]

theorem foldAll_apply (v : ℕ → R) (k : ℕ) :
    foldAll cs v k = mle cs fun i => v (2 ^ cs.length * k + i) := by
  induction cs generalizing v with
  | nil => simp [foldAll, mle, inner, eqWeight]
  | cons c cs ih =>
    rw [foldAll, ih, mle_cons]
    congr 1
    funext i
    have heven : 2 ^ (cs.length + 1) * k + 2 * i = 2 * (2 ^ cs.length * k + i) := by
      rw [pow_succ']
      ring
    simp only [fold, List.length_cons, ← add_assoc, heven]

theorem mle_append (cs ds : List R) (v : ℕ → R) : mle (cs ++ ds) v = mle ds (foldAll cs v) := by
  rw [← foldAll_eq_mle, foldAll_append, foldAll_eq_mle]

/-- The lowest bits of an index, as a point. -/
def bitPoint : ℕ → ℕ → List R
  | 0, _ => []
  | n + 1, k => (if k % 2 = 1 then 1 else 0) :: bitPoint n (k / 2)

/-- At the bits of an index the multilinear extension is the entry of the vector. -/
theorem mle_bitPoint {k : ℕ} (h : k < 2 ^ n) (v : ℕ → R) : mle (bitPoint n k) v = v k := by
  induction n generalizing k v with
  | zero =>
    obtain rfl : k = 0 := by simpa using h
    simp [mle, inner, eqWeight, bitPoint]
  | succ n ih =>
    rw [bitPoint, mle_cons, ih (by rw [pow_succ'] at h; omega), fold]
    split_ifs with hodd
    · rw [one_mul, add_sub_cancel, show 2 * (k / 2) + 1 = k by omega]
    · rw [zero_mul, add_zero, show 2 * (k / 2) = k by omega]

theorem mle_append_bitPoint {k : ℕ} (h : k < 2 ^ n) (cs : List R) (v : ℕ → R) :
    mle (cs ++ bitPoint n k) v = mle cs fun i => v (2 ^ cs.length * k + i) := by
  rw [mle_append, mle_bitPoint h, foldAll_apply]

/-! ## Folding a polynomial -/

/-- The polynomial with the coefficients `v 0, …, v (m - 1)`, at a point. -/
def evalPoly (m : ℕ) (v : ℕ → R) (x : R) : R :=
  ∑ j ∈ Finset.range m, v j * x ^ j

variable (m : ℕ)

theorem evalPoly_two_mul (v : ℕ → R) (x : R) :
    evalPoly (2 * m) v x =
      evalPoly m (fun j => v (2 * j)) (x ^ 2) + x * evalPoly m (fun j => v (2 * j + 1)) (x ^ 2) := by
  rw [evalPoly, sum_range_two_mul, evalPoly, evalPoly, Finset.mul_sum, ← Finset.sum_add_distrib]
  refine Finset.sum_congr rfl fun j _ => ?_
  rw [pow_succ, pow_mul]
  ring

variable {half : R}

theorem evalPoly_fold {x inverse : R} (hhalf : 2 * half = 1) (hx : x * inverse = 1) (m : ℕ) (c : R)
    (v : ℕ → R) :
    (1 - c) * ((evalPoly (2 * m) v x + evalPoly (2 * m) v (-x)) * half) +
        c * ((evalPoly (2 * m) v x - evalPoly (2 * m) v (-x)) * half * inverse) =
      evalPoly m (fold c v) (x ^ 2) := by
  have hlerp : evalPoly m (fold c v) (x ^ 2) =
      (1 - c) * evalPoly m (fun j => v (2 * j)) (x ^ 2) +
        c * evalPoly m (fun j => v (2 * j + 1)) (x ^ 2) := by
    simp only [evalPoly]
    rw [Finset.mul_sum, Finset.mul_sum, ← Finset.sum_add_distrib]
    refine Finset.sum_congr rfl fun j _ => ?_
    rw [fold]
    ring
  rw [hlerp, evalPoly_two_mul, evalPoly_two_mul, neg_sq]
  set E := evalPoly m (fun j => v (2 * j)) (x ^ 2)
  set O := evalPoly m (fun j => v (2 * j + 1)) (x ^ 2)
  linear_combination ((1 - c) * E + c * O * (x * inverse)) * hhalf + c * O * hx

theorem evalPoly_congr {m : ℕ} (h : ∀ j < m, v j = w j) (x : R) :
    evalPoly m v x = evalPoly m w x := by
  refine Finset.sum_congr rfl fun j hj => ?_
  rw [h j (Finset.mem_range.mp hj)]

theorem evalPoly_smul (a : R) (v : ℕ → R) (x : R) :
    evalPoly m (fun j => a * v j) x = a * evalPoly m v x := by
  rw [evalPoly, evalPoly, Finset.mul_sum]
  refine Finset.sum_congr rfl fun j _ => ?_
  rw [mul_assoc]

theorem evalPoly_add (v w : ℕ → R) (x : R) :
    evalPoly m (fun j => v j + w j) x = evalPoly m v x + evalPoly m w x := by
  rw [evalPoly, evalPoly, evalPoly, ← Finset.sum_add_distrib]
  refine Finset.sum_congr rfl fun j _ => ?_
  rw [add_mul]

theorem evalPoly_zero (x : R) : evalPoly m (fun _ => 0) x = 0 := by
  simp [evalPoly]

theorem evalPoly_list_sum {ι : Type*} (items : List ι) (v : ι → ℕ → R) (x : R) :
    evalPoly m (fun j => (items.map fun item => v item j).sum) x =
      (items.map fun item => evalPoly m (v item) x).sum := by
  induction items with
  | nil => exact evalPoly_zero m x
  | cons item items ih =>
    simp only [List.map_cons, List.sum_cons]
    rw [evalPoly_add, ih]

/-! ## Quadratics -/

local instance atLeastTwo : Nat.AtLeastTwo 2 := ⟨le_rfl⟩

/-- The quadratic with the values `g.1`, `g.2.1`, `g.2.2` at 0, 1, 2; `half` inverts 2. -/
def quad (half : R) (g : R × R × R) (z : R) : R :=
  g.1 * ((z - 1) * (z - 2)) * half - g.2.1 * (z * (z - 2)) + g.2.2 * (z * (z - 1)) * half

/-- A product of two linear interpolations is its own quadratic interpolation. -/
theorem quad_lerp_mul (hhalf : 2 * half = 1) (a b a' b' z : R) :
    quad half (a * a', b * b', (a + 2 * (b - a)) * (a' + 2 * (b' - a'))) z =
      (a + z * (b - a)) * (a' + z * (b' - a')) := by
  simp only [quad]
  linear_combination
    (a * a' * (1 - z) ^ 2 + (a * b' + a' * b - 2 * (b * b')) * (z - z ^ 2)) * hhalf

theorem quad_add (half : R) (g h : R × R × R) (z : R) :
    quad half (g + h) z = quad half g z + quad half h z := by
  simp only [quad, Prod.fst_add, Prod.snd_add]
  ring

theorem quad_sum (half : R) {ι : Type*} (s : Finset ι) (g : ι → R × R × R) (z : R) :
    quad half (∑ i ∈ s, g i) z = ∑ i ∈ s, quad half (g i) z := by
  classical
  induction s using Finset.induction_on with
  | empty => simp [quad]
  | insert a s ha ih => rw [Finset.sum_insert ha, quad_add, ih, Finset.sum_insert ha]

theorem quad_const (hhalf : 2 * half = 1) (a z : R) : quad half (a, a, a) z = a := by
  simp only [quad]
  linear_combination a * (z - 1) ^ 2 * hhalf

/-! ## Rounds -/

/-- The values at 0, 1 and 2 of the honest round polynomial of `v` times `w`, when `n` more
variables follow. -/
def honestRound (n : ℕ) (v w : ℕ → R) : R × R × R :=
  (inner n (fold 0 v) (fold 0 w), inner n (fold 1 v) (fold 1 w), inner n (fold 2 v) (fold 2 w))

theorem honestRound_sum (n : ℕ) (v w : ℕ → R) :
    (honestRound n v w).1 + (honestRound n v w).2.1 = inner (n + 1) v w := by
  simp only [honestRound, inner]
  rw [← Finset.sum_add_distrib, pow_succ', sum_range_two_mul]
  refine Finset.sum_congr rfl fun i _ => ?_
  simp only [fold]
  ring

theorem quad_honestRound (hhalf : 2 * half = 1) (n : ℕ) (v w : ℕ → R) (z : R) :
    quad half (honestRound n v w) z = inner n (fold z v) (fold z w) := by
  have hsum : honestRound n v w = ∑ i ∈ Finset.range (2 ^ n),
      (fold 0 v i * fold 0 w i, fold 1 v i * fold 1 w i, fold 2 v i * fold 2 w i) := by
    refine Prod.ext ?_ (Prod.ext ?_ ?_)
    · rw [Prod.fst_sum]
      rfl
    · rw [Prod.snd_sum, Prod.fst_sum]
      rfl
    · rw [Prod.snd_sum, Prod.snd_sum]
      rfl
  rw [hsum, quad_sum, inner]
  refine Finset.sum_congr rfl fun i _ => ?_
  have hpair := quad_lerp_mul hhalf (v (2 * i)) (v (2 * i + 1)) (w (2 * i)) (w (2 * i + 1)) z
  simp only [fold, zero_mul, add_zero, one_mul, add_sub_cancel]
  exact hpair

/-! ## Soundness -/

/-- The verifier's chain: in every round the values at 0 and 1 add up to the running value,
which is then replaced by the quadratic at the challenge; `last` is the value that is left. -/
def Chain (half : R) : R → List ((R × R × R) × R) → R → Prop
  | running, [], last => running = last
  | running, (g, c) :: rounds, last => g.1 + g.2.1 = running ∧ Chain half (quad half g c) rounds last

/-- Round `j` sends a quadratic that is not the honest one but agrees with it at the challenge;
`n` variables are left when the rounds begin. -/
def Lucky (half : R) : ℕ → (ℕ → R) → (ℕ → R) → List ((R × R × R) × R) → Prop
  | n + 1, v, w, (g, c) :: rounds =>
    (g ≠ honestRound n v w ∧ quad half g c = quad half (honestRound n v w) c) ∨
      Lucky half n (fold c v) (fold c w) rounds
  | _, _, _, _ => False

/-- The lucky round by its position: `j` variables are bound before it. -/
theorem Lucky.exists_round {rounds : List ((R × R × R) × R)} (h : Lucky half n v w rounds) :
    ∃ j g c, j < n ∧ rounds[j]? = some (g, c) ∧
      g ≠ honestRound (n - 1 - j) (foldAll ((rounds.map Prod.snd).take j) v)
        (foldAll ((rounds.map Prod.snd).take j) w) ∧
      quad half g c = quad half (honestRound (n - 1 - j)
        (foldAll ((rounds.map Prod.snd).take j) v) (foldAll ((rounds.map Prod.snd).take j) w)) c := by
  induction rounds generalizing n v w with
  | nil => cases n <;> exact h.elim
  | cons round rounds ih =>
    obtain ⟨g, c⟩ := round
    cases n with
    | zero => exact h.elim
    | succ n =>
      rcases h with ⟨hne, heq⟩ | h
      · exact ⟨0, g, c, by omega, rfl, hne, heq⟩
      · obtain ⟨j, g', c', hj, hget, hne, heq⟩ := ih h
        refine ⟨j + 1, g', c', by omega, hget, ?_⟩
        rw [show n + 1 - 1 - (j + 1) = n - 1 - j by omega]
        exact ⟨hne, heq⟩

theorem sumcheck_sound (hhalf : 2 * half = 1) {running : R} {rounds : List ((R × R × R) × R)}
    (hchain : Chain half running rounds
      (foldAll (rounds.map Prod.snd) v 0 * foldAll (rounds.map Prod.snd) w 0))
    (hfalse : running ≠ inner rounds.length v w) : Lucky half rounds.length v w rounds := by
  induction rounds generalizing v w running with
  | nil =>
    have hlast : running = v 0 * w 0 := hchain
    exact absurd hlast (by simpa [inner] using hfalse)
  | cons round rounds ih =>
    obtain ⟨g, c⟩ := round
    obtain ⟨hsum, hrest⟩ := hchain
    by_cases hagree : quad half g c = quad half (honestRound rounds.length v w) c
    · refine Or.inl ⟨fun h => hfalse ?_, hagree⟩
      rw [← hsum, h, honestRound_sum, List.length_cons]
    · refine Or.inr (ih hrest fun h => hagree ?_)
      rw [h, quad_honestRound hhalf]

/-! ## Shifted runs -/

/-- The rounds of a prover who adds a constant to every honest quadratic, so that the chain ends
`e` above the true value. -/
def shiftedRounds : List R → (ℕ → R) → (ℕ → R) → R → List (R × R × R)
  | [], _, _, _ => []
  | c :: cs, v, w, e =>
    (honestRound cs.length v w + (2 ^ cs.length * e, 2 ^ cs.length * e, 2 ^ cs.length * e)) ::
      shiftedRounds cs (fold c v) (fold c w) e

theorem length_shiftedRounds (v w : ℕ → R) (e : R) :
    (shiftedRounds cs v w e).length = cs.length := by
  induction cs generalizing v w with
  | nil => rfl
  | cons c cs ih => rw [shiftedRounds, List.length_cons, ih, List.length_cons]

/-- A shifted run is a chain: a shift of `e` at its end is a shift of `2 ^ n * e` at its start. -/
theorem chain_shiftedRounds (hhalf : 2 * half = 1) (cs : List R) (v w : ℕ → R) (e : R) :
    Chain half (inner cs.length v w + 2 ^ cs.length * e) ((shiftedRounds cs v w e).zip cs)
      (foldAll cs v 0 * foldAll cs w 0 + e) := by
  induction cs generalizing v w with
  | nil =>
    change inner 0 v w + 2 ^ 0 * e = v 0 * w 0 + e
    simp [inner]
  | cons c cs ih =>
    refine ⟨?_, ?_⟩
    · rw [List.length_cons, ← honestRound_sum, Prod.fst_add, Prod.snd_add, Prod.fst_add, pow_succ]
      ring
    · rw [quad_add, quad_const hhalf, quad_honestRound hhalf]
      exact ih (fold c v) (fold c w)

theorem getElem?_shiftedRounds {cs : List R} {j : ℕ} (hj : j < cs.length) (v w : ℕ → R) (e : R) :
    (shiftedRounds cs v w e)[j]? =
      some (honestRound (cs.length - 1 - j) (foldAll (cs.take j) v) (foldAll (cs.take j) w) +
        (2 ^ (cs.length - 1 - j) * e, 2 ^ (cs.length - 1 - j) * e, 2 ^ (cs.length - 1 - j) * e)) := by
  induction cs generalizing v w j with
  | nil => exact absurd hj (Nat.not_lt_zero _)
  | cons c cs ih =>
    cases j with
    | zero => rfl
    | succ j =>
      have hj' : j < cs.length := by simpa using hj
      rw [shiftedRounds, List.getElem?_cons_succ, ih hj', List.length_cons,
        show cs.length + 1 - 1 - (j + 1) = cs.length - 1 - j by omega]
      rfl

/-!
## Folding from the last variable

A vector over a boolean hypercube can also be folded from its last variable, which is the highest
bit of the index: the upper half of the vector is folded onto the lower half.

* `foldHigh half c v` binds the last variable of a vector of `2 * half` entries to `c`;
* `mle_append_singleton`: this evaluates the multilinear extension, when the last variable is bound
  first;
* `highRound n v w z` is the value at `z` of the round polynomial of an honest prover, and
  `highRound_eq_eval` says that it is quadratic in `z`, so that three values determine it
  (`quad_highRound`).
-/

/-- Bind the last variable to `c`. -/
def foldHigh (half : ℕ) (c : R) (v : ℕ → R) (i : ℕ) : R :=
  v i + c * (v (half + i) - v i)

@[simp]
theorem foldHigh_zero (half : ℕ) (v : ℕ → R) : foldHigh half 0 v = v := by
  funext i
  simp [foldHigh]

@[simp]
theorem foldHigh_one (half : ℕ) (v : ℕ → R) : foldHigh half 1 v = fun i => v (half + i) := by
  funext i
  simp [foldHigh]

theorem mle_smul_add (a : R) (v w : ℕ → R) :
    mle cs (fun i => v i + a * w i) = mle cs v + a * mle cs w := by
  simp only [mle, inner, Finset.mul_sum, ← Finset.sum_add_distrib]
  refine Finset.sum_congr rfl fun i _ => ?_
  ring

theorem mle_append_singleton (c : R) (v : ℕ → R) :
    mle (cs ++ [c]) v = mle cs (foldHigh (2 ^ cs.length) c v) := by
  have hlow := foldAll_apply cs v 0
  have hhigh := foldAll_apply cs v 1
  simp only [Nat.mul_zero, Nat.zero_add, Nat.mul_one] at hlow hhigh
  have hsub : mle cs (fun i => v (2 ^ cs.length + i) - v i) =
      mle cs (fun i => v (2 ^ cs.length + i)) - mle cs v := by
    have h := mle_smul_add cs (-1) (fun i => v (2 ^ cs.length + i)) v
    simpa [← sub_eq_add_neg] using h
  rw [mle_append, mle_cons, ← foldAll_eq_mle []]
  simp only [foldAll, fold]
  rw [show 2 * 0 = 0 from rfl, Nat.zero_add, hlow, hhigh]
  have h := mle_smul_add cs c v (fun i => v (2 ^ cs.length + i) - v i)
  rw [hsub] at h
  exact h.symm

/-- The equality polynomial of the first variables reads the low bits of an index. -/
theorem eqWeight_add_mul (rs : List R) (i k : ℕ) :
    eqWeight rs (i + 2 ^ rs.length * k) = eqWeight rs i := by
  induction rs generalizing i with
  | nil => rfl
  | cons r rs ih =>
    have hmod : (i + 2 ^ (rs.length + 1) * k) % 2 = i % 2 := by
      rw [pow_succ', mul_assoc]
      omega
    have hdiv : (i + 2 ^ (rs.length + 1) * k) / 2 = i / 2 + 2 ^ rs.length * k := by
      rw [pow_succ', mul_assoc]
      omega
    rw [List.length_cons, eqWeight, eqWeight, hmod, hdiv, ih]

theorem eqWeight_append_singleton (rs : List R) (r : R) (i : ℕ) :
    eqWeight (rs ++ [r]) i =
      eqWeight rs i * if i / 2 ^ rs.length % 2 = 1 then r else 1 - r := by
  induction rs generalizing i with
  | nil => simp [eqWeight]
  | cons s rs ih =>
    rw [List.cons_append, eqWeight, ih, eqWeight, List.length_cons, pow_succ', ← Nat.div_div_eq_div_mul,
      mul_assoc]

/-! ### Rounds -/

theorem inner_succ (n : ℕ) (v w : ℕ → R) :
    inner (n + 1) v w = inner n v w + inner n (fun i => v (2 ^ n + i)) fun i => w (2 ^ n + i) := by
  rw [inner, pow_succ, mul_two, Finset.sum_range_add, inner, inner]

/-- The value at `z` of the honest round polynomial of `v` times `w`, when `n` more variables
precede the last one. -/
def highRound (n : ℕ) (v w : ℕ → R) (z : R) : R :=
  inner n (foldHigh (2 ^ n) z v) (foldHigh (2 ^ n) z w)

/-- The honest values at 0 and 1 add up to the sum that the round started from. -/
theorem highRound_sum (n : ℕ) (v w : ℕ → R) :
    highRound n v w 0 + highRound n v w 1 = inner (n + 1) v w := by
  rw [highRound, highRound, inner_succ, foldHigh_zero, foldHigh_zero, foldHigh_one, foldHigh_one]

theorem highRound_eq_eval (n : ℕ) (v w : ℕ → R) :
    ∃ a b c, ∀ z, highRound n v w z = a + b * z + c * z ^ 2 := by
  refine ⟨inner n v w,
    ∑ i ∈ Finset.range (2 ^ n), (v i * (w (2 ^ n + i) - w i) + (v (2 ^ n + i) - v i) * w i),
    ∑ i ∈ Finset.range (2 ^ n), (v (2 ^ n + i) - v i) * (w (2 ^ n + i) - w i), fun z => ?_⟩
  simp only [highRound, inner, Finset.sum_mul, ← Finset.sum_add_distrib]
  refine Finset.sum_congr rfl fun i _ => ?_
  simp only [foldHigh]
  ring

theorem quad_highRound (hhalf : 2 * half = 1) (n : ℕ) (v w : ℕ → R) (z : R) :
    quad half (highRound n v w 0, highRound n v w 1, highRound n v w 2) z = highRound n v w z := by
  obtain ⟨a, b, c, hvalue⟩ := highRound_eq_eval n v w
  rw [quad, hvalue 0, hvalue 1, hvalue 2, hvalue z]
  linear_combination (a * (z - 1) ^ 2 + (b + 2 * c) * (z * (z - 1))) * hhalf

/-!
## Tensor products of vectors

The tensor product of two vectors reads the high part of an index in the first vector and the low
part in the second.

* `tensor m v w` is the product, when the second vector has `m` entries;
* `getD_flatMap_map` says that a nested loop over two lists tabulates it;
* `mle_tensor`: the multilinear extension of a product is the product of the multilinear
  extensions, the low variables in front.
-/

/-- The tensor product of `v` with a vector `w` of `m` entries. -/
def tensor (m : ℕ) (v w : ℕ → R) (i : ℕ) : R :=
  v (i / m) * w (i % m)

theorem tensor_mul_add {m i : ℕ} (hi : i < m) (v w : ℕ → R) (k : ℕ) :
    tensor m v w (m * k + i) = v k * w i := by
  have hdiv : (m * k + i) / m = k := by
    rw [Nat.mul_add_div (Nat.zero_lt_of_lt hi), Nat.div_eq_of_lt hi, Nat.add_zero]
  have hmod : (m * k + i) % m = i := by rw [Nat.mul_add_mod, Nat.mod_eq_of_lt hi]
  rw [tensor, hdiv, hmod]

theorem mle_congr {point : List R} (h : ∀ i < 2 ^ point.length, v i = w i) :
    mle point v = mle point w :=
  inner_congr h fun _ _ => rfl

theorem mle_smul (point : List R) (a : R) (v : ℕ → R) :
    mle point (fun i => a * v i) = a * mle point v := by
  simp only [mle, inner, Finset.mul_sum, mul_assoc]

theorem mle_tensor (low high : List R) (v w : ℕ → R) :
    mle (low ++ high) (tensor (2 ^ low.length) v w) = mle high v * mle low w := by
  have hbound : foldAll low (tensor (2 ^ low.length) v w) = fun k => mle low w * v k := by
    funext k
    rw [foldAll_apply, mle_congr fun i hi => tensor_mul_add hi v w k, mle_smul, mul_comm]
  rw [mle_append, hbound, mle_smul, mul_comm]

theorem getD_flatMap_map {α β γ : Type*} {xs : List α} {ys : List β} (f : α → β → γ) {i : ℕ}
    (hi : i < xs.length * ys.length) (x : α) (y : β) (z : γ) :
    (xs.flatMap fun a => ys.map fun b => f a b).getD i z =
      f (xs.getD (i / ys.length) x) (ys.getD (i % ys.length) y) := by
  have hpos : 0 < ys.length := Nat.pos_of_mul_pos_left (Nat.zero_lt_of_lt hi)
  induction xs generalizing i with
  | nil => simp at hi
  | cons a xs ih =>
    rw [List.flatMap_cons, List.getD_eq_getElem?_getD]
    by_cases hlow : i < ys.length
    · rw [List.getElem?_append_left (by rwa [List.length_map]), Nat.div_eq_of_lt hlow,
        Nat.mod_eq_of_lt hlow, List.getD_cons_zero, List.getD_eq_getElem _ _ hlow,
        List.getElem?_map, List.getElem?_eq_getElem hlow]
      rfl
    · -- the entry is in the part of a later `a`
      obtain ⟨j, rfl⟩ := Nat.exists_eq_add_of_le (not_lt.mp hlow)
      have hj : j < xs.length * ys.length := by
        rw [List.length_cons, Nat.succ_mul] at hi
        omega
      rw [List.getElem?_append_right (by simp), List.length_map, Nat.add_sub_cancel_left,
        ← List.getD_eq_getElem?_getD, ih hj, Nat.add_div_left _ hpos, Nat.add_mod_left,
        List.getD_cons_succ]

end Multilinear
