import Verathos.Lib.DotProduct
import Verathos.TerminalArgmax.Completeness

/-!
# The exactness of the terminal argmax

The logits are the products of a matrix and a vector of signed bytes. The limbs are counted for
logits of magnitude `127 ^ 2` in every dimension, and the entry `-128` goes beyond: in some hidden
dimensions the prover refuses the extreme logits.

* `terminalArgmax_exact`: soundness, and the dimensions in which the prover is complete;
* `commitColumns_refuses`: a refused argmax in dimension 515.
-/

namespace Verathos.TerminalArgmax

open Merkle Pcs DotProduct

/-- A signed byte. -/
def IsInt8 (value : ℤ) : Prop := -128 ≤ value ∧ value ≤ 127

/-- A vector of signed bytes. -/
structure IsInt8Vector (hiddenDim : ℕ) (vector : List ℤ) : Prop where
  length_eq : vector.length = hiddenDim
  isInt8 : ∀ value ∈ vector, IsInt8 value

/-- A matrix of signed bytes. -/
structure IsInt8Matrix (vocab hiddenDim : ℕ) (matrix : List (List ℤ)) : Prop where
  length_eq : matrix.length = vocab
  isInt8Vector : ∀ row ∈ matrix, IsInt8Vector hiddenDim row

/-- The product of a matrix and a vector. -/
def logitsOf (matrix : List (List ℤ)) (vector : List ℤ) : List ℤ :=
  matrix.map fun row => dot row vector

/-- The prover returns columns that satisfy the relation of the verifier. -/
def Complete (backend : Backend) (tileDigest : Digest) (hiddenDim : ℕ) (logits : List ℤ)
    (token : ℕ) : Prop :=
  ∃ count columns, limbCount hiddenDim = .ok count ∧
    commitColumns backend tileDigest logits token count = .ok columns ∧
    Satisfies logits.length token (logits.getD token 0) columns.logitsColumn.values
      (columns.limbColumns.map (·.values))

/-- The columns of a geometry fit the commitment. -/
def GeometryFits (maxVariables vocab hiddenDim : ℕ) : Prop :=
  ∃ count, limbCount hiddenDim = .ok count ∧ FitsCommitment maxVariables vocab count

/-- The hidden dimensions whose limbs do not hold the differences of all logits. -/
def Overflows (hiddenDim : ℕ) : Prop :=
  (515 ≤ hiddenDim ∧ hiddenDim ≤ 520) ∨ (131587 ≤ hiddenDim ∧ hiddenDim ≤ 133144)

instance (maxVariables vocab limbCount : ℕ) :
    Decidable (FitsCommitment maxVariables vocab limbCount) :=
  inferInstanceAs (Decidable (_ ∧ _))

variable {backend : Backend} {maxVariables : ℕ} {tileDigest : Digest} {vocab hiddenDim token : ℕ}

/-! ## The span of the logits -/

theorem dot_sub_dot_le {row row' vector : List ℤ} (hrow : IsInt8Vector hiddenDim row)
    (hrow' : IsInt8Vector hiddenDim row') (hvector : IsInt8Vector hiddenDim vector) :
    dot row vector - dot row' vector ≤ 32640 * hiddenDim := by
  induction hiddenDim generalizing row row' vector with
  | zero =>
    obtain rfl := List.length_eq_zero_iff.mp hrow.length_eq
    obtain rfl := List.length_eq_zero_iff.mp hrow'.length_eq
    simp
  | succ n ih =>
    obtain ⟨a, row, rfl⟩ := List.exists_cons_of_length_eq_add_one hrow.length_eq
    obtain ⟨b, row', rfl⟩ := List.exists_cons_of_length_eq_add_one hrow'.length_eq
    obtain ⟨x, vector, rfl⟩ := List.exists_cons_of_length_eq_add_one hvector.length_eq
    have htail {c : ℤ} {cs : List ℤ} (h : IsInt8Vector (n + 1) (c :: cs)) : IsInt8Vector n cs :=
      ⟨Nat.succ.inj h.length_eq, fun value hvalue => h.isInt8 value (List.mem_cons_of_mem _ hvalue)⟩
    have hrest := ih (htail hrow) (htail hrow') (htail hvector)
    obtain ⟨ha, ha'⟩ := hrow.isInt8 a List.mem_cons_self
    obtain ⟨hb, hb'⟩ := hrow'.isInt8 b List.mem_cons_self
    obtain ⟨hx, hx'⟩ := hvector.isInt8 x List.mem_cons_self
    have hstep : (a - b) * x ≤ 32640 := by
      calc (a - b) * x ≤ |(a - b) * x| := le_abs_self _
        _ = |a - b| * |x| := abs_mul _ _
        _ ≤ 255 * 128 := mul_le_mul (abs_le.mpr ⟨by omega, by omega⟩)
            (abs_le.mpr ⟨by omega, by omega⟩) (abs_nonneg _) (by norm_num)
        _ = 32640 := by norm_num
    rw [dot_cons_cons, dot_cons_cons]
    push_cast
    linarith

theorem lt_two_pow_iff (hpos : 0 < hiddenDim) (hlt : hiddenDim < 2 ^ 24) {count : ℕ}
    (hcount : limbCount hiddenDim = .ok count) :
    32640 * hiddenDim < 2 ^ (8 * count) ↔ ¬ Overflows hiddenDim := by
  rw [Overflows]
  rcases limbCount_cases hpos hlt with ⟨_, h⟩ | ⟨_, _, h⟩ | ⟨_, _, h⟩ | ⟨_, h⟩ <;>
  · obtain rfl := Except.ok.inj (hcount.symm.trans h)
    omega

/-! ## Completeness -/

theorem argmax_complete_iff (h : backend.Lawful maxVariables tileDigest) {logits : List ℤ} {count : ℕ}
    (hcount : limbCount hiddenDim = .ok count) (hpos : 1 ≤ count) (htoken : token < logits.length) :
    Complete backend tileDigest hiddenDim logits token ↔
      LowestArgmax logits token ∧
        (∀ j < logits.length, difference logits token j < 2 ^ (8 * count)) ∧
        FitsCommitment maxVariables logits.length count := by
  rw [← accepts_commitColumns_iff h hpos]
  constructor
  · rintro ⟨count', columns, hcount', hcolumns, -⟩
    obtain rfl := Except.ok.inj (hcount.symm.trans hcount')
    exact ⟨columns, hcolumns⟩
  · rintro ⟨columns, hcolumns⟩
    refine ⟨count, columns, hcount, hcolumns, ?_⟩
    obtain ⟨hargmax, hfits, -⟩ := (accepts_commitColumns_iff h hpos).mp ⟨columns, hcolumns⟩
    obtain ⟨hlogits, hlimbs⟩ := values_commitColumns hcolumns
    rw [hlogits, hlimbs]
    exact satisfies_limbValues htoken hargmax hfits

/-- The matrix with the largest difference: one row of `-128` among rows of `127`. -/
def extremeMatrix (vocab hiddenDim token : ℕ) : List (List ℤ) :=
  (List.range vocab).map fun j => List.replicate hiddenDim (if j = token then -128 else 127)

theorem isInt8Vector_replicate {value : ℤ} (h : IsInt8 value) :
    IsInt8Vector hiddenDim (List.replicate hiddenDim value) where
  length_eq := List.length_replicate
  isInt8 _ hvalue := (List.eq_of_mem_replicate hvalue) ▸ h

theorem isInt8Matrix_extremeMatrix :
    IsInt8Matrix vocab hiddenDim (extremeMatrix vocab hiddenDim token) where
  length_eq := by rw [extremeMatrix, List.length_map, List.length_range]
  isInt8Vector row hrow := by
    obtain ⟨j, -, rfl⟩ := List.mem_map.mp hrow
    apply isInt8Vector_replicate
    rw [IsInt8]
    split_ifs <;> norm_num

theorem getD_extremeLogits {j : ℕ} (hj : j < vocab) :
    (logitsOf (extremeMatrix vocab hiddenDim token) (List.replicate hiddenDim (-128))).getD j 0 =
      if j = token then 16384 * (hiddenDim : ℤ) else -16256 * hiddenDim := by
  rw [List.getD_eq_getElem _ _ (by simpa [logitsOf, extremeMatrix] using hj)]
  simp only [logitsOf, extremeMatrix, List.getElem_map, List.getElem_range, dot_replicate]
  split_ifs <;> ring

theorem length_extremeLogits {vector : List ℤ} :
    (logitsOf (extremeMatrix vocab hiddenDim token) vector).length = vocab := by
  rw [logitsOf, extremeMatrix, List.length_map, List.length_map, List.length_range]

theorem lowestArgmax_extremeLogits (htoken : token < vocab) (hpos : 0 < hiddenDim) :
    LowestArgmax
      (logitsOf (extremeMatrix vocab hiddenDim token) (List.replicate hiddenDim (-128))) token := by
  intro j hj
  rw [length_extremeLogits] at hj
  rw [getD_extremeLogits hj, getD_extremeLogits htoken, if_pos rfl]
  split_ifs with heq
  · exact ⟨le_rfl, fun hlt => absurd hlt (by omega)⟩
  · have : (0 : ℤ) < hiddenDim := by exact_mod_cast hpos
    exact ⟨by linarith, fun _ => by linarith⟩

/-- The prover is complete for all logits of a geometry exactly when the columns fit and the
dimension does not overflow. -/
theorem forall_complete_iff (h : backend.Lawful maxVariables tileDigest) (hvocab : 1 < vocab)
    (hpos : 0 < hiddenDim) (hlt : hiddenDim < 2 ^ 24) (htoken : token < vocab) :
    (∀ matrix vector, IsInt8Matrix vocab hiddenDim matrix → IsInt8Vector hiddenDim vector →
        LowestArgmax (logitsOf matrix vector) token →
          Complete backend tileDigest hiddenDim (logitsOf matrix vector) token) ↔
      GeometryFits maxVariables vocab hiddenDim ∧ ¬ Overflows hiddenDim := by
  obtain ⟨count, hcount⟩ : ∃ count, limbCount hiddenDim = .ok count := by
    rcases limbCount_cases hpos hlt with ⟨-, h⟩ | ⟨-, -, h⟩ | ⟨-, -, h⟩ | ⟨-, h⟩ <;> exact ⟨_, h⟩
  have hone : 1 ≤ count := by have := limbCount_le hpos hlt hcount; omega
  have hgeometry : GeometryFits maxVariables vocab hiddenDim ↔
      FitsCommitment maxVariables vocab count := by
    constructor
    · rintro ⟨count', hcount', hfits⟩
      rwa [Except.ok.inj (hcount.symm.trans hcount')]
    · intro hfits
      exact ⟨count, hcount, hfits⟩
  rw [hgeometry, ← lt_two_pow_iff hpos hlt hcount]
  constructor
  · intro hcomplete
    obtain ⟨-, hfits, hcommit⟩ := (argmax_complete_iff h hcount hone
      (by rwa [length_extremeLogits])).mp (hcomplete _ _ isInt8Matrix_extremeMatrix
        (isInt8Vector_replicate (by rw [IsInt8]; norm_num))
        (lowestArgmax_extremeLogits htoken hpos))
    rw [length_extremeLogits] at hfits hcommit
    refine ⟨hcommit, ?_⟩
    -- any other index has the largest difference, but for the tie
    obtain ⟨j, hj, hne⟩ : ∃ j < vocab, j ≠ token := by
      by_cases hzero : token = 0
      · exact ⟨1, hvocab, by omega⟩
      · exact ⟨0, by omega, fun heq => hzero heq.symm⟩
    have hdifference := hfits j hj
    rw [difference, getD_extremeLogits hj, getD_extremeLogits htoken, if_pos rfl,
      if_neg hne] at hdifference
    have hdifference' : (32640 * hiddenDim : ℤ) ≤ 2 ^ (8 * count) := by
      split_ifs at hdifference <;> linarith
    -- `32640` is a multiple of three and no power of two is
    have hle : 32640 * hiddenDim ≤ 2 ^ (8 * count) := by exact_mod_cast hdifference'
    refine lt_of_le_of_ne hle fun heq => ?_
    have hdvd : 3 ∣ 2 ^ (8 * count) := heq ▸ Dvd.dvd.mul_right (by norm_num) _
    exact absurd ((Nat.prime_three.dvd_of_dvd_pow hdvd)) (by norm_num)
  · rintro ⟨hcommit, hlimbs⟩ matrix vector hmatrix hvector hargmax
    have hlength : (logitsOf matrix vector).length = vocab := by
      rw [logitsOf, List.length_map, hmatrix.length_eq]
    refine (argmax_complete_iff h hcount hone (by rwa [hlength])).mpr ⟨hargmax, ?_, by rwa [hlength]⟩
    intro j hj
    have hrow {i : ℕ} (hi : i < matrix.length) :
        (logitsOf matrix vector).getD i 0 = dot matrix[i] vector := by
      rw [List.getD_eq_getElem _ _ (by rwa [logitsOf, List.length_map])]
      simp [logitsOf]
    have htoken' : token < matrix.length := by rwa [hmatrix.length_eq]
    have hj' : j < matrix.length := by rwa [hmatrix.length_eq, ← hlength]
    have hspan := dot_sub_dot_le (hmatrix.isInt8Vector matrix[token] (List.getElem_mem htoken'))
      (hmatrix.isInt8Vector matrix[j] (List.getElem_mem hj')) hvector
    have hlimbs' : (32640 * hiddenDim : ℤ) < 2 ^ (8 * count) := by exact_mod_cast hlimbs
    rw [difference, hrow htoken', hrow hj']
    split_ifs <;> linarith

/-- The relation of the verifier makes the observed token the first maximum of bounded logits, and
the prover returns columns that satisfy it for the first maximum of all products of signed bytes
exactly when the columns fit the commitment and the dimension does not overflow. -/
theorem terminalArgmax_exact (h : backend.Lawful maxVariables tileDigest) (hvocab : 1 < vocab)
    (hpos : 0 < hiddenDim) (hlt : hiddenDim < 2 ^ 24) (htoken : token < vocab) :
    (∀ (count : ℕ) (logits column : List ℤ) (limbs : List (List ℤ)), limbCount hiddenDim = .ok count → logits.length = vocab →
        (∀ logit ∈ logits, |logit| ≤ (hiddenDim : ℤ) * 128 * 128) →
        (∀ j < vocab, column.getD j 0 = logits.getD j 0 % goldilocksModulus) →
        limbs.length = count → (∀ limb ∈ limbs, ∀ cell ∈ limb, 0 ≤ cell ∧ cell ≤ 255) →
        ∀ winnerLogit, Satisfies vocab token winnerLogit column limbs →
          LowestArgmax logits token) ∧
      ((∀ matrix vector, IsInt8Matrix vocab hiddenDim matrix → IsInt8Vector hiddenDim vector →
          LowestArgmax (logitsOf matrix vector) token →
            Complete backend tileDigest hiddenDim (logitsOf matrix vector) token) ↔
        GeometryFits maxVariables vocab hiddenDim ∧ ¬ Overflows hiddenDim) := by
  refine ⟨?_, forall_complete_iff h hvocab hpos hlt htoken⟩
  rintro count logits column limbs hcount rfl hbound hcolumn hlength hbytes winnerLogit hsatisfies
  exact lowestArgmax_of_satisfies hpos hlt hcount htoken hbound hcolumn hlength hbytes hsatisfies

/-! ## The CPU reference -/

/-- The commitments of the CPU reference, under a hash whose words are all 3. -/
def cpuBackend : Backend where
  sha256 := constantThree
  cosetProfile := .chain
  queryCount := 1
  Tree := GoldilocksMerkleTreeReference
  commit := commitGoldilocksMultilinearV3 constantThree

theorem accepts_commitGoldilocksMultilinearV3 {statement : GoldilocksMultilinearPcsStatementV3}
    {values : List ℤ} (hchain : statement.cosetProfile = .chain)
    (hlength : values.length = 2 ^ statement.variableCount) (hcanonical : CanonicalVector values) :
    Accepts (commitGoldilocksMultilinearV3 constantThree statement values) ↔
      statement.variableCount ≤ 14 := by
  have hmaster : chainMasterShift constantThree = .ok 3 := by
    simp only [chainMasterShift, digestWord_constantThree]
    exact rejectionSample_first _ 65535 (by decide +kernel)
  obtain ⟨shift, hshift⟩ : ∃ shift, statement.baseShift constantThree = .ok shift := by
    rw [GoldilocksMultilinearPcsStatementV3.baseShift, hchain]
    exact ⟨_, bind_eq_ok.mpr ⟨3, hmaster, rfl⟩⟩
  constructor
  · rintro ⟨tree, htree⟩
    simp only [commitGoldilocksMultilinearV3, encode, goldilocksRadix2DomainReference, radix2Size,
      bind_eq_ok, raiseIf_eq_ok, pure_eq_ok, Nat.shiftRight_zero, codewordSize_eq] at htree
    obtain ⟨-, -, -, -, -, ⟨-, -, -, ⟨-, ⟨-, -, -, hcap, -⟩, -⟩, -⟩, -⟩ := htree
    rw [show maxGoldilocksReferenceDomainSize = 2 ^ 16 from rfl] at hcap
    have hle : 2 ^ (statement.variableCount + 2) ≤ 2 ^ 16 := by
      by_contra hlt
      exact hcap ⟨trivial, by omega⟩
    have := (Nat.pow_le_pow_iff_right (by norm_num)).mp hle
    omega
  · intro hle
    have hsmall : statement.variableCount + 2 ≤ 16 := by omega
    obtain ⟨codeword, hencode, hlayer⟩ := encode_spec hshift hsmall (Nat.zero_le _) hlength
      hcanonical
    refine ⟨honestLayerTree constantThree statement 0 codeword, ?_⟩
    simp only [commitGoldilocksMultilinearV3, bind_eq_ok, raiseIf_eq_ok, not_not]
    exact ⟨(), hlength.trans (leafCount_eq statement).symm, _, mapM_field_eq_ok _ hcanonical,
      codeword, hencode, layerTree_spec constantThree hlayer hsmall⟩

theorem lawful_cpuBackend : cpuBackend.Lawful 14 tileDigest where
  one_le_queryCount := le_rfl
  queryCount_le := by decide
  binding_ne_zero tag := by
    change constantThree (columnDomain ++ tileDigest.bytes ++ asciiBytes tag) ≠ _
    simp [constantThree, Digest.zero]
  accepts_commit_iff _ _ hprofile hlength hcanonical :=
    accepts_commitGoldilocksMultilinearV3 hprofile hlength hcanonical

/-- Two tokens and two dimensions: the byte limbs of `(5, 3)` are complete. -/
theorem terminalArgmax_exact_twoTokens :
    Complete cpuBackend (constantThree []) 2 (logitsOf [[1, 2], [3, 0]] [1, 2]) 0 := by
  have hfits : GeometryFits 14 2 2 := by
    refine ⟨2, limbCount_eq_ok (by norm_num) (by norm_num) (by norm_num), ?_⟩
    decide
  have hmatrix : IsInt8Matrix 2 2 [[1, 2], [3, 0]] := by
    refine ⟨rfl, ?_⟩
    simp only [List.forall_mem_cons]
    refine ⟨⟨rfl, ?_⟩, ⟨rfl, ?_⟩, ?_⟩ <;> simp [IsInt8]
  have hvector : IsInt8Vector 2 [1, 2] := ⟨rfl, by simp [IsInt8]⟩
  have hargmax : LowestArgmax (logitsOf [[1, 2], [3, 0]] [1, 2]) 0 := by
    decide
  exact (terminalArgmax_exact lawful_cpuBackend (by norm_num) (by norm_num) (by norm_num)
    (by norm_num)).2.mpr ⟨hfits, by simp [Overflows]⟩ _ _ hmatrix hvector hargmax

/-- In dimension 515 the extreme bytes give the first token the margin `515 * 255 * 128`, which three
limbs do not hold: the prover refuses. -/
theorem commitColumns_refuses :
    let matrix := [List.replicate 515 (-128 : ℤ), List.replicate 515 127]
    let vector := List.replicate 515 (-128 : ℤ)
    IsInt8Matrix 2 515 matrix ∧ IsInt8Vector 515 vector ∧
      LowestArgmax (logitsOf matrix vector) 0 ∧ limbCount 515 = .ok 3 ∧
      commitColumns cpuBackend (constantThree []) (logitsOf matrix vector) 0 3 =
        .error (.proofV3Error
          "terminal argmax difference exceeds the signed geometry bound") := by
  have hbyte : IsInt8 (-128) := by norm_num [IsInt8]
  have hbyte' : IsInt8 127 := by norm_num [IsInt8]
  have hlogits : logitsOf [List.replicate 515 (-128 : ℤ), List.replicate 515 127]
      (List.replicate 515 (-128)) = [8437760, -8371840] := by
    simp only [logitsOf, List.map_cons, List.map_nil, dot_replicate]
    norm_num
  refine ⟨⟨rfl, ?_⟩, isInt8Vector_replicate hbyte, ?_, ?_, ?_⟩
  · simp only [List.forall_mem_cons]
    exact ⟨isInt8Vector_replicate hbyte, isInt8Vector_replicate hbyte', by simp⟩
  · rw [hlogits]
    decide
  · exact limbCount_eq_ok (by norm_num) (by norm_num) (by norm_num)
  · rw [hlogits]
    rfl

end Verathos.TerminalArgmax
