import Mathlib.Data.List.GetD
import Verathos.Lib.DotProduct
import Verathos.ProjectionFold.Defs

/-!
# Completeness and soundness of the projection fold

The folds of an honest row satisfy the verifier, and a wrong row satisfies one fold for few
coefficient vectors: one wrong output determines its coefficient from the others.

* `dot_combination`: folding the columns and the outputs gives one number;
* `verifyLeanProjectionFoldV3_eq_ok`: what the verifier checks;
* `card_satisfied_le`: the number of coefficient vectors that a wrong row satisfies;
* `projectionFold_complete_and_sound`: both.
-/

namespace Verathos.ProjectionFold

open DotProduct LinearCount

/-- A row of signed bytes. -/
structure IsI8Row (length : ℕ) (row : List ℤ) : Prop where
  length_eq : row.length = length
  signed : ∀ value ∈ row, -128 ≤ value ∧ value ≤ 127

/-- A row of signed 64-bit integers. -/
structure IsI64Row (length : ℕ) (row : List ℤ) : Prop where
  length_eq : row.length = length
  signed : ∀ value ∈ row, -2 ^ 63 ≤ value ∧ value < 2 ^ 63

/-- The columns of a statement. -/
structure IsColumns (statement : LeanProjectionStatementV3) (columns : List (List ℤ)) : Prop where
  length_eq : columns.length = statement.outputDim
  isI8Row : ∀ column ∈ columns, IsI8Row statement.paddedInputDim column

/-- Coefficients of 31 bits, one for each output. -/
structure IsCoefficients (statement : LeanProjectionStatementV3) (coefficients : List ℤ) :
    Prop where
  length_eq : coefficients.length = statement.outputDim
  bounded : ∀ coefficient ∈ coefficients, 0 ≤ coefficient ∧ coefficient < 2 ^ 31

/-- The exact outputs: every column times the input. -/
def outputs (columns : List (List ℤ)) (x : List ℤ) : List ℤ :=
  columns.map fun column => dot x column

/-- What the commitments of `pcs_v2` provide for registered columns: the combination of the catalog
commits to the combination of the columns, and to no other row. -/
structure Platform.Registers (p : Platform) (catalog : Digest)
    (statement : LeanProjectionStatementV3) (columns : List (List ℤ)) : Prop where
  homomorphic : ∀ coefficients, IsCoefficients statement coefficients →
    IsI64Row statement.paddedInputDim
      (combination columns coefficients statement.paddedInputDim) →
    ∃ commitment,
      p.combineRegisteredCatalogU63 catalog coefficients statement.outputDim = .ok commitment ∧
      p.commit (combination columns coefficients statement.paddedInputDim) = .ok commitment
  binding : ∀ coefficients row commitment, IsCoefficients statement coefficients →
    IsI64Row statement.paddedInputDim row →
    p.combineRegisteredCatalogU63 catalog coefficients statement.outputDim = .ok commitment →
    p.commit row = .ok commitment →
    row = combination columns coefficients statement.paddedInputDim

/-- The equation of one fold. -/
def FoldHolds (p : Platform) (x output row coefficients : List ℤ) : Prop :=
  dot x row % p.pallasScalarModulus = dot output coefficients % p.pallasScalarModulus

instance (p : Platform) (x output row coefficients : List ℤ) :
    Decidable (FoldHolds p x output row coefficients) :=
  inferInstanceAs (Decidable (_ = _))

variable {p : Platform} {statement : LeanProjectionStatementV3} {columns : List (List ℤ)}
  {x output row coefficients : List ℤ}

/-! ## Rows -/

@[simp]
theorem signedI8Row_eq_ok {values result : List ℤ} {length : ℕ} {name : String} :
    signedI8Row values length name = .ok result ↔ IsI8Row length values ∧ result = values := by
  simp only [signedI8Row, bind_eq_ok, raiseIf_eq_ok, pure_eq_ok, exists_const, not_or, not_not,
    not_exists, not_and, not_lt, @eq_comm _ result]
  constructor
  · rintro ⟨⟨hlength, hbound⟩, rfl⟩
    exact ⟨⟨hlength, fun value hvalue => hbound value hvalue⟩, rfl⟩
  · rintro ⟨⟨hlength, hbound⟩, rfl⟩
    exact ⟨⟨hlength, fun value hvalue => hbound value hvalue⟩, rfl⟩

@[simp]
theorem signedI64Row_eq_ok {values result : List ℤ} {length : ℕ} {name : String} :
    signedI64Row values length name = .ok result ↔ IsI64Row length values ∧ result = values := by
  simp only [signedI64Row, bind_eq_ok, raiseIf_eq_ok, pure_eq_ok, exists_const, not_or, not_not,
    not_exists, not_and, not_lt, not_le, @eq_comm _ result]
  constructor
  · rintro ⟨⟨hlength, hbound⟩, rfl⟩
    exact ⟨⟨hlength, fun value hvalue => hbound value hvalue⟩, rfl⟩
  · rintro ⟨⟨hlength, hbound⟩, rfl⟩
    exact ⟨⟨hlength, fun value hvalue => hbound value hvalue⟩, rfl⟩

theorem fixed32_bytes {digest : Digest} (h : digest ≠ Digest.zero) (name : String) :
    fixed32 digest.bytes name true = .ok digest := by
  have hnonzero : ∃ byte ∈ digest.bytes, byte ≠ 0 := by
    by_contra hall
    push Not at hall
    refine h (Digest.ext ?_)
    rw [List.eq_replicate_of_mem hall, digest.length_eq]
    rfl
  rw [fixed32, dif_pos digest.length_eq, if_neg]
  rintro ⟨-, hnone⟩
  exact hnone hnonzero

/-! ## The derived coefficients -/

variable (raw : Bytes)

theorem coefficientWord_bounds (index : ℕ) :
    0 ≤ coefficientWord raw index ∧ coefficientWord raw index < 2 ^ 31 := by
  refine ⟨Int.natCast_nonneg _, ?_⟩
  have hlt : LittleEndian.toNat ((raw.drop (4 * index)).take 4) &&&
      ((1 <<< leanProjectionCoefficientBitsV3) - 1) < 2 ^ 31 := by
    rw [Nat.one_shiftLeft, leanProjectionCoefficientBitsV3, Nat.and_two_pow_sub_one_eq_mod]
    exact Nat.mod_lt _ (by norm_num)
  have hcast : ((_ : ℕ) : ℤ) < ((2 ^ 31 : ℕ) : ℤ) := Int.ofNat_lt.mpr hlt
  rw [coefficientWord]
  exact hcast

theorem isCoefficients_coefficientRows :
    ∀ u ∈ coefficientRows statement raw, IsCoefficients statement u := by
  intro u hu
  obtain ⟨fold, -, rfl⟩ := List.mem_map.mp hu
  refine ⟨by rw [List.length_map, List.length_range], ?_⟩
  intro coefficient hcoefficient
  obtain ⟨j, -, rfl⟩ := List.mem_map.mp hcoefficient
  exact coefficientWord_bounds _ _

theorem length_coefficientRows :
    (coefficientRows statement raw).length = leanProjectionFoldCountV3 := by
  rw [coefficientRows, List.length_map, List.length_range]

variable {nonce : Digest}

theorem deriveLeanProjectionCoefficientsV3_eq_ok (hnonce : nonce ≠ Digest.zero)
    (hx : IsI8Row statement.inputDim x) (houtput : IsI64Row statement.outputDim output) :
    deriveLeanProjectionCoefficientsV3 p statement nonce.bytes x output =
      .ok (coefficientRows statement (p.shake256 (transcript p statement nonce x output)
        (leanProjectionFoldCountV3 * statement.outputDim * 4))) := by
  rw [deriveLeanProjectionCoefficientsV3, fixed32_bytes hnonce,
    signedI8Row_eq_ok.mpr ⟨hx, rfl⟩, signedI64Row_eq_ok.mpr ⟨houtput, rfl⟩]
  rfl

/-! ## Combinations -/

@[simp]
theorem length_combination (columns : List (List ℤ)) (coefficients : List ℤ) (width : ℕ) :
    (combination columns coefficients width).length = width := by
  rw [combination, List.length_map, List.length_range]

theorem combineAt_eq_dot (columns : List (List ℤ)) (coefficients : List ℤ) (inner : ℕ) :
    combineAt columns coefficients inner =
      dot coefficients (columns.map fun column => column.getD inner 0) := by
  rw [combineAt, dot, List.zipWith_map_right]

theorem dot_combination {width : ℕ} (hcolumns : ∀ column ∈ columns, column.length = width)
    (hx : x.length ≤ width) (coefficients : List ℤ) :
    dot x (combination columns coefficients width) = dot (outputs columns x) coefficients := by
  have hpadded (row : List ℤ) (hrow : row.length = width) :
      dot x row = ∑ i ∈ Finset.range width, x.getD i 0 * row.getD i 0 := by
    have hlength : (x ++ List.replicate (width - x.length) 0).length = row.length := by
      rw [List.length_append, List.length_replicate, hrow]
      omega
    rw [← dot_append_replicate_zero x row (width - x.length), dot_eq_sum hlength, hrow]
    refine Finset.sum_congr rfl fun i _ => ?_
    rcases Nat.lt_or_ge i x.length with hi | hi
    · rw [List.getD_append _ _ _ _ hi]
    · rw [List.getD_append_right _ _ _ _ hi, List.getD_eq_default x _ hi,
        List.getD_eq_getElem?_getD, List.getElem?_replicate]
      split_ifs <;> rfl
  rw [hpadded _ (length_combination _ _ _)]
  have hcell {i : ℕ} (hi : i < width) : (combination columns coefficients width).getD i 0 =
      combineAt columns coefficients i := by
    rw [List.getD_eq_getElem _ _ (by rwa [length_combination])]
    simp [combination]
  rw [Finset.sum_congr rfl fun i hi => by rw [hcell (Finset.mem_range.mp hi)]]
  clear hcell
  induction columns generalizing coefficients with
  | nil => simp [combineAt, outputs]
  | cons column columns ih =>
    obtain ⟨hcolumn, hcolumns⟩ := List.forall_mem_cons.mp hcolumns
    cases coefficients with
    | nil => simp [combineAt]
    | cons u coefficients =>
      have hrest := ih hcolumns coefficients
      have houtputs : outputs (column :: columns) x = dot x column :: outputs columns x := rfl
      have hsplit (i : ℕ) : combineAt (column :: columns) (u :: coefficients) i =
          u * column.getD i 0 + combineAt columns coefficients i := by
        rw [combineAt, List.zipWith_cons_cons, List.sum_cons, combineAt]
      simp only [hsplit, mul_add, Finset.sum_add_distrib]
      rw [hrest, houtputs, dot_cons_cons, hpadded column hcolumn, Finset.sum_mul]
      congr 1
      refine Finset.sum_congr rfl fun i _ => ?_
      ring

/-! ## Bounds -/

theorem isI64Row_combination (hcolumns : IsColumns statement columns)
    (hcoefficients : IsCoefficients statement coefficients)
    (hsmall : statement.outputDim < 2 ^ 25) :
    IsI64Row statement.paddedInputDim
      (combination columns coefficients statement.paddedInputDim) := by
  refine ⟨length_combination _ _ _, ?_⟩
  intro value hvalue
  obtain ⟨i, -, rfl⟩ := List.mem_map.mp hvalue
  have hbound : |combineAt columns coefficients i| ≤
      statement.outputDim * ((2 ^ 31 - 1) * 128) := by
    rw [combineAt_eq_dot, ← hcoefficients.length_eq]
    refine abs_dot_le (by norm_num) (by norm_num) ?_ ?_
    · intro u hu
      obtain ⟨hlow, hhigh⟩ := hcoefficients.bounded u hu
      exact abs_le.mpr ⟨by linarith, by linarith⟩
    · intro y hy
      obtain ⟨column, hcolumn, rfl⟩ := List.mem_map.mp hy
      rcases Nat.lt_or_ge i column.length with hi | hi
      · rw [List.getD_eq_getElem _ _ hi]
        obtain ⟨hlow, hhigh⟩ := (hcolumns.isI8Row column hcolumn).signed _ (List.getElem_mem hi)
        exact abs_le.mpr ⟨hlow, by linarith⟩
      · rw [List.getD_eq_default _ _ hi]
        norm_num
  have hcount : (statement.outputDim : ℤ) ≤ 2 ^ 25 - 1 := by
    have : (statement.outputDim : ℤ) < 2 ^ 25 := by exact_mod_cast hsmall
    omega
  have habs : |combineAt columns coefficients i| ≤ (2 ^ 25 - 1) * ((2 ^ 31 - 1) * 128) :=
    hbound.trans (mul_le_mul_of_nonneg_right hcount (by norm_num))
  rw [abs_le] at habs
  constructor <;> linarith

theorem abs_dot_column_le {column : List ℤ} (hx : IsI8Row statement.inputDim x)
    (hcolumn : IsI8Row statement.paddedInputDim column) : |dot x column| ≤ 2 ^ 46 := by
  have hbyte {row : List ℤ} {length : ℕ} (hrow : IsI8Row length row) : ∀ value ∈ row,
      |value| ≤ 128 := by
    intro value hvalue
    obtain ⟨hlow, hhigh⟩ := hrow.signed value hvalue
    exact abs_le.mpr ⟨hlow, by linarith⟩
  have hbound := abs_dot_le (by norm_num) (by norm_num) (hbyte hx) (hbyte hcolumn)
  have hcount : (x.length : ℤ) ≤ 2 ^ 32 := by
    rw [hx.length_eq]
    exact_mod_cast (statement.inputDim_le.trans statement.paddedInputDim_lt.le)
  calc |dot x column| ≤ x.length * (128 * 128) := hbound
    _ ≤ 2 ^ 32 * (128 * 128) := mul_le_mul_of_nonneg_right hcount (by norm_num)
    _ = 2 ^ 46 := by norm_num

theorem isI64Row_outputs (hcolumns : IsColumns statement columns)
    (hx : IsI8Row statement.inputDim x) : IsI64Row statement.outputDim (outputs columns x) := by
  refine ⟨by rw [outputs, List.length_map, hcolumns.length_eq], ?_⟩
  intro value hvalue
  obtain ⟨column, hcolumn, rfl⟩ := List.mem_map.mp hvalue
  have habs := abs_le.mp (abs_dot_column_le hx (hcolumns.isI8Row column hcolumn))
  constructor <;> linarith [habs.1, habs.2]

/-! ## The prover -/

theorem buildLeanProjectionFoldReferenceV3_eq_ok (hnonce : nonce ≠ Digest.zero)
    (hx : IsI8Row statement.inputDim x) (houtput : IsI64Row statement.outputDim output)
    (hcolumns : IsColumns statement columns) (hsmall : statement.outputDim < 2 ^ 25) :
    ∃ fold words, buildLeanProjectionFoldReferenceV3 p statement nonce.bytes x output columns =
        .ok fold ∧
      deriveLeanProjectionCoefficientsV3 p statement nonce.bytes x output = .ok words ∧
      fold.foldedWeights =
        words.map fun u => combination columns u statement.paddedInputDim := by
  set words := coefficientRows statement (p.shake256 (transcript p statement nonce x output)
    (leanProjectionFoldCountV3 * statement.outputDim * 4)) with hwords
  have hderive := deriveLeanProjectionCoefficientsV3_eq_ok (p := p) hnonce hx houtput
  rw [← hwords] at hderive
  set folds := words.map fun u => combination columns u statement.paddedInputDim with hfolds
  have hrows : ∀ row ∈ folds, IsI64Row statement.paddedInputDim row := by
    intro row hrow
    obtain ⟨u, hu, rfl⟩ := List.mem_map.mp hrow
    exact isI64Row_combination hcolumns (isCoefficients_coefficientRows _ u hu) hsmall
  have hlength : folds.length = leanProjectionFoldCountV3 := by
    rw [hfolds, List.length_map, hwords, length_coefficientRows]
  have hhead : folds.headI.length = statement.paddedInputDim := by
    refine (hrows _ ?_).length_eq
    cases hcases : folds with
    | nil =>
      rw [hcases] at hlength
      exact absurd hlength (by decide)
    | cons row rows => exact List.mem_cons_self
  have hcolumnsRead : columns.zipIdx.mapM (fun column => signedI8Row column.1
      statement.paddedInputDim ("lean projection weight column " ++ toString column.2)) =
        .ok columns := by
    conv_rhs => rw [← List.zipIdx_map_fst 0 columns]
    refine mapM_eq_ok_map fun column hcolumn => ?_
    exact signedI8Row_eq_ok.mpr
      ⟨hcolumns.isI8Row _ (List.fst_mem_of_mem_zipIdx hcolumn), rfl⟩
  have hfoldsRead : words.mapM (fun foldCoefficients => do
      let row := combination columns foldCoefficients statement.paddedInputDim
      let _ ← signedI64Row row statement.paddedInputDim "lean projection folded weight"
      return row : List ℤ → Result (List ℤ)) = .ok folds := by
    refine mapM_eq_ok_map fun u hu => ?_
    exact bind_eq_ok.mpr ⟨_, signedI64Row_eq_ok.mpr
      ⟨hrows _ (List.mem_map.mpr ⟨u, hu, rfl⟩), rfl⟩, rfl⟩
  have hwidth : ∀ row ∈ folds, row.length = folds.headI.length := by
    intro row hrow
    rw [(hrows row hrow).length_eq, hhead]
  have hsigned : ∀ row ∈ folds, ∀ value ∈ row, -2 ^ 63 ≤ value ∧ value < 2 ^ 63 :=
    fun row hrow => (hrows row hrow).signed
  refine ⟨⟨folds, hlength, hwidth, hsigned⟩, words, ?_, hderive, rfl⟩
  simp only [buildLeanProjectionFoldReferenceV3, bind_eq_ok, raiseIf_eq_ok, not_not]
  refine ⟨columns, hcolumnsRead, (), hcolumns.length_eq, words, hderive, folds, hfoldsRead, ?_⟩
  rw [LeanProjectionFoldV3.postInit, dif_pos hlength, dif_pos hwidth, dif_pos hsigned]

/-! ## The verifier -/

theorem zipStrict_eq_ok {α β : Type} {xs : List α} {ys : List β} {pairs : List (α × β)} :
    zipStrict xs ys = .ok pairs ↔ xs.length = ys.length ∧ pairs = xs.zip ys := by
  simp only [zipStrict, bind_eq_ok, raiseIf_eq_ok, not_not, pure_eq_ok, exists_const,
    @eq_comm _ pairs]

theorem sum_zip (xs ys : List ℤ) : ((xs.zip ys).map fun pair => pair.1 * pair.2).sum = dot xs ys := by
  rw [dot, ← List.map_uncurry_zip_eq_zipWith]
  rfl

theorem zip_map_self {α β : Type} (f : α → β) (items : List α) :
    (items.map f).zip items = items.map fun a => (f a, a) := by
  induction items with
  | nil => rfl
  | cons a items ih => rw [List.map_cons, List.zip_cons_cons, ih, List.map_cons]

theorem accepts_verifyFold {catalog : Digest} {foldIndex : ℕ} :
    Accepts (verifyFold p statement catalog x output foldIndex row coefficients) ↔
      (∃ commitment,
        p.combineRegisteredCatalogU63 catalog coefficients statement.outputDim = .ok commitment ∧
          p.commit row = .ok commitment) ∧
      x.length = row.length ∧ output.length = coefficients.length ∧
        FoldHolds p x output row coefficients := by
  simp only [verifyFold, accepts_bind, raiseIf_eq_ok, not_not, zipStrict_eq_ok]
  constructor
  · rintro ⟨expected, hexpected, actual, hactual, -, rfl, _, ⟨hleft, rfl⟩, _, ⟨hright, rfl⟩,
      haccepts⟩
    rw [sum_zip, sum_zip] at haccepts
    refine ⟨⟨actual, hexpected, hactual⟩, hleft, hright, ?_⟩
    obtain ⟨_, hholds⟩ := haccepts
    exact not_not.mp (raiseIf_eq_ok.mp hholds)
  · rintro ⟨⟨commitment, hexpected, hactual⟩, hleft, hright, hholds⟩
    refine ⟨commitment, hexpected, commitment, hactual, (), rfl, _, ⟨hleft, rfl⟩, _, ⟨hright, rfl⟩,
      (), ?_⟩
    rw [sum_zip, sum_zip, raiseIf_eq_ok, not_not]
    exact hholds

theorem verifyLeanProjectionFoldV3_eq_ok {fold : LeanProjectionFoldV3} {catalog : Digest}
    (hnonce : nonce ≠ Digest.zero) (hcatalog : catalog ≠ Digest.zero)
    (hx : IsI8Row statement.inputDim x) (houtput : IsI64Row statement.outputDim output)
    {words : List (List ℤ)}
    (hwords : deriveLeanProjectionCoefficientsV3 p statement nonce.bytes x output = .ok words) :
    verifyLeanProjectionFoldV3 p statement fold nonce.bytes x output catalog.bytes = .ok () ↔
      (∀ row ∈ fold.foldedWeights, row.length = statement.paddedInputDim) ∧
        ∀ pair ∈ fold.foldedWeights.zip words,
          (∃ commitment, p.combineRegisteredCatalogU63 catalog pair.2 statement.outputDim =
              .ok commitment ∧ p.commit pair.1 = .ok commitment) ∧
            FoldHolds p x output pair.1 pair.2 := by
  have hcoefficients := deriveLeanProjectionCoefficientsV3_eq_ok (p := p) hnonce hx houtput
  obtain rfl := Except.ok.inj (hwords.symm.trans hcoefficients)
  have hpadded : (x ++ List.replicate (statement.paddedInputDim - statement.inputDim) (0 : ℤ)).length
      = statement.paddedInputDim := by
    rw [List.length_append, List.length_replicate, hx.length_eq]
    exact Nat.add_sub_cancel' statement.inputDim_le
  set words := coefficientRows statement (p.shake256 (transcript p statement nonce x output)
    (leanProjectionFoldCountV3 * statement.outputDim * 4)) with hwordsEq
  have hfolds (hwidth : ∀ row ∈ fold.foldedWeights, row.length = statement.paddedInputDim) :
      (∀ item ∈ (fold.foldedWeights.zip words).zipIdx, Accepts (verifyFold p statement catalog
        (x ++ List.replicate (statement.paddedInputDim - statement.inputDim) 0) output item.2
        item.1.1 item.1.2)) ↔
      ∀ pair ∈ fold.foldedWeights.zip words,
        (∃ commitment, p.combineRegisteredCatalogU63 catalog pair.2 statement.outputDim =
            .ok commitment ∧ p.commit pair.1 = .ok commitment) ∧
          FoldHolds p x output pair.1 pair.2 := by
    have hone {pair : List ℤ × List ℤ} (hpair : pair ∈ fold.foldedWeights.zip words) (index : ℕ) :
        Accepts (verifyFold p statement catalog
          (x ++ List.replicate (statement.paddedInputDim - statement.inputDim) 0) output index
          pair.1 pair.2) ↔
        (∃ commitment, p.combineRegisteredCatalogU63 catalog pair.2 statement.outputDim =
            .ok commitment ∧ p.commit pair.1 = .ok commitment) ∧
          FoldHolds p x output pair.1 pair.2 := by
      obtain ⟨hrow, hu⟩ := List.of_mem_zip hpair
      rw [accepts_verifyFold, FoldHolds, dot_append_replicate_zero, FoldHolds, hpadded,
        hwidth _ hrow, houtput.length_eq,
        (isCoefficients_coefficientRows _ _ hu).length_eq]
      simp
    constructor
    · intro h pair hpair
      obtain ⟨index, hindex, hget⟩ := List.mem_iff_getElem.mp hpair
      exact (hone hpair index).mp (h (pair, index) (List.mem_zipIdx_iff_getElem?.mpr
        (by rw [List.getElem?_eq_getElem hindex, hget])))
    · intro h item hitem
      have hpair := List.fst_mem_of_mem_zipIdx hitem
      exact (hone hpair item.2).mpr (h _ hpair)
  have hwidths : (¬ ∃ row ∈ fold.foldedWeights, row.length ≠ statement.paddedInputDim) ↔
      ∀ row ∈ fold.foldedWeights, row.length = statement.paddedInputDim := by
    simp
  have hlengths : fold.foldedWeights.length = words.length := by
    rw [fold.length_eq, hwordsEq, length_coefficientRows]
  simp only [verifyLeanProjectionFoldV3, exceptListed_eq_ok, fixed32_bytes hcatalog,
    bind_eq_ok, raiseIf_eq_ok, hwidths, signedI8Row_eq_ok, signedI64Row_eq_ok, zipStrict_eq_ok]
  constructor
  · rintro ⟨_, hcatalogRead, _, ⟨-, rfl⟩, _, ⟨-, rfl⟩, -, hwidth, _, hderive, _, ⟨-, rfl⟩, hloop⟩
    obtain rfl := Except.ok.inj hcatalogRead
    obtain rfl := Except.ok.inj (hderive.symm.trans hcoefficients)
    exact ⟨hwidth, (hfolds hwidth).mp (forM_accepts_iff.mp ⟨(), hloop⟩)⟩
  · rintro ⟨hwidth, hall⟩
    obtain ⟨_, hloop⟩ := forM_accepts_iff.mpr ((hfolds hwidth).mpr hall)
    exact ⟨catalog, rfl, x, ⟨hx, rfl⟩, output, ⟨houtput, rfl⟩, (), hwidth, words, hcoefficients, _,
      ⟨hlengths, rfl⟩, hloop⟩

/-! ## Counting -/

/-- A coefficient vector as a list. -/
def coefficientList (u : Fin statement.outputDim → Fin (2 ^ 31)) : List ℤ :=
  List.ofFn fun j => ((u j : ℕ) : ℤ)

/-- The coefficient vectors for which a row of outputs satisfies the fold of the columns. -/
def satisfied (p : Platform) (statement : LeanProjectionStatementV3) (columns : List (List ℤ))
    (x output : List ℤ) : Finset (Fin statement.outputDim → Fin (2 ^ 31)) :=
  Finset.univ.filter fun u => FoldHolds p x output
    (combination columns (coefficientList u) statement.paddedInputDim) (coefficientList u)

theorem dot_coefficientList {row : List ℤ} (hrow : row.length = statement.outputDim)
    (u : Fin statement.outputDim → Fin (2 ^ 31)) :
    dot row (coefficientList u) = ∑ j : Fin statement.outputDim, row.getD j 0 * ((u j : ℕ) : ℤ) := by
  have hlength : (coefficientList u).length = statement.outputDim := by
    rw [coefficientList, List.length_ofFn]
  rw [dot_eq_sum (hrow.trans hlength.symm), hlength, Finset.sum_range]
  refine Finset.sum_congr rfl fun j _ => ?_
  rw [List.getD_eq_getElem (coefficientList u) _ (by rw [hlength]; exact j.isLt)]
  simp [coefficientList]

theorem card_satisfied_le (hmodulus : 2 ^ 254 ≤ p.pallasScalarModulus)
    (hcolumns : IsColumns statement columns) (hx : IsI8Row statement.inputDim x)
    (houtput : IsI64Row statement.outputDim output) (hne : output ≠ outputs columns x) :
    (satisfied p statement columns x output).card ≤ 2 ^ (31 * (statement.outputDim - 1)) := by
  set exact' := outputs columns x with hexact
  have hlength : exact'.length = statement.outputDim := by
    rw [hexact, outputs, List.length_map, hcolumns.length_eq]
  -- an output that is wrong
  obtain ⟨i, hi, hwrong⟩ : ∃ i < statement.outputDim, exact'.getD i 0 ≠ output.getD i 0 := by
    by_contra hall
    push Not at hall
    refine hne (List.ext_getElem (houtput.length_eq.trans hlength.symm) fun i h₁ h₂ => ?_)
    have := hall i (by rwa [houtput.length_eq] at h₁)
    rw [List.getD_eq_getElem _ _ h₁, List.getD_eq_getElem _ _ h₂] at this
    exact this.symm
  -- the equation is a sum with one term for each output
  set m := p.pallasScalarModulus with hm
  let term (j : Fin statement.outputDim) (v : Fin (2 ^ 31)) : ZMod m :=
    ((exact'.getD j 0 - output.getD j 0 : ℤ) : ZMod m) * ((v : ℕ) : ZMod m)
  have hequation (u : Fin statement.outputDim → Fin (2 ^ 31)) :
      FoldHolds p x output (combination columns (coefficientList u) statement.paddedInputDim)
        (coefficientList u) ↔ ∑ j, term j (u j) = 0 := by
    have hpadded : x.length ≤ statement.paddedInputDim := by
      rw [hx.length_eq]
      exact statement.inputDim_le
    rw [FoldHolds, dot_combination (fun column h => (hcolumns.isI8Row column h).length_eq) hpadded,
      ← hexact, ← ZMod.intCast_eq_intCast_iff', ← sub_eq_zero, ← Int.cast_sub,
      dot_coefficientList hlength, dot_coefficientList houtput.length_eq,
      ← Finset.sum_sub_distrib, Int.cast_sum]
    simp only [term, ← sub_mul, Int.cast_mul, Int.cast_natCast]
  have hinjective : Function.Injective (term ⟨i, hi⟩) := by
    intro v v' hterm
    have hdvd : (m : ℤ) ∣ (exact'.getD i 0 - output.getD i 0) * ((v : ℕ) - (v' : ℕ) : ℤ) := by
      rw [← ZMod.intCast_zmod_eq_zero_iff_dvd, mul_sub]
      push_cast
      exact sub_eq_zero.mpr (by simpa [term] using hterm)
    have hexactAbs : |exact'.getD i 0| ≤ 2 ^ 46 := by
      have hi' : i < exact'.length := by rwa [hlength]
      rw [List.getD_eq_getElem _ _ hi']
      obtain ⟨column, hcolumn, heq⟩ := List.mem_map.mp (List.getElem_mem hi')
      rw [← heq]
      exact abs_dot_column_le hx (hcolumns.isI8Row column hcolumn)
    have houtputAbs : |output.getD i 0| ≤ 2 ^ 63 := by
      have hi' : i < output.length := by rwa [houtput.length_eq]
      rw [List.getD_eq_getElem _ _ hi']
      obtain ⟨hlow, hhigh⟩ := houtput.signed _ (List.getElem_mem hi')
      exact abs_le.mpr ⟨hlow, hhigh.le⟩
    have hdifference : |exact'.getD i 0 - output.getD i 0| ≤ 2 ^ 64 :=
      (abs_sub _ _).trans (by linarith)
    have hcoefficient : |((v : ℕ) - (v' : ℕ) : ℤ)| ≤ 2 ^ 31 := by
      have := v.isLt
      have := v'.isLt
      rw [abs_le]
      constructor <;> push_cast <;> omega
    -- the product is smaller than the modulus, so it is zero
    have hzero : (exact'.getD i 0 - output.getD i 0) * ((v : ℕ) - (v' : ℕ) : ℤ) = 0 := by
      refine Int.eq_zero_of_abs_lt_dvd hdvd ?_
      have hlarge : (2 : ℤ) ^ 254 ≤ m := by exact_mod_cast hmodulus
      rw [abs_mul]
      calc |exact'.getD i 0 - output.getD i 0| * |((v : ℕ) - (v' : ℕ) : ℤ)|
          ≤ 2 ^ 64 * 2 ^ 31 := mul_le_mul hdifference hcoefficient (abs_nonneg _) (by norm_num)
        _ < 2 ^ 254 := by norm_num
        _ ≤ m := hlarge
    rcases mul_eq_zero.mp hzero with h | h
    · exact absurd (sub_eq_zero.mp h) hwrong
    · exact Fin.ext (by exact_mod_cast sub_eq_zero.mp h)
  have hcount := card_solutions_le (0 : ZMod m) hinjective
  rw [Fintype.card_fin, Fintype.card_fin, ← pow_mul] at hcount
  have hsolutions : satisfied p statement columns x output = solutions term 0 := by
    ext u
    rw [satisfied, solutions, Finset.mem_filter, Finset.mem_filter, hequation]
  rwa [hsolutions]

/-! ## The fold -/

/-- For fewer than `2 ^ 25` outputs the prover stays within 64 bits and its folds satisfy the
verifier; a fold that the verifier accepts is the combination of the registered columns and satisfies
every equation; and a wrong row of outputs satisfies the equation of a fold for at most
`2 ^ (31 * (outputDim - 1))` coefficient vectors. -/
theorem projectionFold_complete_and_sound (hmodulus : 2 ^ 254 ≤ p.pallasScalarModulus)
    (hcolumns : IsColumns statement columns) {catalog : Digest} (hcatalog : catalog ≠ Digest.zero)
    (hregisters : p.Registers catalog statement columns) :
    (statement.outputDim < 2 ^ 25 → ∀ nonce x, nonce ≠ Digest.zero →
      IsI8Row statement.inputDim x →
        ∃ fold, buildLeanProjectionFoldReferenceV3 p statement nonce.bytes x (outputs columns x)
            columns = .ok fold ∧
          verifyLeanProjectionFoldV3 p statement fold nonce.bytes x (outputs columns x)
            catalog.bytes = .ok ()) ∧
      (∀ nonce x output fold, nonce ≠ Digest.zero → IsI8Row statement.inputDim x →
        IsI64Row statement.outputDim output →
        verifyLeanProjectionFoldV3 p statement fold nonce.bytes x output catalog.bytes = .ok () →
          ∃ words, deriveLeanProjectionCoefficientsV3 p statement nonce.bytes x output =
              .ok words ∧
            fold.foldedWeights =
              words.map (fun u => combination columns u statement.paddedInputDim) ∧
            ∀ u ∈ words, FoldHolds p x output
              (combination columns u statement.paddedInputDim) u) ∧
      ∀ x output, IsI8Row statement.inputDim x → IsI64Row statement.outputDim output →
        output ≠ outputs columns x →
          (satisfied p statement columns x output).card ≤
            2 ^ (31 * (statement.outputDim - 1)) := by
  refine ⟨?_, ?_, ?_⟩
  · intro hsmall nonce x hnonce hx
    have houtput := isI64Row_outputs hcolumns hx
    obtain ⟨fold, words, hbuild, hderive, hfolds⟩ :=
      buildLeanProjectionFoldReferenceV3_eq_ok (p := p) hnonce hx houtput hcolumns hsmall
    have hwords : ∀ u ∈ words, IsCoefficients statement u := by
      obtain rfl := Except.ok.inj
        (hderive.symm.trans (deriveLeanProjectionCoefficientsV3_eq_ok hnonce hx houtput))
      exact isCoefficients_coefficientRows _
    refine ⟨fold, hbuild, (verifyLeanProjectionFoldV3_eq_ok hnonce hcatalog hx houtput hderive).mpr
      ⟨?_, ?_⟩⟩
    · intro row hrow
      rw [hfolds] at hrow
      obtain ⟨u, -, rfl⟩ := List.mem_map.mp hrow
      exact length_combination _ _ _
    · intro pair hpair
      have hzip : fold.foldedWeights.zip words =
          words.map fun u => (combination columns u statement.paddedInputDim, u) := by
        rw [hfolds, zip_map_self]
      rw [hzip] at hpair
      obtain ⟨u, hu, rfl⟩ := List.mem_map.mp hpair
      refine ⟨hregisters.homomorphic u (hwords u hu)
        (isI64Row_combination hcolumns (hwords u hu) hsmall), ?_⟩
      rw [FoldHolds, dot_combination (fun column h => (hcolumns.isI8Row column h).length_eq)
        (hx.length_eq.le.trans statement.inputDim_le)]
  · intro nonce x output fold hnonce hx houtput hverify
    have hderive := deriveLeanProjectionCoefficientsV3_eq_ok (p := p) hnonce hx houtput
    set words := coefficientRows statement (p.shake256 (transcript p statement nonce x output)
      (leanProjectionFoldCountV3 * statement.outputDim * 4)) with hwords
    have hcoefficients : ∀ u ∈ words, IsCoefficients statement u := isCoefficients_coefficientRows _
    obtain ⟨hwidth, hpairs⟩ := (verifyLeanProjectionFoldV3_eq_ok hnonce hcatalog hx houtput
      hderive).mp hverify
    have hlength : fold.foldedWeights.length = words.length := by
      rw [fold.length_eq, hwords, length_coefficientRows]
    have hfolds : fold.foldedWeights =
        words.map fun u => combination columns u statement.paddedInputDim := by
      refine List.ext_getElem (by rw [List.length_map, hlength]) fun k h₁ h₂ => ?_
      have hk : k < words.length := by rwa [List.length_map] at h₂
      have hmem : (fold.foldedWeights[k], words[k]) ∈ fold.foldedWeights.zip words := by
        rw [← List.getElem_zip (h := by rw [List.length_zip, hlength, min_self]; exact hk)]
        exact List.getElem_mem _
      obtain ⟨⟨commitment, hexpected, hactual⟩, -⟩ := hpairs _ hmem
      rw [List.getElem_map]
      exact hregisters.binding _ _ commitment (hcoefficients _ (List.getElem_mem hk))
        ⟨hwidth _ (List.getElem_mem h₁), fold.signed _ (List.getElem_mem h₁)⟩ hexpected hactual
    refine ⟨words, hderive, hfolds, ?_⟩
    intro u hu
    refine (hpairs (_, u) ?_).2
    rw [hfolds, zip_map_self]
    exact List.mem_map.mpr ⟨u, hu, rfl⟩
  · intro x output hx houtput hne
    exact card_satisfied_le hmodulus hcolumns hx houtput hne

/-! ## One weight -/

/-- A platform whose commitment to a row is the row, for the catalog of the column `[3]`. -/
def onePlatform : Platform where
  sha256 _ := Digest.fill 1
  shake256 _ length := List.replicate length 1
  length_shake256 _ _ := List.length_replicate
  Commitment := List ℤ
  decEq := inferInstance
  commit row := .ok row
  combineRegisteredCatalogU63 _ coefficients _ := .ok (combination [[3]] coefficients 1)
  pallasScalarModulus :=
    28948022309329048855892746252171976963363056481941647379679742748393362948097

/-- A statement with one input and one output. -/
def oneStatement : LeanProjectionStatementV3 where
  validatorBindingDigest := Digest.fill 1
  operationDigest := Digest.fill 1
  inputDim := 1
  paddedInputDim := 1
  outputDim := 1
  binding_ne_zero := by decide
  operation_ne_zero := by decide
  inputDim_pos := one_pos
  outputDim_pos := one_pos
  paddedInputDim_pow := rfl
  inputDim_le := le_rfl
  outputDim_lt := by norm_num
  paddedInputDim_lt := by norm_num

/-- The input 2 and the weight 3: the output 6 is folded, and 7 satisfies one coefficient at most. -/
theorem projectionFold_complete_and_sound_oneWeight :
    (∃ fold, buildLeanProjectionFoldReferenceV3 onePlatform oneStatement (List.replicate 32 1) [2]
        (outputs [[3]] [2]) [[3]] = .ok fold ∧
      verifyLeanProjectionFoldV3 onePlatform oneStatement fold (List.replicate 32 1) [2]
        (outputs [[3]] [2]) (List.replicate 32 1) = .ok ()) ∧
      (satisfied onePlatform oneStatement [[3]] [2] [7]).card ≤ 1 := by
  have hcolumns : IsColumns oneStatement [[3]] := ⟨rfl, by
    simp only [List.mem_singleton, forall_eq]
    exact ⟨rfl, by norm_num⟩⟩
  have hregisters : onePlatform.Registers (Digest.fill 1) oneStatement [[3]] := by
    refine ⟨fun coefficients _ _ => ⟨_, rfl, rfl⟩, ?_⟩
    intro coefficients row commitment _ _ hexpected hactual
    exact (Except.ok.inj hactual).trans (Except.ok.inj hexpected).symm
  have hx : IsI8Row oneStatement.inputDim [2] := ⟨rfl, by norm_num⟩
  obtain ⟨hcomplete, -, hsound⟩ := projectionFold_complete_and_sound
    (p := onePlatform) (by norm_num [onePlatform]) hcolumns (by decide) hregisters
  constructor
  · exact hcomplete (by norm_num [oneStatement]) (Digest.fill 1) [2] (by decide) hx
  · exact hsound [2] [7] hx ⟨rfl, by norm_num⟩ (by decide)

end Verathos.ProjectionFold
