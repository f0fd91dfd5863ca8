import Verathos.Pcs.Completeness
import Verathos.TerminalArgmax.Soundness

/-!
# Completeness of the terminal argmax

When the prover of the terminal argmax returns, its columns satisfy the relation of the verifier. It
returns when the observed token is the first maximum, the differences fit the limbs and the columns
fit the commitment.

* `accepts_commitColumns_iff`: when the prover returns;
* `satisfies_limbValues`, `values_commitColumns`: the columns it returns satisfy the relation.
-/

namespace Verathos.TerminalArgmax

open Merkle Pcs

/-- What the commitments of a tile rely on: the query count is within the protocol cap, no column is
bound to the zero digest, and the backend commits the canonical values of a cube of at most
`maxVariables` variables and no larger cube. -/
structure Backend.Lawful (backend : Backend) (maxVariables : ℕ) (tileDigest : Digest) : Prop where
  one_le_queryCount : 1 ≤ backend.queryCount
  queryCount_le : backend.queryCount ≤ maxQueryCount
  binding_ne_zero : ∀ tag, columnBinding backend tileDigest tag ≠ Digest.zero
  accepts_commit_iff : ∀ (statement : GoldilocksMultilinearPcsStatementV3) (values : List ℤ),
    statement.cosetProfile = backend.cosetProfile → values.length = 2 ^ statement.variableCount →
    CanonicalVector values →
      (Accepts (backend.commit statement values) ↔ statement.variableCount ≤ maxVariables)

variable {backend : Backend} {maxVariables : ℕ} {tileDigest : Digest} {tag : String}

/-! ## Statements -/

theorem columnPcsStatementV3_eq_ok {variableCount : ℕ}
    {statement : GoldilocksMultilinearPcsStatementV3}
    (h : columnPcsStatementV3 backend tileDigest tag variableCount = .ok statement) :
    statement.variableCount = variableCount ∧ statement.cosetProfile = backend.cosetProfile := by
  rw [columnPcsStatementV3, GoldilocksMultilinearPcsStatementV3.postInit, bind_eq_ok] at h
  obtain ⟨binding, -, h⟩ := h
  split_ifs at h
  obtain rfl := pure_eq_ok.mp h
  exact ⟨rfl, rfl⟩

theorem codeword_le_iff {variableCount : ℕ} :
    2 ^ variableCount * blowup ≤ maxGoldilocksNativeDomainSize ↔ variableCount ≤ 28 := by
  rw [show blowup = 2 ^ 2 from rfl, show maxGoldilocksNativeDomainSize = 2 ^ 30 from rfl, ← pow_add,
    Nat.pow_le_pow_iff_right (by norm_num)]
  omega

theorem accepts_columnPcsStatementV3 (h : backend.Lawful maxVariables tileDigest)
    {variableCount : ℕ} (hpos : 1 ≤ variableCount) :
    Accepts (columnPcsStatementV3 backend tileDigest tag variableCount) ↔ variableCount ≤ 28 := by
  have hbinding : fixedBytes32 (columnBinding backend tileDigest tag).bytes "mlpcs binding" =
      .ok (columnBinding backend tileDigest tag) := fixedBytes32_eq_ok.mpr rfl
  have hqueries : ¬ (backend.queryCount < 1 ∨ backend.queryCount > maxQueryCount) := by
    have := h.one_le_queryCount
    have := h.queryCount_le
    omega
  rw [columnPcsStatementV3, GoldilocksMultilinearPcsStatementV3.postInit, hbinding,
    ← codeword_le_iff]
  change Accepts (dite _ _ _) ↔ _
  rw [dif_neg (h.binding_ne_zero tag)]
  by_cases hcap : 2 ^ variableCount * blowup ≤ maxGoldilocksNativeDomainSize
  · rw [dif_neg (by omega), dif_neg hqueries]
    exact iff_of_true (accepts_ok _) hcap
  · rw [dif_pos (by omega)]
    exact iff_of_false (not_accepts_error _) hcap

/-! ## Columns -/

theorem size_two_pow_sub_one (n : ℕ) : (2 ^ n).size - 1 = n := by
  rw [Nat.size_pow, Nat.add_sub_cancel]

/-- The values that are committed. -/
def committedValues (values : List ℤ) (canonicalInput : Bool) : List ℤ :=
  if canonicalInput then values else values.map (· % goldilocksModulus)

variable {n : ℕ}

theorem commitSuccinctColumnV3_eq_ok {values : List ℤ} {canonicalInput : Bool}
    (hlength : values.length = 2 ^ n) {column : SuccinctColumnV3 backend.Tree} :
    commitSuccinctColumnV3 backend tileDigest tag values canonicalInput = .ok column ↔
      ∃ statement tree, columnPcsStatementV3 backend tileDigest tag n = .ok statement ∧
        backend.commit statement (committedValues values canonicalInput) = .ok tree ∧
        column = { tag := tag, pcsStatement := statement, tree := tree,
                   values := committedValues values canonicalInput } := by
  simp only [commitSuccinctColumnV3, bind_eq_ok, raiseIf_eq_ok, pure_eq_ok, hlength,
    size_two_pow_sub_one, Nat.one_shiftLeft, not_true, ne_eq, not_false_iff, exists_const, true_and,
    @eq_comm _ column]
  constructor
  · rintro ⟨statement, hstatement, tree, htree, rfl⟩
    exact ⟨statement, tree, hstatement, htree, rfl⟩
  · rintro ⟨statement, tree, hstatement, htree, rfl⟩
    exact ⟨statement, hstatement, tree, htree, rfl⟩

theorem accepts_commitSuccinctColumnV3 (h : backend.Lawful maxVariables tileDigest) (hpos : 1 ≤ n)
    {values : List ℤ} {canonicalInput : Bool} (hlength : values.length = 2 ^ n)
    (hcanonical : canonicalInput = true → CanonicalVector values) :
    Accepts (commitSuccinctColumnV3 backend tileDigest tag values canonicalInput) ↔
      n ≤ 28 ∧ n ≤ maxVariables := by
  have hcommitted : (committedValues values canonicalInput).length = 2 ^ n := by
    rw [committedValues]
    split_ifs
    · exact hlength
    · rw [List.length_map, hlength]
  have hcells : CanonicalVector (committedValues values canonicalInput) := by
    rw [committedValues]
    split_ifs with hinput
    · exact hcanonical hinput
    · intro value hvalue
      obtain ⟨v, -, rfl⟩ := List.mem_map.mp hvalue
      exact canonical_emod v
  have hstatements : Accepts (columnPcsStatementV3 backend tileDigest tag n) ↔ n ≤ 28 :=
    accepts_columnPcsStatementV3 h hpos
  rw [← hstatements]
  constructor
  · rintro ⟨column, hcolumn⟩
    obtain ⟨statement, tree, hstatement, htree, -⟩ :=
      (commitSuccinctColumnV3_eq_ok hlength).mp hcolumn
    obtain ⟨hcount, hprofile⟩ := columnPcsStatementV3_eq_ok hstatement
    refine ⟨⟨statement, hstatement⟩, ?_⟩
    rw [← hcount]
    exact (h.accepts_commit_iff statement _ hprofile (by rw [hcommitted, hcount]) hcells).mp
      ⟨tree, htree⟩
  · rintro ⟨⟨statement, hstatement⟩, hmax⟩
    obtain ⟨hcount, hprofile⟩ := columnPcsStatementV3_eq_ok hstatement
    obtain ⟨tree, htree⟩ := (h.accepts_commit_iff statement _ hprofile
      (by rw [hcommitted, hcount]) hcells).mpr (by rwa [hcount])
    exact ⟨_, (commitSuccinctColumnV3_eq_ok hlength).mpr ⟨statement, tree, hstatement, htree, rfl⟩⟩

variable {ordered : List (String × List ℤ)}

theorem length_concat (hlength : ∀ column ∈ ordered, column.2.length = 2 ^ n) :
    ((ordered.flatMap Prod.snd) ++
      List.replicate (((1 <<< (ordered.length - 1).size) - ordered.length) * 2 ^ n) (0 : ℤ)).length
        = 2 ^ (n + (ordered.length - 1).size) := by
  have hblocks : (ordered.flatMap Prod.snd).length = ordered.length * 2 ^ n := by
    rw [List.length_flatMap, List.map_congr_left hlength, List.map_const', List.sum_replicate,
      smul_eq_mul]
  have hle : ordered.length ≤ 2 ^ (ordered.length - 1).size := by
    have := Nat.lt_size_self (ordered.length - 1)
    omega
  rw [List.length_append, List.length_replicate, hblocks, Nat.one_shiftLeft, ← add_mul,
    Nat.add_sub_cancel' hle, pow_add, mul_comm]

theorem accepts_commitSuccinctColumnGroupV3 (h : backend.Lawful maxVariables tileDigest)
    (hpos : 1 ≤ n) (hne : ordered ≠ []) (hlength : ∀ column ∈ ordered, column.2.length = 2 ^ n)
    (hcanonical : ∀ column ∈ ordered, CanonicalVector column.2) :
    Accepts (commitSuccinctColumnGroupV3 backend tileDigest tag ordered) ↔
      n + (ordered.length - 1).size ≤ 28 ∧ n + (ordered.length - 1).size ≤ maxVariables := by
  have hhead : ordered.headI.2.length = 2 ^ n := by
    cases ordered with
    | nil => exact absurd rfl hne
    | cons column ordered => exact hlength column List.mem_cons_self
  have hconcat := length_concat hlength
  have hcells : CanonicalVector ((ordered.flatMap Prod.snd) ++
      List.replicate (((1 <<< (ordered.length - 1).size) - ordered.length) * 2 ^ n) (0 : ℤ)) := by
    intro value hvalue
    rcases List.mem_append.mp hvalue with hvalue | hvalue
    · obtain ⟨column, hcolumn, hvalue⟩ := List.mem_flatMap.mp hvalue
      exact hcanonical column hcolumn value hvalue
    · rw [List.eq_of_mem_replicate hvalue]
      exact ⟨le_rfl, goldilocksModulus_pos⟩
  have hgroup : Accepts (commitSuccinctColumnV3 backend tileDigest tag _ true) ↔ _ :=
    accepts_commitSuccinctColumnV3 h (by omega) hconcat (fun _ => hcells)
  have hlengths : ¬ ∃ column ∈ ordered, column.2.length ≠ 2 ^ n := by
    rintro ⟨column, hcolumn, hne'⟩
    exact hne' (hlength column hcolumn)
  constructor
  · intro haccepts
    simp only [commitSuccinctColumnGroupV3, accepts_bind, hhead, size_two_pow_sub_one] at haccepts
    obtain ⟨-, -, -, -, -, -, group, hgroupValue, -⟩ := haccepts
    exact hgroup.mp ⟨group, hgroupValue⟩
  · intro hcube
    obtain ⟨group, hgroupValue⟩ := hgroup.mpr hcube
    -- the statement of a member has fewer variables than that of the group
    have hmembers : ∃ members, ordered.zipIdx.mapM (fun member => do
        let statement ← columnPcsStatementV3 backend tileDigest member.1.1 n
        return { tag := member.1.1, pcsStatement := statement, tree := group.tree,
                 values := member.1.2, groupTag := some tag,
                 blockPoint := (List.range (ordered.length - 1).size).map fun j =>
                   (member.2 >>> j) &&& 1 } : (String × List ℤ) × ℕ →
                     Result (SuccinctColumnV3 backend.Tree)) = .ok members := by
      rw [exists_mapM_iff]
      intro member _
      obtain ⟨statement, hstatement⟩ : Accepts (columnPcsStatementV3 backend tileDigest member.1.1 n) :=
        (accepts_columnPcsStatementV3 h hpos).mpr (by omega)
      exact ⟨_, bind_eq_ok.mpr ⟨statement, hstatement, rfl⟩⟩
    obtain ⟨members, hmembers⟩ := hmembers
    simp only [commitSuccinctColumnGroupV3, accepts_bind, raiseIf_eq_ok, hhead,
      size_two_pow_sub_one]
    refine ⟨(), hne, (), not_not.mpr (Nat.one_shiftLeft n), (), hlengths, group, hgroupValue,
      members, hmembers, accepts_ok _⟩

theorem values_commitSuccinctColumnGroupV3
    {result : SuccinctColumnV3 backend.Tree × List (SuccinctColumnV3 backend.Tree)}
    (h : commitSuccinctColumnGroupV3 backend tileDigest tag ordered = .ok result) :
    result.2.map (·.values) = ordered.map Prod.snd := by
  simp only [commitSuccinctColumnGroupV3, bind_eq_ok, pure_eq_ok, mapM_eq_ok] at h
  obtain ⟨-, -, -, -, -, -, group, -, members, hmembers, rfl⟩ := h
  have hvalues : List.Forall₂ (fun member column => member.1.2 = column.values)
      ordered.zipIdx members := by
    refine hmembers.imp ?_
    rintro member column ⟨statement, -, rfl⟩
    rfl
  have hequal : ordered.zipIdx.map (fun member => member.1.2) = members.map (·.values) := by
    rw [← List.forall₂_eq_eq_eq, List.forall₂_map_left_iff, List.forall₂_map_right_iff]
    exact hvalues
  rw [← hequal, ← List.zipIdx_map_fst 0 ordered, List.map_map]
  simp

/-! ## The columns of the prover -/

/-- The number of variables of a vocabulary. -/
def variableCount (vocab : ℕ) : ℕ := max 1 (vocab - 1).size

/-- The cubes of the logits and of the limbs fit the commitment. -/
def FitsCommitment (maxVariables vocab limbCount : ℕ) : Prop :=
  variableCount vocab + (limbCount - 1).size ≤ 28 ∧
    variableCount vocab + (limbCount - 1).size ≤ maxVariables

theorem pow2_eq_two_pow (vocab : ℕ) : pow2 vocab = 2 ^ variableCount vocab := by
  rw [pow2, Nat.one_shiftLeft, variableCount]

section

variable {logits : List ℤ} {token count : ℕ}

theorem length_paddedDifferences :
    (paddedDifferences logits token).length = pow2 logits.length := by
  rw [paddedDifferences, differences, List.length_append, List.length_map, List.length_range,
    List.length_replicate, Nat.add_sub_cancel' (le_pow2 _)]

theorem length_fieldLogits : (fieldLogits logits token).length = pow2 logits.length := by
  rw [fieldLogits, List.length_map, List.length_append, List.length_replicate,
    Nat.add_sub_cancel' (le_pow2 _)]

/-- A cell of the padded logits: the logits and then the winner. -/
theorem getD_fieldLogits {j : ℕ} (hj : j < pow2 logits.length) :
    (fieldLogits logits token).getD j 0 =
      (if j < logits.length then logits.getD j 0 else logits.getD token 0) %
        goldilocksModulus := by
  rw [List.getD_eq_getElem _ _ (by rwa [length_fieldLogits])]
  simp only [fieldLogits, List.getElem_map]
  congr 1
  split_ifs with hlt
  · rw [List.getElem_append_left hlt, List.getD_eq_getElem _ _ hlt]
  · rw [List.getElem_append_right (by omega), List.getElem_replicate]

/-- A cell of the padded differences: the differences and then zeros. -/
theorem getD_paddedDifferences {j : ℕ} (hj : j < pow2 logits.length) :
    (paddedDifferences logits token).getD j 0 =
      if j < logits.length then difference logits token j else 0 := by
  rw [List.getD_eq_getElem _ _ (by rwa [length_paddedDifferences])]
  simp only [paddedDifferences, differences]
  split_ifs with hlt
  · rw [List.getElem_append_left (by simpa using hlt), List.getElem_map, List.getElem_range]
  · rw [List.getElem_append_right (by simpa using hlt), List.getElem_replicate]

theorem limbs_getD {j : ℕ} (hj : j < pow2 logits.length) :
    ((limbValues logits token count).map fun limb => limb.getD j 0) =
      Limbs.digits 256 count ((paddedDifferences logits token).getD j 0) := by
  rw [Limbs.digits_eq_map (by norm_num), limbValues, List.map_map]
  apply List.map_congr_left
  intro limb _
  have hlt : j < (paddedDifferences logits token).length := by rwa [length_paddedDifferences]
  rw [Function.comp_apply, List.getD_eq_getElem _ _ (by rwa [List.length_map]), List.getElem_map,
    List.getD_eq_getElem _ _ hlt, pow_256_eq]

theorem satisfies_limbValues (htoken : token < logits.length) (hargmax : LowestArgmax logits token)
    (hfits : ∀ j < logits.length, difference logits token j < 2 ^ (8 * count)) :
    Satisfies logits.length token (logits.getD token 0) (fieldLogits logits token)
      (limbValues logits token count) := by
  refine ⟨?_, ?_⟩
  · rw [getD_fieldLogits (htoken.trans_le (le_pow2 _)), if_pos htoken]
  · intro j hj
    rw [relationAt_iff hj, limbs_getD hj, getD_fieldLogits hj, getD_paddedDifferences hj]
    by_cases hlt : j < logits.length
    · rw [if_pos hlt, if_pos hlt, Limbs.value_digits (by norm_num)
        (lowestArgmax_iff.mp hargmax j hlt) (by rw [← pow_256_eq]; exact hfits j hlt), difference]
      have hmod := Int.emod_add_mul_ediv (logits.getD j 0) goldilocksModulus
      exact ⟨logits.getD j 0 / goldilocksModulus, by linarith⟩
    · -- a padded cell has the winner's logit, no difference and no tie
      rw [if_neg hlt, if_neg hlt, Limbs.value_digits (by norm_num) le_rfl (by positivity),
        if_neg (by omega)]
      have hmod := Int.emod_add_mul_ediv (logits.getD token 0) goldilocksModulus
      exact ⟨logits.getD token 0 / goldilocksModulus, by linarith⟩

theorem forall_mem_differences {P : ℤ → Prop} :
    (∀ value ∈ differences logits token, P value) ↔
      ∀ j < logits.length, P (difference logits token j) := by
  simp [differences]

theorem limbColumns_forall {P : List ℤ → Prop} (h : ∀ limb ∈ limbValues logits token count, P limb) :
    ∀ column ∈ (limbValues logits token count).zipIdx.map fun limb => (limbTag limb.2, limb.1),
      P column.2 := by
  intro column hcolumn
  obtain ⟨limb, hlimb, rfl⟩ := List.mem_map.mp hcolumn
  exact h _ (List.fst_mem_of_mem_zipIdx hlimb)

theorem accepts_commitColumns_iff (h : backend.Lawful maxVariables tileDigest)
    (hcount : 1 ≤ count) :
    Accepts (commitColumns backend tileDigest logits token count) ↔
      LowestArgmax logits token ∧
        (∀ j < logits.length, difference logits token j < 2 ^ (8 * count)) ∧
        FitsCommitment maxVariables logits.length count := by
  have hpos : 1 ≤ variableCount logits.length := le_max_left _ _
  have hlogits : Accepts (commitSuccinctColumnV3 backend tileDigest logitsTag
      (fieldLogits logits token) false) ↔ _ :=
    accepts_commitSuccinctColumnV3 h hpos (by rw [length_fieldLogits, pow2_eq_two_pow])
      (by simp)
  have hlimbs : Accepts (commitSuccinctColumnGroupV3 backend tileDigest limbGroupTag
      ((limbValues logits token count).zipIdx.map fun limb => (limbTag limb.2, limb.1))) ↔
        FitsCommitment maxVariables logits.length count := by
    rw [accepts_commitSuccinctColumnGroupV3 h hpos]
    · rw [FitsCommitment, List.length_map, List.length_zipIdx, limbValues, List.length_map,
        List.length_range]
    · rw [← List.length_pos_iff, List.length_map, List.length_zipIdx, limbValues, List.length_map,
        List.length_range]
      exact hcount
    · refine limbColumns_forall (P := fun limb => limb.length = _) fun limb hlimb => ?_
      obtain ⟨i, -, rfl⟩ := List.mem_map.mp hlimb
      rw [List.length_map, length_paddedDifferences, pow2_eq_two_pow]
    · refine limbColumns_forall (P := CanonicalVector) fun limb hlimb => ?_
      obtain ⟨i, -, rfl⟩ := List.mem_map.mp hlimb
      intro cell hcell
      obtain ⟨value, -, rfl⟩ := List.mem_map.mp hcell
      have := Int.emod_nonneg (value / 2 ^ (8 * i)) (b := 256) (by norm_num)
      have := Int.emod_lt_of_pos (value / 2 ^ (8 * i)) (b := 256) (by norm_num)
      rw [Canonical, goldilocksModulus_eq]
      omega
  have hnegative : (¬ ∃ value ∈ differences logits token, value < 0) ↔
      LowestArgmax logits token := by
    rw [lowestArgmax_iff, ← forall_mem_differences (P := fun value => 0 ≤ value)]
    simp
  have hlarge : (¬ ∃ value ∈ differences logits token, 2 ^ (8 * count) ≤ value) ↔
      ∀ j < logits.length, difference logits token j < 2 ^ (8 * count) := by
    rw [← forall_mem_differences (P := fun value => value < 2 ^ (8 * count))]
    simp
  simp only [commitColumns, accepts_bind, raiseIf_eq_ok, hnegative, hlarge]
  constructor
  · rintro ⟨-, hargmax, -, hfits, -, -, limbs, hgroup, -⟩
    exact ⟨hargmax, hfits, hlimbs.mp ⟨limbs, hgroup⟩⟩
  · rintro ⟨hargmax, hfits, hcube⟩
    obtain ⟨group, hgroup⟩ := hlimbs.mpr hcube
    obtain ⟨column, hcolumn⟩ := hlogits.mpr
      ⟨(Nat.le_add_right _ _).trans hcube.1, (Nat.le_add_right _ _).trans hcube.2⟩
    exact ⟨(), hargmax, (), hfits, column, hcolumn, group, hgroup, accepts_ok _⟩

theorem values_commitColumns {columns : Columns backend.Tree}
    (h : commitColumns backend tileDigest logits token count = .ok columns) :
    columns.logitsColumn.values = fieldLogits logits token ∧
      columns.limbColumns.map (·.values) = limbValues logits token count := by
  simp only [commitColumns, bind_eq_ok, pure_eq_ok] at h
  obtain ⟨-, -, -, -, column, hcolumn, group, hgroup, rfl⟩ := h
  constructor
  · obtain ⟨_, _, -, -, rfl⟩ := (commitSuccinctColumnV3_eq_ok
      (by rw [length_fieldLogits, pow2_eq_two_pow])).mp hcolumn
    rw [committedValues, if_neg (by simp), fieldLogits, List.map_map]
    simp [Function.comp_def]
  · rw [values_commitSuccinctColumnGroupV3 hgroup, List.map_map]
    exact List.zipIdx_map_fst 0 _

end

end Verathos.TerminalArgmax
