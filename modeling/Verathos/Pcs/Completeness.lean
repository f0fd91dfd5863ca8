import Verathos.Merkle.Completeness
import Verathos.Pcs.Refinement

/-!
# Honest openings are accepted

The prover folds coefficient vectors, the verifier folds pairs of codeword entries. `HonestLayer`
says what the codeword of a layer is: the values of the coefficient polynomial on the layer
coset. A fold of the coefficients is a fold of the codeword, so the
run of the prover passes every check of the verifier (`open_complete`).
-/

namespace Verathos.Pcs

open Merkle Multilinear

/-! ## Codewords -/

/-- The codeword of a layer: the polynomial with the coefficients `values` on the layer coset. -/
structure HonestLayer (statement : GoldilocksMultilinearPcsStatementV3) (shift : ℤ)
    (layerIndex : ℕ) (values codeword : List ℤ) : Prop where
  length_eq : codeword.length = 2 ^ (statement.variableCount + 2 - layerIndex)
  canonical : CanonicalVector codeword
  entries : ∀ i < 2 ^ (statement.variableCount + 2 - layerIndex),
    fieldAt codeword i = evalPoly (2 ^ (statement.variableCount - layerIndex)) (fieldAt values)
      (layerPoint statement shift layerIndex i)

section Layer

variable {sha256 : Bytes → Digest} {statement : GoldilocksMultilinearPcsStatementV3} {shift : ℤ}
  {layerIndex : ℕ} {values codeword : List ℤ}

theorem encode_spec (hshift : statement.baseShift sha256 = .ok shift)
    (hcap : statement.variableCount + 2 ≤ 16) (hlayer : layerIndex ≤ statement.variableCount)
    (hlength : values.length = 2 ^ (statement.variableCount - layerIndex))
    (hcanonical : CanonicalVector values) :
    ∃ codeword, encode sha256 statement values layerIndex = .ok codeword ∧
      HonestLayer statement shift layerIndex values codeword := by
  set h := statement.variableCount + 2 - layerIndex with hh
  have hheight : h ≤ 16 := by omega
  have hle : values.length ≤ 2 ^ h := by
    rw [hlength]
    exact Nat.pow_le_pow_right (by norm_num) (by omega)
  obtain ⟨root, hroot, -, hvalue⟩ := principalRoot_spec (show h ≤ 32 by omega)
  set domain : GoldilocksRadix2DomainReference := ⟨2 ^ h, shiftPow shift layerIndex, root⟩
  set padded := values ++ List.replicate (2 ^ h - values.length) 0 with hpadded
  have hpaddedLength : padded.length = 2 ^ h := by
    rw [hpadded, List.length_append, List.length_replicate]
    omega
  have hpaddedCanonical : CanonicalVector padded := by
    intro v hv
    rcases List.mem_append.mp hv with hv | hv
    · exact hcanonical v hv
    · rw [List.eq_of_mem_replicate hv]
      exact ⟨le_rfl, goldilocksModulus_pos⟩
  obtain ⟨codeword, hcodeword, hcodeLength, hcodeCanonical, hentries⟩ :=
    nttGoldilocksReference_spec domain hheight rfl hvalue hpaddedLength hpaddedCanonical
  refine ⟨codeword, ?_, hcodeLength, hcodeCanonical, fun i hi => ?_⟩
  · have hne : shiftPow shift layerIndex ≠ 0 := by
      intro hzero
      have hcast := intCast_shiftPow shift layerIndex
      rw [hzero, Int.cast_zero] at hcast
      exact pow_ne_zero _ (baseShift_spec hshift).2 hcast.symm
    simp only [encode, domainShift, goldilocksRadix2DomainReference, bind_eq_ok, pure_eq_ok,
      canonicalGoldilocks_eq_ok, raiseIf_eq_ok,
      codewordSize_shiftRight statement (show layerIndex ≤ statement.variableCount + 2 by omega)]
    exact ⟨_, ⟨shift, hshift, rfl⟩, domain, ⟨_, radix2Size_two_pow _ (by omega) fun _ => hheight, _,
      ⟨canonical_shiftPow shift layerIndex, rfl⟩, (), hne, root, hroot, rfl⟩, hcodeword⟩
  · rw [hentries i hi, evalPoly, layerPoint, ← intCast_shiftPow, ← hlength]
    refine (Finset.sum_subset_zero_on_sdiff (Finset.range_mono hle) (fun m hm => ?_)
      fun m hm => ?_).symm
    · -- the padding holds zeros
      have hm' : values.length ≤ m := by
        simpa using (Finset.mem_sdiff.mp hm).2
      obtain ⟨k, rfl⟩ := Nat.exists_eq_add_of_le hm'
      rw [hpadded, fieldAt_append_right _ rfl]
      simp [fieldAt]
    · rw [hpadded, fieldAt_append_left _ (Finset.mem_range.mp hm)]

theorem HonestLayer.table (h : HonestLayer statement shift layerIndex values codeword)
    (hcap : statement.variableCount + 2 ≤ 16) :
    Table (statement.variableCount + 2 - layerIndex) 1 (codeword.map fun value => [value]) where
  length_eq := by rw [List.length_map, h.length_eq]
  height_le := by omega
  width_le := ⟨le_rfl, by norm_num [maxLeafWidth]⟩
  isRow := by
    intro row hrow
    obtain ⟨value, hvalue, rfl⟩ := List.mem_map.mp hrow
    exact ⟨rfl, by simpa using h.canonical value hvalue⟩
  values_le := by
    rw [mul_one]
    exact Nat.pow_le_pow_right (by norm_num) (by omega)

/-- The tree of an honest layer. -/
def honestLayerTree (sha256 : Bytes → Digest) (statement : GoldilocksMultilinearPcsStatementV3)
    (layerIndex : ℕ) (codeword : List ℤ) : GoldilocksMerkleTreeReference :=
  honestTree sha256 (statement.layerBindingDigest sha256 layerIndex)
    (statement.variableCount + 2 - layerIndex) 1 (codeword.map fun value => [value])

theorem layerTree_spec (sha256 : Bytes → Digest)
    (h : HonestLayer statement shift layerIndex values codeword)
    (hcap : statement.variableCount + 2 ≤ 16) :
    layerTree sha256 statement codeword layerIndex =
      .ok (honestLayerTree sha256 statement layerIndex codeword) :=
  fromRows_eq_ok sha256 _ (h.table hcap)

end Layer

theorem fold_entries {statement : GoldilocksMultilinearPcsStatementV3} {shift : ℤ}
    {layerIndex : ℕ} {values codeword childCodeword : List ℤ} (challenge : ℤ)
    (hshift : (shift : F) ≠ 0) (hlayer : layerIndex < statement.variableCount)
    (hlength : values.length = 2 ^ (statement.variableCount - layerIndex))
    (hparent : HonestLayer statement shift layerIndex values codeword)
    (hchild : HonestLayer statement shift (layerIndex + 1) (foldPairs values challenge)
      childCodeword) {i : ℕ} (hi : i < 2 ^ (statement.variableCount + 1 - layerIndex)) :
    (1 - (challenge : F)) * ((fieldAt codeword i +
          fieldAt codeword (i + 2 ^ (statement.variableCount + 1 - layerIndex))) * inv2) +
        challenge * ((fieldAt codeword i -
          fieldAt codeword (i + 2 ^ (statement.variableCount + 1 - layerIndex))) * inv2 *
            (layerPoint statement shift layerIndex i)⁻¹) =
      fieldAt childCodeword i := by
  have hcap := variableCount_add_two_le statement
  set h := statement.variableCount + 1 - layerIndex with hh
  have hsucc : statement.variableCount + 2 - layerIndex = h + 1 := by omega
  have hx := layerPoint_ne_zero statement hshift layerIndex i
  -- the partner of a point is its negative, and the square of a point is the child's point
  have hneg := layerPoint_add_half statement shift hlayer.le i
  have hsquare := layerPoint_sq statement shift hlayer.le i
  have hcount : 2 ^ (statement.variableCount - layerIndex) =
      2 * 2 ^ (statement.variableCount - (layerIndex + 1)) := by
    rw [← pow_succ']
    congr 1
    omega
  have hiParent : i + 2 ^ h < 2 ^ (statement.variableCount + 2 - layerIndex) := by
    rw [hsucc, pow_succ]
    omega
  have hiChild : i < 2 ^ (statement.variableCount + 2 - (layerIndex + 1)) := by
    rwa [show statement.variableCount + 2 - (layerIndex + 1) = h by omega]
  rw [hparent.entries i (by omega), hparent.entries (i + 2 ^ h) hiParent,
    hchild.entries i hiChild, hneg, hcount,
    evalPoly_fold two_mul_inv2 (mul_inv_cancel₀ hx), hsquare]
  refine evalPoly_congr (fun j hj => (fieldAt_foldPairs challenge ?_).symm) _
  rw [hlength, hcount, Nat.mul_div_cancel_left _ (by norm_num)]
  exact hj

/-! ## The rounds -/

section Rounds

variable {sha256 : Bytes → Digest} {statement : GoldilocksMultilinearPcsStatementV3} {shift : ℤ}

/-- The run of the prover's rounds from round `roundIndex` on: it derives a challenge for every
round, folds the values by them and commits the codeword of every folded vector. -/
structure HonestRun (sha256 : Bytes → Digest) (statement : GoldilocksMultilinearPcsStatementV3)
    (shift : ℤ) (roundIndex remaining : ℕ) (values challenges : List ℤ) (opened : OpenedRounds) :
    Prop where
  length_challenges : challenges.length = remaining
  length_rounds : opened.rounds.length = remaining
  length_layerTrees : opened.layerTrees.length = remaining
  values_eq : opened.values = challenges.foldl foldPairs values
  layers : ∀ k < remaining, ∃ codeword,
    HonestLayer statement shift (roundIndex + k + 1) (boundVector values challenges (k + 1))
      codeword ∧
    opened.layerTrees[k]? = some (honestLayerTree sha256 statement (roundIndex + k + 1) codeword)

/-- The verifier follows the run and ends in the product of the bound values and weights. -/
def Followed (sha256 : Bytes → Digest) (roundIndex remaining : ℕ) (values weights : List ℤ)
    (transcript : Digest) (challenges : List ℤ) (opened : OpenedRounds) : Prop :=
  ∀ (layerCommitments : List Bytes) (running : ℤ),
    (∀ k < remaining, layerCommitments[roundIndex + k]? =
      opened.layerTrees[k]?.map (·.commitment.bytes)) →
    Canonical running →
    (running : F) = Multilinear.inner remaining (fieldAt values) (fieldAt weights) →
    ∃ last, verifyRounds sha256 layerCommitments opened.rounds roundIndex running transcript =
        .ok (last, challenges, opened.transcript) ∧ Canonical last ∧
      (last : F) = fieldAt (challenges.foldl foldPairs values) 0 *
        fieldAt (challenges.foldl foldPairs weights) 0

private theorem followed_cons {roundIndex remaining : ℕ} {values weights : List ℤ}
    {transcript : Digest} {challenge : ℤ} {challenges : List ℤ} {tree : GoldilocksMerkleTreeReference}
    {opened : OpenedRounds} (hvalues : values.length = 2 ^ (remaining + 1))
    (hweights : weights.length = 2 ^ (remaining + 1))
    (hchallenge : deriveField sha256
      (absorbRound sha256 transcript (roundPolynomial values weights)) foldLabel roundIndex =
        .ok challenge)
    (hrest : Followed sha256 (roundIndex + 1) remaining (foldPairs values challenge)
      (foldPairs weights challenge)
      (sha256 ((absorbRound sha256 transcript (roundPolynomial values weights)).bytes ++
        tree.commitment.bytes)) challenges opened) :
    Followed sha256 roundIndex (remaining + 1) values weights transcript (challenge :: challenges)
      { opened with rounds := roundPolynomial values weights :: opened.rounds,
                    layerTrees := tree :: opened.layerTrees } := by
  intro layerCommitments running hcommitments hrunning hsum
  obtain ⟨hcanonical, hfield⟩ := roundPolynomial_spec weights hvalues
  set g := roundPolynomial values weights with hg
  have hfirst : (g.1 + g.2.1) % goldilocksModulus = running := by
    refine (hrunning.eq_emod_iff.mpr ?_).symm
    rw [hsum, ← honestRound_sum, ← hfield, Int.cast_add]
    rfl
  have hnext : (recombine g challenge : F) = Multilinear.inner remaining
      (fieldAt (foldPairs values challenge)) (fieldAt (foldPairs weights challenge)) := by
    rw [intCast_recombine, hfield, quad_honestRound two_mul_inv2]
    refine inner_congr (fun i hi => (fieldAt_foldPairs challenge ?_).symm)
      fun i hi => (fieldAt_foldPairs challenge ?_).symm
    · rwa [hvalues, pow_succ, Nat.mul_div_cancel _ (by norm_num)]
    · rwa [hweights, pow_succ, Nat.mul_div_cancel _ (by norm_num)]
  obtain ⟨last, hverify, hlast, hvalue⟩ := hrest layerCommitments (recombine g challenge)
    (fun k hk => by
      have h := hcommitments (k + 1) (by omega)
      rwa [← Nat.add_assoc, Nat.add_right_comm] at h)
    (canonical_emod _) hnext
  refine ⟨last, ?_, hlast, hvalue⟩
  have hroot : layerCommitments[roundIndex]? = some tree.commitment.bytes :=
    hcommitments 0 (by omega)
  exact verifyRounds_cons_eq_ok.mpr
    ⟨hcanonical, hfirst, challenge, _, challenges, hchallenge, hroot, hverify, rfl⟩

theorem exists_openRounds (hshift : statement.baseShift sha256 = .ok shift)
    (hderive : ∀ transcript roundIndex, Accepts (deriveField sha256 transcript foldLabel roundIndex))
    (hcap : statement.variableCount + 2 ≤ 16) (remaining : ℕ) {roundIndex : ℕ}
    {values weights : List ℤ} (transcript : Digest)
    (hrounds : roundIndex + remaining = statement.variableCount)
    (hvalues : values.length = 2 ^ remaining) :
    ∃ opened, openRounds sha256 statement remaining roundIndex values weights transcript =
      .ok opened := by
  induction remaining generalizing roundIndex values weights transcript with
  | zero => exact ⟨_, rfl⟩
  | succ remaining ih =>
    obtain ⟨challenge, hchallenge⟩ := hderive
      (absorbRound sha256 transcript (roundPolynomial values weights)) roundIndex
    have hhalf : (foldPairs values challenge).length = 2 ^ remaining := by
      rw [length_foldPairs, hvalues, pow_succ, Nat.mul_div_cancel _ (by norm_num)]
    obtain ⟨codeword, hencode, hlayer⟩ := encode_spec hshift hcap
      (show roundIndex + 1 ≤ statement.variableCount by omega)
      (hhalf.trans (by rw [← hrounds]; congr 1; omega)) (canonicalVector_foldPairs values challenge)
    have htree := layerTree_spec sha256 hlayer hcap
    obtain ⟨opened, hopen⟩ := @ih _ (foldPairs values challenge) (foldPairs weights challenge)
      (sha256 ((absorbRound sha256 transcript (roundPolynomial values weights)).bytes ++
        (honestLayerTree sha256 statement (roundIndex + 1) codeword).commitment.bytes))
      (show roundIndex + 1 + remaining = statement.variableCount by omega) hhalf
    simp only [openRounds, bind_eq_ok, pure_eq_ok]
    exact ⟨_, challenge, hchallenge, codeword, hencode, _, htree, opened, hopen, rfl⟩

theorem openRounds_eq_ok (hshift : statement.baseShift sha256 = .ok shift)
    (hcap : statement.variableCount + 2 ≤ 16) {remaining roundIndex : ℕ}
    {values weights : List ℤ} {transcript : Digest} {opened : OpenedRounds}
    (hrounds : roundIndex + remaining = statement.variableCount)
    (hvalues : values.length = 2 ^ remaining) (hweights : weights.length = 2 ^ remaining)
    (hopen : openRounds sha256 statement remaining roundIndex values weights transcript =
      .ok opened) :
    ∃ challenges, HonestRun sha256 statement shift roundIndex remaining values challenges opened ∧
      Followed sha256 roundIndex remaining values weights transcript challenges opened := by
  induction remaining generalizing roundIndex values weights transcript opened with
  | zero =>
    obtain rfl := Except.ok.inj hopen
    refine ⟨[], ⟨rfl, rfl, rfl, rfl, by simp⟩, fun _ running _ hrunning hsum => ?_⟩
    exact ⟨running, rfl, hrunning, by simpa [Multilinear.inner] using hsum⟩
  | succ remaining ih =>
    simp only [openRounds, bind_eq_ok, pure_eq_ok] at hopen
    obtain ⟨challenge, hchallenge, codeword, hencode, tree, htree, opened, hrest, rfl⟩ := hopen
    have hhalfV : (foldPairs values challenge).length = 2 ^ remaining := by
      rw [length_foldPairs, hvalues, pow_succ, Nat.mul_div_cancel _ (by norm_num)]
    have hhalfW : (foldPairs weights challenge).length = 2 ^ remaining := by
      rw [length_foldPairs, hweights, pow_succ, Nat.mul_div_cancel _ (by norm_num)]
    obtain ⟨codeword', hencode', hlayer⟩ := encode_spec hshift hcap
      (show roundIndex + 1 ≤ statement.variableCount by omega)
      (hhalfV.trans (by rw [← hrounds]; congr 1; omega)) (canonicalVector_foldPairs values challenge)
    obtain rfl := Except.ok.inj (hencode.symm.trans hencode')
    obtain rfl := Except.ok.inj (htree.symm.trans (layerTree_spec sha256 hlayer hcap))
    obtain ⟨challenges, hrun, hfollowed⟩ := ih
      (show roundIndex + 1 + remaining = statement.variableCount by omega) hhalfV hhalfW hrest
    refine ⟨challenge :: challenges, ?_, followed_cons hvalues hweights hchallenge hfollowed⟩
    refine ⟨by rw [List.length_cons, hrun.length_challenges],
      by rw [List.length_cons, hrun.length_rounds],
      by rw [List.length_cons, hrun.length_layerTrees], hrun.values_eq, fun k hk => ?_⟩
    cases k with
    | zero => exact ⟨codeword, hlayer, rfl⟩
    | succ k =>
      obtain ⟨codeword', hlayer', htree'⟩ := hrun.layers k (by omega)
      rw [show roundIndex + 1 + k + 1 = roundIndex + (k + 1) + 1 by omega] at hlayer' htree'
      exact ⟨codeword', hlayer', htree'⟩

end Rounds

/-! ## The claimed value -/

theorem claimLoop_spec {values weights : List ℤ} (hlength : values.length = weights.length)
    {start : ℤ} (hstart : Canonical start) :
    ∃ claimed, claimLoop values weights start = .ok claimed ∧ Canonical claimed ∧
      (claimed : F) = start +
        ∑ i ∈ Finset.range values.length, fieldAt values i * fieldAt weights i := by
  induction values generalizing weights start with
  | nil =>
    obtain rfl := List.length_eq_zero_iff.mp hlength.symm
    exact ⟨start, rfl, hstart, by simp⟩
  | cons value values ih =>
    obtain ⟨weight, weights, rfl⟩ := List.exists_cons_of_length_eq_add_one hlength.symm
    obtain ⟨claimed, hloop, hcanonical, hvalue⟩ := ih (Nat.succ.inj hlength)
      (canonical_emod (start + value * weight))
    refine ⟨claimed, hloop, hcanonical, ?_⟩
    rw [hvalue, intCast_emod, List.length_cons, Finset.sum_range_succ', Int.cast_add, Int.cast_mul]
    simp only [fieldAt, List.getD_cons_succ, List.getD_cons_zero]
    ring

/-! ## The openings -/

section Openings

variable {sha256 : Bytes → Digest} {statement : GoldilocksMultilinearPcsStatementV3} {shift : ℤ}

variable (statement) in
theorem layerQueryIndices_admitted {positions : List ℕ} (hpositions : positions ≠ []) {l : ℕ}
    (hl : l ≤ statement.variableCount) :
    IndicesAdmitted (2 ^ (statement.variableCount + 2 - l))
      (layerQueryIndices positions (statement.codewordSize >>> l) (l = statement.variableCount)) := by
  have hsize := codewordSize_shiftRight statement (show l ≤ statement.variableCount + 2 by omega)
  have hhalf := codewordSize_half statement hl
  have hpos : 0 < 2 ^ (statement.variableCount + 1 - l) := by positivity
  have hdouble : 2 ^ (statement.variableCount + 2 - l) = 2 * 2 ^ (statement.variableCount + 1 - l) := by
    rw [← pow_succ']
    congr 1
    omega
  refine ⟨?_, fun index hindex => ?_, (Finset.sortedLT_sort _).pairwise⟩
  · obtain ⟨position, hposition⟩ := List.exists_mem_of_ne_nil _ hpositions
    refine List.ne_nil_of_mem (a := if l = statement.variableCount
      then position % (statement.codewordSize >>> l)
      else position % (statement.codewordSize >>> l / 2)) ?_
    rw [mem_layerQueryIndices]
    refine ⟨position, hposition, ?_⟩
    by_cases hfinal : l = statement.variableCount
    · simp [hfinal]
    · simp [hfinal]
  · obtain ⟨position, -, hcase⟩ := mem_layerQueryIndices.mp hindex
    rw [hsize, ← hsize, hhalf, hsize] at hcase
    split_ifs at hcase
    · rw [hcase]
      exact Nat.mod_lt _ (by positivity)
    · have := Nat.mod_lt position hpos
      omega

theorem openLayer_eq_ok {lib : Bool} {tree : GoldilocksMerkleTreeReference} {indices : List ℕ}
    {opening : GoldilocksMerkleMultiOpeningReference} (h : tree.open lib indices = .ok opening) :
    ∃ o : ConstructedOpening, openLayer lib tree indices = .ok o ∧ o.opening = opening := by
  refine ⟨⟨opening, admitted_of_open h⟩, ?_, rfl⟩
  unfold openLayer
  split
  · next opening' h' =>
    obtain rfl := Except.ok.inj (h.symm.trans h')
    rfl
  · next error h' => exact nomatch h.symm.trans h'

theorem openLayers_spec (lib : Bool) (positions : List ℕ) {trees : List GoldilocksMerkleTreeReference}
    {layerIndex : ℕ} (opening : ℕ → GoldilocksMerkleMultiOpeningReference)
    (h : ∀ (k : ℕ) (tree : GoldilocksMerkleTreeReference), trees[k]? = some tree →
      tree.open lib (layerQueryIndices positions
      (statement.codewordSize >>> (layerIndex + k)) (layerIndex + k = statement.variableCount)) =
        .ok (opening (layerIndex + k))) :
    ∃ openings, openLayers statement lib positions trees layerIndex = .ok openings ∧
      openings.length = trees.length ∧
      ∀ k o, openings[k]? = some o → o.opening = opening (layerIndex + k) := by
  induction trees generalizing layerIndex with
  | nil => exact ⟨[], rfl, rfl, by simp⟩
  | cons tree trees ih =>
    obtain ⟨first, hfirst, hopening⟩ := openLayer_eq_ok (h 0 tree rfl)
    have hnext : ∀ (k : ℕ) (tree' : GoldilocksMerkleTreeReference), trees[k]? = some tree' →
        tree'.open lib (layerQueryIndices positions (statement.codewordSize >>> (layerIndex + 1 + k))
          (layerIndex + 1 + k = statement.variableCount)) = .ok (opening (layerIndex + 1 + k)) := by
      intro k tree' hk
      have := h (k + 1) tree' hk
      rwa [← Nat.add_assoc, Nat.add_right_comm] at this
    obtain ⟨openings, hopenings, hlength, hall⟩ := ih hnext
    refine ⟨first :: openings, ?_, by rw [List.length_cons, List.length_cons, hlength], ?_⟩
    · simp only [openLayers, bind_eq_ok, pure_eq_ok]
      exact ⟨first, hfirst, openings, hopenings, rfl⟩
    · intro k o hk
      cases k with
      | zero =>
        obtain rfl : first = o := by simpa using hk
        exact hopening
      | succ k =>
        have := hall k o (by simpa using hk)
        rwa [Nat.add_right_comm, Nat.add_assoc] at this

theorem openedValue_honest {layerIndex : ℕ} {values codeword : List ℤ}
    (hlayer : HonestLayer statement shift layerIndex values codeword) {indices : List ℕ}
    {o : ConstructedOpening}
    (ho : o.opening = honestOpening sha256 (statement.layerBindingDigest sha256 layerIndex)
      (statement.variableCount + 2 - layerIndex) 1 (codeword.map fun value => [value]) indices)
    {i : ℕ} (hi : i ∈ indices) (hlt : i < 2 ^ (statement.variableCount + 2 - layerIndex)) :
    (openedValue o i : F) = fieldAt codeword i := by
  have hrow : o.opening.openedRow i = (codeword.map fun value => [value]).getD i [] := by
    rw [ho]
    exact Multiproof.assoc_map (fun i => (codeword.map fun value => [value]).getD i []) [] hi
  rw [← hlayer.length_eq] at hlt
  have hget : (codeword.map fun value => [value]).getD i [] = [codeword[i]] := by
    rw [List.getD_eq_getElem _ _ (by simpa using hlt), List.getElem_map]
  rw [openedValue, hrow, hget, fieldAt, List.getD_eq_getElem _ _ hlt, List.getD_cons_zero]

end Openings

/-! ## The query phase -/

theorem boundVector_succ (values : List ℤ) {challenges : List ℤ} {l : ℕ} {c : ℤ}
    (hc : challenges[l]? = some c) :
    boundVector values challenges (l + 1) = foldPairs (boundVector values challenges l) c := by
  obtain ⟨hl, rfl⟩ := List.getElem?_eq_some_iff.mp hc
  rw [boundVector, List.take_succ_eq_append_getElem hl, List.foldl_append]
  rfl

theorem length_boundVector {values challenges : List ℤ} {n : ℕ} (hvalues : values.length = 2 ^ n)
    (hlength : challenges.length = n) {l : ℕ} (hl : l ≤ n) :
    (boundVector values challenges l).length = 2 ^ (n - l) := by
  refine (foldl_foldPairs ?_).1
  rw [hvalues, List.length_take, hlength, Nat.min_eq_left hl, ← pow_add]
  congr 1
  omega

section Query

variable {sha256 : Bytes → Digest} {statement : GoldilocksMultilinearPcsStatementV3} {shift : ℤ}
  {values challenges : List ℤ} {positions : List ℕ} {openings : List ConstructedOpening}
  {code : ℕ → List ℤ}

/-- The honest opening of a layer at its query indices. -/
def honestLayerOpening (sha256 : Bytes → Digest) (statement : GoldilocksMultilinearPcsStatementV3)
    (positions : List ℕ) (code : ℕ → List ℤ) (l : ℕ) : GoldilocksMerkleMultiOpeningReference :=
  honestOpening sha256 (statement.layerBindingDigest sha256 l) (statement.variableCount + 2 - l) 1
    ((code l).map fun value => [value])
    (layerQueryIndices positions (statement.codewordSize >>> l) (l = statement.variableCount))

theorem layerAccepted_honest (hcap : statement.variableCount + 2 ≤ 16) (hpositions : positions ≠ [])
    {l : ℕ} (hl : l ≤ statement.variableCount) {v : List ℤ}
    (hlayer : HonestLayer statement shift l v (code l)) {o : ConstructedOpening}
    (ho : o.opening = honestLayerOpening sha256 statement positions code l) :
    LayerAccepted sha256 statement positions
      (honestLayerTree sha256 statement l (code l)).commitment.bytes o l := by
  have haccepted := open_accepted sha256 (statement.layerBindingDigest sha256 l) false
    (hlayer.table hcap) (layerQueryIndices_admitted statement hpositions hl) nofun
  have hopening : honestOpening sha256 (statement.layerBindingDigest sha256 l)
      (statement.variableCount + 2 - l) 1 ((code l).map fun value => [value])
      (layerQueryIndices positions (statement.codewordSize >>> l) (l = statement.variableCount)) =
      o.opening := ho.symm
  rw [hopening, ← codewordSize_shiftRight statement (by omega)] at haccepted
  exact (verify_layer_iff sha256 statement false positions _ o l).mp haccepted

theorem queryAccepted_honest (hcap : statement.variableCount + 2 ≤ 16)
    (hshift : statement.baseShift sha256 = .ok shift)
    (hpositions : positions ≠ []) (hvalues : values.length = 2 ^ statement.variableCount)
    (hlength : challenges.length = statement.variableCount)
    (hlayers : ∀ l ≤ statement.variableCount,
      HonestLayer statement shift l (boundVector values challenges l) (code l))
    (hcount : openings.length = statement.variableCount + 1)
    (hopenings : ∀ k o, openings[k]? = some o →
      o.opening = honestLayerOpening sha256 statement positions code k)
    {finalValue : ℤ} (hfinal : boundVector values challenges statement.variableCount = [finalValue])
    (hcanonical : Canonical finalValue) {roots : List Bytes}
    (hroots : ∀ l ≤ statement.variableCount,
      roots[l]? = some (honestLayerTree sha256 statement l (code l)).commitment.bytes) :
    QueryAccepted sha256 statement shift roots challenges positions openings finalValue := by
  have hle : ∀ {l o}, openings[l]? = some o → l ≤ statement.variableCount := by
    intro l o ho
    have := (List.getElem?_eq_some_iff.mp ho).1
    omega
  have hindices : ∀ {l o}, openings[l]? = some o → o.opening.indices = layerQueryIndices positions
      (statement.codewordSize >>> l) (l = statement.variableCount) := by
    intro l o ho
    rw [hopenings l o ho]
    rfl
  have hvalue : ∀ {l o}, openings[l]? = some o → ∀ i ∈ o.opening.indices,
      (openedValue o i : F) = fieldAt (code l) i := by
    intro l o ho i hi
    rw [hindices ho] at hi
    exact openedValue_honest (hlayers l (hle ho)) (hopenings l o ho) hi
      ((layerQueryIndices_admitted statement hpositions (hle ho)).lt i hi)
  refine ⟨hcount, fun l o root ho hroot => ?_, ?_, ?_⟩
  · obtain rfl := Option.some.inj ((hroots l (hle ho)).symm.trans hroot)
    exact layerAccepted_honest hcap hpositions (hle ho) (hlayers l (hle ho)) (hopenings l o ho)
  · intro l c parent child hc hparent hchild position hposition
    have hl : l < statement.variableCount := by
      rw [← hlength]
      exact (List.getElem?_eq_some_iff.mp hc).1
    obtain ⟨hpos, hneg⟩ := pair_mem_layerQueryIndices hl hposition
    rw [← hindices hparent] at hpos hneg
    have htarget := child_mem_layerQueryIndices hl hposition
    rw [← hindices hchild] at htarget
    have hchildLayer := hlayers (l + 1) hl
    rw [boundVector_succ values hc] at hchildLayer
    have hfold := fold_entries c (baseShift_spec hshift).2 hl
      (length_boundVector hvalues hlength hl.le) (hlayers l hl.le) hchildLayer
      (show position % (statement.codewordSize >>> l / 2) < _ by
        rw [codewordSize_half statement hl.le]
        exact Nat.mod_lt _ (by positivity))
    rw [FoldHolds, hvalue hparent _ hpos, hvalue hparent _ hneg, hvalue hchild _ htarget]
    rw [← codewordSize_half statement hl.le] at hfold
    exact hfold
  · intro o ho i hi
    refine (canonical_openedValue o hi).ext hcanonical ?_
    have hi' := hi
    rw [hindices ho] at hi'
    have hlt := (layerQueryIndices_admitted statement hpositions le_rfl).lt i hi'
    rw [hvalue ho i hi, (hlayers _ le_rfl).entries i hlt, hfinal, Nat.sub_self, pow_zero, evalPoly,
      Finset.sum_range_one, pow_zero, mul_one]
    rfl

end Query

/-! ## Completeness -/

theorem fieldAt_foldl_eqWeights {challenges point : List ℤ}
    (hlength : challenges.length = point.length) :
    fieldAt (challenges.foldl foldPairs (eqWeights point)) 0 =
      (((toField challenges).zip (toField point)).map fun x => eqTerm x.1 x.2).prod := by
  have hsize : (eqWeights point).length = 2 ^ challenges.length * 1 := by
    rw [length_eqWeights, hlength, mul_one]
  rw [(foldl_foldPairs hsize).2 0 Nat.one_pos, ← foldAll_eqWeight (by simp [hlength]) 0]
  refine foldAll_congr (m := 1) (fun i hi => fieldAt_eqWeights ?_) 0 Nat.one_pos
  rwa [length_toField, hlength, mul_one] at hi

theorem mapM_field_eq_ok_iff {values results : List ℤ} {name : String} :
    values.mapM (field · name) = .ok results ↔ CanonicalVector values ∧ results = values := by
  have hfield : ∀ v w : ℤ, field v name = .ok w ↔ Canonical v ∧ w = id v := fun _ _ => field_eq_ok
  rw [mapM_eq_ok_of_iff hfield, List.map_id]
  rfl

theorem mapM_field_eq_ok {values : List ℤ} (name : String) (h : CanonicalVector values) :
    values.mapM (field · name) = .ok values :=
  mapM_field_eq_ok_iff.mpr ⟨h, rfl⟩

section Honest

variable {sha256 : Bytes → Digest} {statement : GoldilocksMultilinearPcsStatementV3} {shift : ℤ}
  {evaluations codeword : List ℤ}

theorem exists_layerCodes {values challenges : List ℤ} {opened : OpenedRounds}
    (hlayer : HonestLayer statement shift 0 values codeword)
    (hrun : HonestRun sha256 statement shift 0 statement.variableCount values challenges opened) :
    ∃ code : ℕ → List ℤ, ∀ l ≤ statement.variableCount,
      HonestLayer statement shift l (boundVector values challenges l) (code l) ∧
      (honestLayerTree sha256 statement 0 codeword :: opened.layerTrees)[l]? =
        some (honestLayerTree sha256 statement l (code l)) := by
  have hcode : ∀ l, ∃ code, l ≤ statement.variableCount →
      HonestLayer statement shift l (boundVector values challenges l) code ∧
      (honestLayerTree sha256 statement 0 codeword :: opened.layerTrees)[l]? =
        some (honestLayerTree sha256 statement l code) := by
    intro l
    cases l with
    | zero => exact ⟨codeword, fun _ => ⟨hlayer, rfl⟩⟩
    | succ l =>
      by_cases hl : l + 1 ≤ statement.variableCount
      · obtain ⟨code, hcode, htree⟩ := hrun.layers l (by omega)
        rw [Nat.zero_add] at hcode htree
        exact ⟨code, fun _ => ⟨hcode, htree⟩⟩
      · exact ⟨[], fun h => absurd h hl⟩
  choose code hcode using hcode
  exact ⟨code, hcode⟩

theorem variableCount_add_two_le_sixteen
    (hcap : statement.codewordSize ≤ maxGoldilocksReferenceDomainSize) :
    statement.variableCount + 2 ≤ 16 := by
  rw [codewordSize_eq] at hcap
  exact (Nat.pow_le_pow_iff_right (by norm_num)).mp hcap

theorem verify_accepts_congr {proof : GoldilocksMultilinearOpeningProofV3} {commitment : Bytes} {point : List ℤ}
    {expectedValue : ℤ} {validatorNonce : Bytes} (lib lib' : Bool) :
    Accepts (verifyGoldilocksMultilinearOpeningV3 sha256 statement lib proof commitment point
        expectedValue validatorNonce) ↔
      Accepts (verifyGoldilocksMultilinearOpeningV3 sha256 statement lib' proof commitment point
        expectedValue validatorNonce) := by
  rw [verify_accepts_iff_python, verify_accepts_iff_python, verifyByPython, verifyByPython,
    accepts_bind, accepts_bind]
  refine exists_congr fun shared => and_congr_right fun hshared => ?_
  obtain ⟨-, -, hrounds⟩ := verifyShared_eq_ok hshared
  rw [verifyPython_accepts_iff lib _ _ _ hrounds, verifyPython_accepts_iff lib' _ _ _ hrounds]

theorem commit_honest (hshift : statement.baseShift sha256 = .ok shift)
    (hsmall : statement.variableCount + 2 ≤ 16)
    (hevaluations : evaluations.length = 2 ^ statement.variableCount)
    (hcanonical : CanonicalVector evaluations) :
    ∃ codeword, HonestLayer statement shift 0 evaluations codeword ∧
      commitGoldilocksMultilinearV3 sha256 statement evaluations =
        .ok (honestLayerTree sha256 statement 0 codeword) := by
  obtain ⟨codeword, hencode, hlayer⟩ := encode_spec hshift hsmall (Nat.zero_le _) hevaluations
    hcanonical
  refine ⟨codeword, hlayer, ?_⟩
  simp only [commitGoldilocksMultilinearV3, bind_eq_ok, raiseIf_eq_ok, not_not]
  exact ⟨(), hevaluations.trans (leafCount_eq statement).symm, _,
    mapM_field_eq_ok _ hcanonical, codeword, hencode, layerTree_spec sha256 hlayer hsmall⟩

theorem commit_eq_ok (hsmall : statement.variableCount + 2 ≤ 16)
    {tree : GoldilocksMerkleTreeReference}
    (h : commitGoldilocksMultilinearV3 sha256 statement evaluations = .ok tree) :
    evaluations.length = 2 ^ statement.variableCount ∧ CanonicalVector evaluations ∧
      ∃ shift codeword, statement.baseShift sha256 = .ok shift ∧
        HonestLayer statement shift 0 evaluations codeword ∧
        tree = honestLayerTree sha256 statement 0 codeword := by
  have hcommit := h
  simp only [commitGoldilocksMultilinearV3, encode, domainShift, bind_eq_ok, raiseIf_eq_ok,
    not_not] at h
  obtain ⟨-, hcount, _, hvalues, _, ⟨_, ⟨shift, hshift, -⟩, -⟩, -⟩ := h
  have hlength := hcount.trans (leafCount_eq statement)
  have hcanonical := (mapM_field_eq_ok_iff.mp hvalues).1
  obtain ⟨codeword, hlayer, htree⟩ := commit_honest hshift hsmall hlength hcanonical
  exact ⟨hlength, hcanonical, shift, codeword, hshift, hlayer,
    Except.ok.inj (hcommit.symm.trans htree)⟩

variable {point : List ℤ}

theorem claimLoop_eqWeights (hevaluations : evaluations.length = 2 ^ point.length) :
    claimLoop evaluations (eqWeights point) 0 = .ok (multilinearExtension evaluations point) := by
  obtain ⟨claimed, hclaim, hclaimCanonical, hclaimValue⟩ := claimLoop_spec
    (hevaluations.trans (length_eqWeights point).symm) (⟨le_rfl, goldilocksModulus_pos⟩ : Canonical 0)
  rw [Int.cast_zero, zero_add, hevaluations] at hclaimValue
  have hclaimed : claimed = multilinearExtension evaluations point := by
    refine hclaimCanonical.ext (canonical_emod _) ?_
    rw [hclaimValue, intCast_multilinearExtension, mle, length_toField]
    refine Finset.sum_congr rfl fun i hi => ?_
    rw [fieldAt_eqWeights (Finset.mem_range.mp hi)]
  rw [hclaim, hclaimed]

/-- When the round loop returns, opening the tree of an honest codeword at a canonical point returns
a proof of the multilinear extension that the verifier accepts. -/
theorem open_of_openRounds (hshift : statement.baseShift sha256 = .ok shift)
    (hsmall : statement.variableCount + 2 ≤ 16)
    (hevaluations : evaluations.length = 2 ^ statement.variableCount)
    (hcanonical : CanonicalVector evaluations)
    (hlayer : HonestLayer statement shift 0 evaluations codeword) (lib : Bool)
    (hpoint : point.length = statement.variableCount) (hpointCanonical : CanonicalVector point)
    {validatorNonce : Bytes} {transcript : Digest} {opened : OpenedRounds}
    (hseed : transcriptSeed sha256 statement
      (honestLayerTree sha256 statement 0 codeword).commitment.bytes point
      (multilinearExtension evaluations point) validatorNonce = .ok transcript)
    (hopen : openRounds sha256 statement statement.variableCount 0 evaluations (eqWeights point)
      transcript = .ok opened) :
    ∃ proof, openGoldilocksMultilinearV3 sha256 statement lib
        (honestLayerTree sha256 statement 0 codeword) evaluations point validatorNonce =
        .ok proof ∧
      proof.claimedValue = multilinearExtension evaluations point ∧
      Accepts (verifyGoldilocksMultilinearOpeningV3 sha256 statement lib proof
        (honestLayerTree sha256 statement 0 codeword).commitment.bytes point
        (multilinearExtension evaluations point) validatorNonce) := by
  set tree := honestLayerTree sha256 statement 0 codeword with htreeDef
  -- the claimed value
  have hweights : (eqWeights point).length = 2 ^ statement.variableCount := by
    rw [length_eqWeights, hpoint]
  have hclaim := claimLoop_eqWeights (hevaluations.trans (congrArg (2 ^ ·) hpoint.symm))
  set claimed := multilinearExtension evaluations point with hclaimed
  have hclaimCanonical : Canonical claimed := canonical_emod _
  have hclaimValue : (claimed : F) = Multilinear.inner statement.variableCount (fieldAt evaluations)
      (fieldAt (eqWeights point)) := by
    rw [hclaimed, intCast_multilinearExtension, mle, length_toField, hpoint]
    refine inner_congr (fun _ _ => rfl) fun i hi => (fieldAt_eqWeights ?_).symm
    rwa [hpoint]
  -- the rounds
  obtain ⟨challenges, hrun, hfollowed⟩ := openRounds_eq_ok hshift hsmall (Nat.zero_add _)
    hevaluations hweights hopen
  have hchallenges : challenges.length = point.length := hrun.length_challenges.trans hpoint.symm
  obtain ⟨code, hcode⟩ := exists_layerCodes hlayer hrun
  -- the openings
  set positions := queryPositions sha256 opened.transcript statement.codewordSize
    statement.queryCount with hpositionsDef
  have hpositions : positions ≠ [] := by
    rw [← List.length_pos_iff, hpositionsDef, length_queryPositions]
    exact statement.one_le_queryCount
  have htreeCount : (tree :: opened.layerTrees).length = statement.variableCount + 1 := by
    rw [List.length_cons, hrun.length_layerTrees]
  have hopenTrees : ∀ (k : ℕ) (t : GoldilocksMerkleTreeReference),
      (tree :: opened.layerTrees)[k]? = some t → t.open lib (layerQueryIndices positions
        (statement.codewordSize >>> (0 + k)) (0 + k = statement.variableCount)) =
          .ok (honestLayerOpening sha256 statement positions code (0 + k)) := by
    intro k t hk
    have hk' : k ≤ statement.variableCount := by
      have := (List.getElem?_eq_some_iff.mp hk).1
      omega
    obtain rfl := Option.some.inj ((hcode k hk').2.symm.trans hk)
    rw [Nat.zero_add]
    exact open_honestTree sha256 _ lib ((hcode k hk').1.table hsmall)
      (layerQueryIndices_admitted statement hpositions hk')
  obtain ⟨openings, hopenLayers, hopenCount, hopenings⟩ := openLayers_spec lib positions
    (honestLayerOpening sha256 statement positions code) hopenTrees
  simp only [Nat.zero_add] at hopenings
  -- the final value
  have hbound : boundVector evaluations challenges statement.variableCount = opened.values := by
    rw [hrun.values_eq, boundVector, List.take_of_length_le hrun.length_challenges.le]
  obtain ⟨finalValue, hfinal⟩ : ∃ finalValue, opened.values = [finalValue] := by
    refine List.length_eq_one_iff.mp ?_
    rw [← hbound, length_boundVector hevaluations hrun.length_challenges le_rfl, Nat.sub_self,
      pow_zero]
  have hfinalCanonical : Canonical finalValue := by
    obtain ⟨m, hm⟩ := Nat.exists_eq_add_of_le' statement.one_le_variableCount
    have hlast : challenges[m]? = some challenges[m] :=
      List.getElem?_eq_getElem (by rw [hrun.length_challenges]; omega)
    have hmem := canonicalVector_foldPairs (boundVector evaluations challenges m) challenges[m]
    rw [← boundVector_succ evaluations hlast, ← hm, hbound, hfinal] at hmem
    exact hmem finalValue List.mem_cons_self
  -- the proof object
  set layerCommitments := opened.layerTrees.map (·.commitment.bytes) with hcommitments
  have hlayerCount : layerCommitments.length = opened.rounds.length := by
    rw [hcommitments, List.length_map, hrun.length_layerTrees, hrun.length_rounds]
  set proof : GoldilocksMultilinearOpeningProofV3 := ⟨claimed, opened.rounds, layerCommitments,
    finalValue, openings, hclaimCanonical, hfinalCanonical, hlayerCount⟩ with hproof
  -- the verifier follows the rounds and the coupling holds
  obtain ⟨last, hverify, hlastCanonical, hlast⟩ := hfollowed layerCommitments claimed
    (fun k _ => by rw [hcommitments, List.getElem?_map, Nat.zero_add]) hclaimCanonical hclaimValue
  obtain ⟨eqProduct, hproduct, hproductValue⟩ := eqProductLoop_spec hchallenges 1
  have hcoupling : last = finalValue * eqProduct % goldilocksModulus := by
    rw [hlastCanonical.eq_emod_iff, hlast, fieldAt_foldl_eqWeights hchallenges, ← hrun.values_eq,
      hfinal, Int.cast_mul, hproductValue, Int.cast_one, one_mul]
    rfl
  have hroots : ∀ l ≤ statement.variableCount, (tree.commitment.bytes :: layerCommitments)[l]? =
      some (honestLayerTree sha256 statement l (code l)).commitment.bytes := by
    intro l hl
    have hmap : tree.commitment.bytes :: layerCommitments =
        (tree :: opened.layerTrees).map (·.commitment.bytes) := rfl
    rw [hmap, List.getElem?_map, (hcode l hl).2, Option.map_some]
  have hquery := queryAccepted_honest hsmall hshift hpositions hevaluations hrun.length_challenges
    (fun l hl => (hcode l hl).1) (hopenCount.trans htreeCount) hopenings (hbound.trans hfinal)
    hfinalCanonical hroots
  refine ⟨proof, ?_, rfl, ?_⟩
  · simp only [openGoldilocksMultilinearV3, bind_eq_ok, raiseIf_eq_ok, not_not]
    refine ⟨(), hpoint, _, mapM_field_eq_ok _ hpointCanonical, _, mapM_field_eq_ok _ hcanonical, (),
      hevaluations.trans (leafCount_eq statement).symm, claimed, hclaim, transcript, hseed, opened,
      hopen, finalValue, by rw [hfinal]; rfl, openings, hopenLayers, ?_⟩
    rw [GoldilocksMultilinearOpeningProofV3.postInit, dif_neg (not_not.mpr hclaimCanonical),
      dif_neg (not_not.mpr hfinalCanonical), dif_neg (not_not.mpr hlayerCount)]
  · rw [verify_accepts_iff_python, verifyByPython, accepts_bind]
    refine ⟨(point, transcript), ?_, ?_⟩
    · simp only [verifyShared, bind_eq_ok, raiseIf_eq_ok, pure_eq_ok, field_eq_ok, not_or, not_not]
      exact ⟨_, mapM_field_eq_ok _ hpointCanonical, (), ⟨hpoint, hrun.length_rounds⟩, _,
        ⟨canonical_emod _, rfl⟩, (), rfl, transcript, hseed, rfl⟩
    · exact (verifyPython_accepts_iff lib tree.commitment.bytes point transcript
        hrun.length_rounds).mpr ⟨last, challenges, opened.transcript, eqProduct, shift, hverify,
          hproduct, hcoupling, hshift, hquery⟩

/-- What opening the tree of an honest codeword returns is a proof of the multilinear extension
that the verifier accepts. -/
theorem open_eq_ok (hshift : statement.baseShift sha256 = .ok shift)
    (hsmall : statement.variableCount + 2 ≤ 16)
    (hevaluations : evaluations.length = 2 ^ statement.variableCount)
    (hlayer : HonestLayer statement shift 0 evaluations codeword) {lib : Bool}
    {validatorNonce : Bytes} {proof : GoldilocksMultilinearOpeningProofV3}
    (hopen : openGoldilocksMultilinearV3 sha256 statement lib
      (honestLayerTree sha256 statement 0 codeword) evaluations point validatorNonce = .ok proof) :
    proof.claimedValue = multilinearExtension evaluations point ∧
      Accepts (verifyGoldilocksMultilinearOpeningV3 sha256 statement lib proof
        (honestLayerTree sha256 statement 0 codeword).commitment.bytes point
        (multilinearExtension evaluations point) validatorNonce) := by
  have hrun := hopen
  simp only [openGoldilocksMultilinearV3, bind_eq_ok, raiseIf_eq_ok, not_not] at hrun
  obtain ⟨-, hpoint, _, hpoints, _, hvalues, -, -, claimed, hclaim, transcript, hseed, opened,
    hrounds, -⟩ := hrun
  obtain ⟨hpointCanonical, hpointEq⟩ := mapM_field_eq_ok_iff.mp hpoints
  obtain ⟨hcanonical, hvaluesEq⟩ := mapM_field_eq_ok_iff.mp hvalues
  rw [hpointEq] at hclaim hseed hrounds
  rw [hvaluesEq] at hclaim hrounds
  have hclaimed := claimLoop_eqWeights (hevaluations.trans (congrArg (2 ^ ·) hpoint.symm))
  obtain rfl := Except.ok.inj (hclaim.symm.trans hclaimed)
  obtain ⟨proof', hproof, hspec⟩ := open_of_openRounds hshift hsmall hevaluations hcanonical hlayer
    lib hpoint hpointCanonical hseed hrounds
  obtain rfl := Except.ok.inj (hopen.symm.trans hproof)
  exact hspec

/-- Opening the tree of an honest codeword at a canonical point returns a proof of the multilinear
extension that the verifier accepts. -/
theorem open_honest (hshift : statement.baseShift sha256 = .ok shift)
    (hderive : ∀ transcript roundIndex,
      Accepts (deriveField sha256 transcript foldLabel roundIndex))
    (hsmall : statement.variableCount + 2 ≤ 16)
    (hevaluations : evaluations.length = 2 ^ statement.variableCount)
    (hcanonical : CanonicalVector evaluations)
    (hlayer : HonestLayer statement shift 0 evaluations codeword) (lib : Bool)
    (hpoint : point.length = statement.variableCount) (hpointCanonical : CanonicalVector point)
    {validatorNonce : Bytes} (hnonce : validatorNonce.length = 32) :
    ∃ proof, openGoldilocksMultilinearV3 sha256 statement lib
        (honestLayerTree sha256 statement 0 codeword) evaluations point validatorNonce =
        .ok proof ∧
      proof.claimedValue = multilinearExtension evaluations point ∧
      Accepts (verifyGoldilocksMultilinearOpeningV3 sha256 statement lib proof
        (honestLayerTree sha256 statement 0 codeword).commitment.bytes point
        (multilinearExtension evaluations point) validatorNonce) := by
  set tree := honestLayerTree sha256 statement 0 codeword with htree
  have hseed : transcriptSeed sha256 statement tree.commitment.bytes point
      (multilinearExtension evaluations point) validatorNonce =
      .ok (sha256 (transcriptDomain ++ (statement.digest sha256).bytes ++ tree.commitment.bytes ++
        point.flatMap fieldBytes ++ fieldBytes (multilinearExtension evaluations point) ++
        validatorNonce)) := by
    simp only [transcriptSeed, bind_eq_ok, fixedBytes32_eq_ok, pure_eq_ok]
    exact ⟨tree.commitment, rfl, ⟨validatorNonce, hnonce⟩, rfl, rfl⟩
  obtain ⟨opened, hopen⟩ := exists_openRounds hshift hderive hsmall
    statement.variableCount _ (Nat.zero_add _) hevaluations
  exact open_of_openRounds hshift hsmall hevaluations hcanonical hlayer lib hpoint hpointCanonical
    hseed hopen

end Honest

/-- Completeness of the multilinear commitment. For every statement whose codeword fits the CPU cap,
either coset profile, every vector of canonical values, every canonical point and every nonce:
when the rejection loops find their candidates, committing and opening return, the claimed value is
the multilinear extension of the vector at the point, and the verifier accepts the proof with that
value, with and without the compiled library. -/
theorem open_complete (sha256 : Bytes → Digest) (statement : GoldilocksMultilinearPcsStatementV3)
    (evaluations point : List ℤ) (validatorNonce : Bytes) (lib : Bool)
    (hcap : statement.codewordSize ≤ maxGoldilocksReferenceDomainSize)
    (hevaluations : evaluations.length = 2 ^ statement.variableCount)
    (hcanonical : CanonicalVector evaluations) (hpoint : point.length = statement.variableCount)
    (hpointCanonical : CanonicalVector point) (hnonce : validatorNonce.length = 32)
    (hshift : Accepts (statement.baseShift sha256))
    (hderive : ∀ transcript roundIndex,
      Accepts (deriveField sha256 transcript foldLabel roundIndex)) :
    ∃ tree proof,
      commitGoldilocksMultilinearV3 sha256 statement evaluations = .ok tree ∧
      openGoldilocksMultilinearV3 sha256 statement lib tree evaluations point validatorNonce =
        .ok proof ∧
      proof.claimedValue = multilinearExtension evaluations point ∧
      Accepts (verifyGoldilocksMultilinearOpeningV3 sha256 statement lib proof
        tree.commitment.bytes point (multilinearExtension evaluations point) validatorNonce) := by
  obtain ⟨shift, hshift⟩ := hshift
  have hsmall := variableCount_add_two_le_sixteen hcap
  obtain ⟨codeword, hlayer, hcommit⟩ := commit_honest hshift hsmall hevaluations hcanonical
  obtain ⟨proof, hopen, hclaimed, haccepted⟩ := open_honest hshift hderive hsmall hevaluations
    hcanonical hlayer lib hpoint hpointCanonical hnonce
  exact ⟨_, proof, hcommit, hopen, hclaimed, haccepted⟩

/-- The vector `(1, 2)` opened at 3 in one variable, with a hash whose words are all 3. -/
theorem open_complete_one_variable :
    ∃ tree proof,
      commitGoldilocksMultilinearV3 constantThree oneVariableStatement [1, 2] = .ok tree ∧
      openGoldilocksMultilinearV3 constantThree oneVariableStatement false tree [1, 2] [3]
        (List.replicate 32 0) = .ok proof ∧
      proof.claimedValue = multilinearExtension [1, 2] [3] ∧
      Accepts (verifyGoldilocksMultilinearOpeningV3 constantThree oneVariableStatement false proof
        tree.commitment.bytes [3] (multilinearExtension [1, 2] [3]) (List.replicate 32 0)) := by
  refine open_complete constantThree oneVariableStatement [1, 2] [3] (List.replicate 32 0) false
    (by decide) rfl (by simp [CanonicalVector, Canonical, goldilocksModulus]) rfl
    (by simp [CanonicalVector, Canonical, goldilocksModulus]) rfl ⟨3, ?_⟩
    fun transcript roundIndex => ⟨3, ?_⟩
  · simp only [GoldilocksMultilinearPcsStatementV3.baseShift, oneVariableStatement,
      digestWord_constantThree]
    exact rejectionSample_first _ 65535 (by decide +kernel)
  · simp only [deriveField, digestWord_constantThree]
    exact rejectionSample_first _ 65535 (by decide +kernel)

end Verathos.Pcs
