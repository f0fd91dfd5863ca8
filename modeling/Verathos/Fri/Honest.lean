import Verathos.Fri.Defs
import Verathos.Lib.CosetFold
import Verathos.Merkle.Completeness

/-!
# The layers of an honest FRI proof

The round loop of the prover returns the trees of a chain of codewords, and every codeword is the fold
of the one before (`commitRounds_spec`). Read in the field, the codewords form a `FoldChain`, so a
codeword of a polynomial within the degree bound folds to a constant (`Layers.const`).
-/

namespace Verathos.Fri

open Merkle ModularPower CosetFold
open Pcs (digestWord rejectionSample rejectionSample_eq_ok)

variable {sha256 : Bytes → Digest} {statement : GoldilocksFriStatementReference}

/-! ## Sizes -/

theorem eq_two_pow_height {value maximum : ℕ} (h : ¬ NotPowerOfTwo value maximum) :
    value ≤ maximum ∧ value = 2 ^ height value := by
  simp only [NotPowerOfTwo, not_or, not_lt, not_not] at h
  obtain ⟨hpos, hle, hand⟩ := h
  obtain ⟨k, rfl⟩ := (Nat.and_sub_one_eq_zero_iff_isPowerOfTwo (by omega)).mp hand
  rw [height_two_pow]
  exact ⟨hle, rfl⟩

namespace GoldilocksFriStatementReference

variable (statement)

/-- The number of bits of a position in the domain. -/
def domainBits : ℕ := height statement.domainSize

theorem domainSize_eq : statement.domainSize = 2 ^ statement.domainBits :=
  (eq_two_pow_height statement.domainSize_pow).2

theorem degreeBound_eq : statement.degreeBound = 2 ^ statement.roundCount :=
  (eq_two_pow_height statement.degreeBound_pow).2

theorem domainBits_le : statement.domainBits ≤ 16 := by
  have hle := (eq_two_pow_height statement.domainSize_pow).1
  rw [statement.domainSize_eq] at hle
  exact (Nat.pow_le_pow_iff_right (by norm_num)).mp hle

theorem roundCount_lt : statement.roundCount < statement.domainBits := by
  have hlt := statement.degreeBound_lt
  rw [statement.degreeBound_eq, statement.domainSize_eq] at hlt
  exact (Nat.pow_lt_pow_iff_right (by norm_num)).mp hlt

theorem finalDomainSize_eq :
    statement.finalDomainSize = 2 ^ (statement.domainBits - statement.roundCount) := by
  rw [finalDomainSize, statement.domainSize_eq, statement.degreeBound_eq,
    Nat.pow_div statement.roundCount_lt.le (by norm_num)]

theorem domainSize_shiftRight {r : ℕ} (hr : r ≤ statement.domainBits) :
    statement.domainSize >>> r = 2 ^ (statement.domainBits - r) := by
  rw [statement.domainSize_eq, Nat.shiftRight_eq_div_pow, Nat.pow_div hr (by norm_num)]

/-- The shift of the domain of a round. -/
def roundShift (r : ℕ) : ℤ := powMod statement.domainShift (1 <<< r) goldilocksModulus

theorem intCast_roundShift (r : ℕ) :
    (statement.roundShift r : F) = (statement.domainShift : F) ^ 2 ^ r := by
  rw [roundShift, intCast_powMod, Nat.one_shiftLeft]

theorem canonical_roundShift (r : ℕ) : Canonical (statement.roundShift r) := by
  rw [roundShift, powMod_eq]
  exact canonical_emod _

theorem domainShift_cast_ne_zero : (statement.domainShift : F) ≠ 0 := by
  intro hzero
  refine statement.domainShift_ne_zero
    (statement.canonical_domainShift.ext ⟨le_rfl, goldilocksModulus_pos⟩ ?_)
  rw [hzero, Int.cast_zero]

theorem roundShift_ne_zero (r : ℕ) : statement.roundShift r ≠ 0 := by
  intro hzero
  have hcast := statement.intCast_roundShift r
  rw [hzero, Int.cast_zero] at hcast
  exact pow_ne_zero _ statement.domainShift_cast_ne_zero hcast.symm

end GoldilocksFriStatementReference

open GoldilocksFriStatementReference

variable {r : ℕ}

theorem roundDomain_spec (hr : r ≤ statement.roundCount) :
    ∃ domain, roundDomain statement r = .ok domain ∧
      IsDomain (statement.domainBits - r) domain ∧ domain.shift = statement.roundShift r := by
  have hlt := statement.roundCount_lt
  have hle := statement.domainBits_le
  obtain ⟨domain, hdomain, his, hshift⟩ := goldilocksRadix2DomainReference_spec
    (show statement.domainBits - r ≤ 16 by omega) (statement.canonical_roundShift r)
    (statement.roundShift_ne_zero r)
  refine ⟨domain, ?_, his, hshift⟩
  simp only [roundDomain, bind_eq_ok, raiseIf_eq_ok, not_lt]
  refine ⟨(), hr, ?_⟩
  rw [statement.domainSize_shiftRight (by omega)]
  exact hdomain

variable (sha256 statement) in
/-- The binding digest of a round. -/
def bindingOf (r : ℕ) : Digest :=
  sha256 (roundBindingDomain ++ (statement.digest sha256).bytes ++ packI r ++
    packI (2 ^ (statement.domainBits - r)) ++ LittleEndian.toBytes 8 (statement.roundShift r).toNat)

theorem roundBinding_eq_ok (hr : r ≤ statement.roundCount) :
    roundBinding sha256 statement r = .ok (bindingOf sha256 statement r) := by
  obtain ⟨domain, hdomain, his, hshift⟩ := roundDomain_spec hr
  rw [roundBinding, bind_eq_ok]
  refine ⟨domain, hdomain, ?_⟩
  rw [pure_eq_ok, bindingOf, his.size, hshift]

/-! ## One fold -/

theorem canonical_two : Canonical 2 := ⟨by norm_num, by norm_num [goldilocksModulus]⟩

/-- The entry of a folded layer, as the prover computes it. -/
def foldEntry (positive negative inverseTwo inverse beta : ℤ) : ℤ :=
  ((positive + negative) * inverseTwo % goldilocksModulus + beta *
    ((positive - negative) * inverseTwo % goldilocksModulus * inverse % goldilocksModulus)) %
      goldilocksModulus

/-- A fold, entry by entry. -/
structure IsFold (m : ℕ) (domain : GoldilocksRadix2DomainReference) (beta : ℤ)
    (codeword folded : List ℤ) : Prop where
  canonical_beta : Canonical beta
  length_eq : folded.length = 2 ^ m
  canonical : CanonicalVector folded
  entry : ∃ points inverseTwo, domain.points = .ok points ∧ goldilocksInv 2 = .ok inverseTwo ∧
    ∀ i < 2 ^ m, ∃ point inverse, points[i]? = some point ∧ goldilocksInv point = .ok inverse ∧
      folded.getD i 0 =
        foldEntry (codeword.getD i 0) (codeword.getD (i + 2 ^ m) 0) inverseTwo inverse beta

variable {codeword : List ℤ}

theorem foldLayer_spec {m : ℕ} {domain : GoldilocksRadix2DomainReference}
    (hdomain : IsDomain (m + 1) domain) (hlength : codeword.length = 2 ^ (m + 1)) {beta : ℤ}
    (hbeta : Canonical beta) (hne : beta ≠ 0) :
    ∃ folded, foldLayer codeword domain beta = .ok folded ∧
      IsFold m domain beta codeword folded := by
  obtain ⟨points, hpoints, hpointsLength, hpointsCanonical, hentries⟩ := points_spec hdomain
  obtain ⟨inverseTwo, hinverseTwo, -⟩ := goldilocksInv_spec canonical_two (by norm_num)
  have hhalf : domain.size / 2 = 2 ^ m := by
    rw [hdomain.size, pow_succ, Nat.mul_div_cancel _ (by norm_num)]
  have hdouble : 2 ^ (m + 1) = 2 ^ m + 2 ^ m := by ring
  -- no point of a coset is zero
  have hinverse : ∀ i < 2 ^ m, ∃ inverse, goldilocksInv (points.getD i 0) = .ok inverse := by
    intro i hi
    have hlt : i < points.length := by omega
    have hpoint : points.getD i 0 ≠ 0 := by
      intro hzero
      have hcast := hentries i (by omega)
      rw [fieldAt, hzero, Int.cast_zero] at hcast
      exact mul_ne_zero hdomain.shift_cast_ne_zero
        (pow_ne_zero _ (rootOf_ne_zero (hdomain.le.trans (by norm_num)))) hcast.symm
    rw [List.getD_eq_getElem _ _ hlt] at hpoint ⊢
    obtain ⟨inverse, hinverse, -⟩ :=
      goldilocksInv_spec (hpointsCanonical _ (List.getElem_mem hlt)) hpoint
    exact ⟨inverse, hinverse⟩
  choose! inverse hinverse using hinverse
  have hget : ∀ {xs : List ℤ} {j : ℕ}, j < xs.length → xs[j]? = some (xs.getD j 0) := by
    intro xs j hj
    rw [List.getD_eq_getElem _ _ hj]
    exact List.getElem?_eq_getElem hj
  set entry : ℕ → ℤ := fun i => foldEntry (codeword.getD i 0) (codeword.getD (i + 2 ^ m) 0) inverseTwo
    (inverse i) beta with hentry
  have hrow : ∀ i ∈ List.range (2 ^ m),
      foldAt codeword points (2 ^ m) inverseTwo beta i = .ok (entry i) := by
    intro i hi
    have hi := List.mem_range.mp hi
    simp only [foldAt, bind_eq_ok, getItem_eq_ok, pure_eq_ok]
    exact ⟨_, hget (by omega), _, hget (by omega), _, hget (by omega), _, hinverse i hi, rfl⟩
  refine ⟨(List.range (2 ^ m)).map entry, ?_, hbeta, by simp, ?_, points, inverseTwo, hpoints,
    hinverseTwo, fun i hi => ⟨_, _, hget (by omega), hinverse i hi, ?_⟩⟩
  · simp only [foldLayer, bind_eq_ok, raiseIf_eq_ok, canonicalGoldilocks_eq_ok]
    refine ⟨(), ?_, beta, ⟨hbeta, rfl⟩, (), hne, points, hpoints, inverseTwo, hinverseTwo, ?_⟩
    · rw [hdomain.size, hlength]
      have := Nat.one_le_two_pow (n := m)
      omega
    · rw [hhalf]
      exact mapM_eq_ok_map hrow
  · intro v hv
    obtain ⟨i, -, rfl⟩ := List.mem_map.mp hv
    exact canonical_emod _
  · rw [List.getD_eq_getElem _ _ (by simpa using hi), List.getElem_map, List.getElem_range]

theorem IsFold.cosetFold {m : ℕ} {domain : GoldilocksRadix2DomainReference}
    (hdomain : IsDomain (m + 1) domain) {beta : ℤ} {folded : List ℤ}
    (h : IsFold m domain beta codeword folded) {i : ℕ} (hi : i < 2 ^ m) :
    fieldAt folded i = CosetFold.cosetFold (2 ^ m) (domain.shift : F) (rootOf (m + 1)) beta
      (fieldAt codeword) i := by
  obtain ⟨points, inverseTwo, hpoints, hinverseTwo, hentries⟩ := h.entry
  obtain ⟨point, inverse, hpoint, hinverse, hfold⟩ := hentries i hi
  obtain ⟨_, hpoints', hlength, hcanonical, hvalue⟩ := points_spec hdomain
  obtain rfl := Except.ok.inj (hpoints.symm.trans hpoints')
  obtain ⟨_, hinverseTwo', htwoCast⟩ := goldilocksInv_spec canonical_two (by norm_num)
  obtain rfl := Except.ok.inj (hinverseTwo.symm.trans hinverseTwo')
  have hpointCast : (point : F) = domain.shift * rootOf (m + 1) ^ i := by
    rw [← hvalue i (hi.trans (Nat.pow_lt_pow_right (by norm_num) (Nat.lt_succ_self m))), fieldAt,
      List.getD_eq_getElem?_getD, hpoint, Option.getD_some]
  have hne : point ≠ 0 := by
    rintro rfl
    rw [Int.cast_zero] at hpointCast
    exact mul_ne_zero hdomain.shift_cast_ne_zero
      (pow_ne_zero _ (rootOf_ne_zero (hdomain.le.trans (by norm_num)))) hpointCast.symm
  obtain ⟨_, hinverse', hinverseCast⟩ :=
    goldilocksInv_spec (hcanonical point (List.mem_of_getElem? hpoint)) hne
  obtain rfl := Except.ok.inj (hinverse.symm.trans hinverse')
  rw [fieldAt, hfold, foldEntry, CosetFold.cosetFold, fieldAt, fieldAt]
  push_cast [intCast_emod]
  rw [hinverseCast, hpointCast, htwoCast]
  norm_num

/-! ## Rounds -/

/-- A codeword of the domain of a round. -/
structure Codeword (statement : GoldilocksFriStatementReference) (r : ℕ) (codeword : List ℤ) :
    Prop where
  length_eq : codeword.length = 2 ^ (statement.domainBits - r)
  canonical : CanonicalVector codeword

theorem Codeword.table (h : Codeword statement r codeword) :
    Table (statement.domainBits - r) 1 (codeword.map fun value => [value]) where
  length_eq := by rw [List.length_map, h.length_eq]
  height_le := by
    have := statement.domainBits_le
    omega
  width_le := by norm_num [maxLeafWidth]
  isRow := by
    intro row hrow
    obtain ⟨value, hvalue, rfl⟩ := List.mem_map.mp hrow
    refine ⟨rfl, fun v hv => ?_⟩
    rw [List.mem_singleton.mp hv]
    exact h.canonical value hvalue
  values_le := by
    have hle : 2 ^ (statement.domainBits - r) ≤ 2 ^ 16 :=
      Nat.pow_le_pow_right (by norm_num) ((Nat.sub_le _ _).trans statement.domainBits_le)
    norm_num [maxFieldValues]
    omega

variable (sha256 statement) in
/-- The tree of the codeword of a round. -/
def roundTree (r : ℕ) (codeword : List ℤ) : GoldilocksMerkleTreeReference :=
  honestTree sha256 (bindingOf sha256 statement r) (statement.domainBits - r) 1
    (codeword.map fun value => [value])

theorem deriveBeta_spec {commitments : List Digest} {beta : ℤ}
    (h : deriveBeta sha256 statement commitments r = .ok beta) : Canonical beta ∧ beta ≠ 0 := by
  simp only [deriveBeta, bind_eq_ok, raiseIf_eq_ok] at h
  obtain ⟨-, -, h⟩ := h
  obtain ⟨word, rfl, hpos, hlt⟩ := rejectionSample_eq_ok h
  exact ⟨⟨Int.natCast_nonneg _, Int.ofNat_lt.mpr hlt⟩, by omega⟩

/-- The layers of a run of the round loop from round `r` on, with `remaining` folds: the codewords and
the challenges by their rounds. The commitments of the earlier rounds are `earlier`. -/
structure Layers (sha256 : Bytes → Digest) (statement : GoldilocksFriStatementReference)
    (r remaining : ℕ) (earlier : List Digest) (code : ℕ → List ℤ) (beta : ℕ → ℤ)
    (committed : Committed) : Prop where
  codeword : ∀ j, r ≤ j → j ≤ r + remaining → Codeword statement j (code j)
  trees : committed.trees =
    (List.range' r (remaining + 1)).map fun j => roundTree sha256 statement j (code j)
  current : committed.current = code (r + remaining)
  /-- The challenge of a layer is derived from the commitments up to it. -/
  challenge : ∀ j, r ≤ j → j < r + remaining → deriveBeta sha256 statement
    (earlier ++ (List.range' r (j + 1 - r)).map fun j =>
      (roundTree sha256 statement j (code j)).commitment) j = .ok (beta j)
  fold : ∀ j, r ≤ j → j < r + remaining → ∃ domain, roundDomain statement j = .ok domain ∧
    foldLayer (code j) domain (beta j) = .ok (code (j + 1)) ∧
    IsFold (statement.domainBits - j - 1) domain (beta j) (code j) (code (j + 1))

theorem commitRounds_spec (hbeta : ∀ commitments r, commitments.length = r + 1 →
      Accepts (deriveBeta sha256 statement commitments r)) {remaining : ℕ}
    (hr : r + remaining = statement.roundCount) (hcodeword : Codeword statement r codeword)
    {earlier : List Digest} (hearlier : earlier.length = r) :
    ∃ code beta committed, code r = codeword ∧
      commitRounds sha256 statement remaining r codeword earlier = .ok committed ∧
      Layers sha256 statement r remaining earlier code beta committed := by
  have hlt := statement.roundCount_lt
  have htree := fromRows_eq_ok sha256 (bindingOf sha256 statement r) hcodeword.table
  have hbinding : roundBinding sha256 statement r = .ok (bindingOf sha256 statement r) :=
    roundBinding_eq_ok (by omega)
  induction remaining generalizing r codeword earlier with
  | zero =>
    refine ⟨fun _ => codeword, fun _ => 0, ⟨[roundTree sha256 statement r codeword], codeword⟩, rfl,
      ?_, ?_⟩
    · simp only [commitRounds, bind_eq_ok, pure_eq_ok]
      exact ⟨_, hbinding, _, htree, rfl⟩
    · refine ⟨fun j hj hj' => ?_, rfl, rfl, fun j hj hj' => ?_, fun j hj hj' => ?_⟩
      · obtain rfl : j = r := by omega
        exact hcodeword
      · omega
      · omega
  | succ remaining ih =>
    set tree := roundTree sha256 statement r codeword with htreeDef
    have hlength : (earlier ++ [tree.commitment]).length = r + 1 := by
      rw [List.length_append, List.length_singleton, hearlier]
    obtain ⟨challenge, hchallenge⟩ := hbeta _ r hlength
    obtain ⟨hcanonical, hne⟩ := deriveBeta_spec hchallenge
    obtain ⟨domain, hdomain, his, -⟩ := roundDomain_spec (show r ≤ statement.roundCount by omega)
    have hbits : statement.domainBits - r = statement.domainBits - r - 1 + 1 := by omega
    rw [hbits] at his
    obtain ⟨folded, hfolded, hfold⟩ := foldLayer_spec his
      (by rw [← hbits]; exact hcodeword.length_eq) hcanonical hne
    have hnext : Codeword statement (r + 1) folded :=
      ⟨by rw [hfold.length_eq, Nat.sub_sub], hfold.canonical⟩
    obtain ⟨code, beta, committed, rfl, hrest, hlayers⟩ := ih (by omega) hnext hlength
      (fromRows_eq_ok sha256 _ hnext.table) (roundBinding_eq_ok (by omega))
    -- the layers of the rest are kept, round `r` is put before them
    have hcode : ∀ j, r + 1 ≤ j → Function.update code r codeword j = code j := fun j hj =>
      Function.update_of_ne (by omega) _ _
    have hbeta' : ∀ j, r + 1 ≤ j → Function.update beta r challenge j = beta j := fun j hj =>
      Function.update_of_ne (by omega) _ _
    have hmap : ∀ {α : Type} (g : ℕ → List ℤ → α) (count : ℕ),
        (List.range' (r + 1) count).map (fun j => g j (Function.update code r codeword j)) =
        (List.range' (r + 1) count).map fun j => g j (code j) := by
      intro α g count
      refine List.map_congr_left fun j hj => ?_
      rw [hcode j (List.mem_range'_1.mp hj).1]
    refine ⟨Function.update code r codeword, Function.update beta r challenge,
      ⟨tree :: committed.trees, committed.current⟩, Function.update_self r codeword code, ?_, ?_⟩
    · rw [commitRounds]
      simp only [bind_eq_ok, pure_eq_ok]
      exact ⟨_, hbinding, _, htree, challenge, hchallenge, domain, hdomain, _, hfolded, committed,
        hrest, rfl⟩
    · refine ⟨fun j hj hj' => ?_, ?_, ?_, fun j hj hj' => ?_, fun j hj hj' => ?_⟩
      · rcases Nat.eq_or_lt_of_le hj with rfl | hj
        · rwa [Function.update_self]
        · rw [hcode j hj]
          exact hlayers.codeword j hj (by omega)
      · rw [List.range'_succ, List.map_cons, Function.update_self, hmap, hlayers.trees]
      · rw [hcode _ (by omega), hlayers.current, show r + 1 + remaining = r + (remaining + 1) by omega]
      · rcases Nat.eq_or_lt_of_le hj with rfl | hj
        · rw [Nat.add_sub_cancel_left, Function.update_self]
          simpa [htreeDef] using hchallenge
        · have hderived := hlayers.challenge j hj (by omega)
          rw [List.append_assoc, List.singleton_append] at hderived
          rw [hbeta' j hj, show j + 1 - r = (j + 1 - (r + 1)) + 1 by omega, List.range'_succ,
            List.map_cons, Function.update_self,
            hmap fun j code => (roundTree sha256 statement j code).commitment]
          exact hderived
      · rcases Nat.eq_or_lt_of_le hj with rfl | hj
        · rw [Function.update_self, Function.update_self, hcode _ le_rfl]
          exact ⟨domain, hdomain, hfolded, hfold⟩
        · rw [hcode j hj, hcode (j + 1) (by omega), hbeta' j hj]
          exact hlayers.fold j hj (by omega)

/-! ## Low degree -/

/-- All entries of a codeword are equal. -/
def IsConstant (codeword : List ℤ) : Prop := ∃ value, ∀ v ∈ codeword, v = value

section Chain

variable {code : ℕ → List ℤ} {beta : ℕ → ℤ} {committed : Committed}

theorem Layers.foldChain
    (h : Layers sha256 statement 0 statement.roundCount [] code beta committed) :
    FoldChain statement.domainBits statement.roundCount (statement.domainShift : F)
      (fun r => rootOf (statement.domainBits - r)) (fun r => beta r) (fun r => fieldAt (code r)) where
  rounds_le := statement.roundCount_lt.le
  two_ne_zero := two_ne_zero_F
  shift_ne_zero := statement.domainShift_cast_ne_zero
  root_pow := by
    intro r hr
    have hlt := statement.roundCount_lt
    have hle := statement.domainBits_le
    have hhalf := rootOf_pow_half (h := statement.domainBits - r - 1) (by omega)
    rwa [show statement.domainBits - r - 1 + 1 = statement.domainBits - r by omega] at hhalf
  root_sq := by
    intro r hr
    have hlt := statement.roundCount_lt
    have hle := statement.domainBits_le
    have hsq := rootOf_sq (h := statement.domainBits - (r + 1)) (by omega)
    rwa [show statement.domainBits - (r + 1) + 1 = statement.domainBits - r by omega] at hsq
  fold := by
    intro r hr i hi
    have hlt := statement.roundCount_lt
    obtain ⟨domain, hdomain, -, hfold⟩ := h.fold r (Nat.zero_le r) (by omega)
    obtain ⟨_, hdomain', his, hshift⟩ := roundDomain_spec hr.le
    obtain rfl := Except.ok.inj (hdomain.symm.trans hdomain')
    have hbits : statement.domainBits - r - 1 + 1 = statement.domainBits - r := by omega
    have hentry := hfold.cosetFold (by rw [hbits]; exact his) hi
    rw [hentry, hbits, hshift, statement.intCast_roundShift]

theorem Layers.isConstant
    (h : Layers sha256 statement 0 statement.roundCount [] code beta committed)
    {P : Polynomial F} (hdegree : P.degree < statement.degreeBound)
    (hP : ∀ i < statement.domainSize, fieldAt (code 0) i =
      P.eval (statement.domainShift * rootOf statement.domainBits ^ i)) :
    IsConstant committed.current := by
  have heval : ∀ i < 2 ^ statement.domainBits, fieldAt (code 0) i =
      Multilinear.evalPoly (2 ^ statement.roundCount) P.coeff
        (statement.domainShift * rootOf (statement.domainBits - 0) ^ i) := by
    intro i hi
    rw [← statement.domainSize_eq] at hi
    rw [hP i hi, ← statement.degreeBound_eq, ← Fourier.ofCoefficients_coeff hdegree,
      Fourier.eval_ofCoefficients, Fourier.ofCoefficients_coeff hdegree, Nat.sub_zero]
    rfl
  obtain ⟨a, ha⟩ := h.foldChain.const heval
  have hlast := h.codeword statement.roundCount (Nat.zero_le _) (by omega)
  rw [h.current, Nat.zero_add]
  refine ⟨ofField a, fun v hv => ?_⟩
  obtain ⟨i, hi, rfl⟩ := List.getElem_of_mem hv
  refine (hlast.canonical _ hv).ext (canonical_ofField a) ?_
  have hentry := ha i (by rw [← hlast.length_eq]; exact hi)
  rw [fieldAt, List.getD_eq_getElem _ _ hi] at hentry
  rw [hentry, intCast_ofField]

end Chain

end Verathos.Fri
