import Verathos.BatchOpening.Rounds
import Verathos.SuccinctFold.Defs

/-!
# The factor and the outer rounds of a succinct fold

The prover folds the tensor product of the components from its highest variable on; the verifier
evaluates every component over its own slice of the challenges.

* `mleEvalMsb_spec`: a fold from the highest variable evaluates the multilinear extension at the
  reversed challenges;
* `factorAtPoint_spec`: from a component on, the loop of the verifier extends the value of the
  components before it;
* `factorAtPoint_eq_mleEvalMsb`: the product of the evaluations is the evaluation of the product.
-/

namespace Verathos.SuccinctFold

open BatchOpening Multilinear Numpy Pcs

/-! ## Evaluations -/

variable {challenges : List ℤ}

variable {values : List ℤ}

theorem foldl_foldMsb (hlength : values.length = 2 ^ challenges.length) :
    ∃ v, challenges.foldl foldMsb values = [v] ∧
      (v : F) = mle (toField challenges.reverse) (fieldAt values) := by
  induction challenges generalizing values with
  | nil =>
    obtain ⟨v, rfl⟩ := List.length_eq_one_iff.mp hlength
    exact ⟨v, rfl, by simp [toField, mle, Multilinear.inner, eqWeight, fieldAt]⟩
  | cons challenge challenges ih =>
    have hhalf : values.length / 2 = 2 ^ challenges.length := by
      rw [hlength, List.length_cons, pow_succ, Nat.mul_div_cancel _ (by norm_num)]
    have hfold : foldMsb values challenge = foldHalves values (2 ^ challenges.length) challenge := by
      rw [← hhalf]
      rfl
    obtain ⟨v, hv, hvalue⟩ := ih (length_foldHalves values (2 ^ challenges.length) challenge)
    refine ⟨v, ?_, ?_⟩
    · rw [List.foldl_cons, hfold, hv]
    · rw [hvalue, mle_reverse_cons rfl]

theorem mleEvalMsb_spec (hlength : values.length = 2 ^ challenges.length) :
    ∃ v, mleEvalMsb values challenges = .ok v ∧ (CanonicalVector values → Canonical v) ∧
      (v : F) = mle (toField challenges.reverse) (fieldAt values) := by
  obtain ⟨v, hv, hvalue⟩ := foldl_foldMsb hlength
  refine ⟨v, ?_, fun hcanonical => ?_, hvalue⟩
  · rw [mleEvalMsb, hv]
    rfl
  · have hmem : v ∈ challenges.foldl foldMsb values := by
      rw [hv]
      exact List.mem_cons_self
    exact canonical_foldl_foldMsb hcanonical v hmem

/-! ## The tensor product -/

theorem length_tensorStep (table component : List ℤ) :
    (tensorStep table component).length = table.length * component.length := by
  simp [tensorStep, List.length_flatMap]

theorem fieldAt_tensorStep {table component : List ℤ} {i : ℕ}
    (hi : i < table.length * component.length) :
    fieldAt (tensorStep table component) i =
      tensor component.length (fieldAt table) (fieldAt component) i := by
  rw [fieldAt, tensorStep, getD_flatMap_map _ hi 0 0 0, intCast_emod, Int.cast_mul]
  rfl

theorem canonicalVector_tensorStep (table component : List ℤ) :
    CanonicalVector (tensorStep table component) := by
  intro v hv
  obtain ⟨left, -, hv⟩ := List.mem_flatMap.mp hv
  obtain ⟨right, -, rfl⟩ := List.mem_map.mp hv
  exact canonical_emod _

theorem canonicalVector_tensorFactor (components : List (List ℤ)) :
    CanonicalVector (tensorFactor components) := by
  have hfold : ∀ table, CanonicalVector table →
      CanonicalVector (components.foldl tensorStep table) := by
    induction components with
    | nil => exact fun _ h => h
    | cons component components ih =>
      exact fun table _ => ih _ (canonicalVector_tensorStep table component)
  refine hfold [1] fun v hv => ?_
  obtain rfl := List.mem_singleton.mp hv
  decide

/-- The number of variables of some components. -/
def bitCount (components : List (List ℤ)) : ℕ :=
  (components.map fun component => component.length.size - 1).sum

/-- The sizes of the components are powers of two. -/
def PowerSizes (components : List (List ℤ)) : Prop :=
  ∀ component ∈ components, component.length = 2 ^ (component.length.size - 1)

theorem bitCount_cons (component : List ℤ) (components : List (List ℤ)) :
    bitCount (component :: components) = component.length.size - 1 + bitCount components := rfl

variable {components : List (List ℤ)}

theorem length_foldl_tensorStep (hsizes : PowerSizes components) (table : List ℤ) :
    (components.foldl tensorStep table).length = table.length * 2 ^ bitCount components := by
  induction components generalizing table with
  | nil => simp [bitCount]
  | cons component components ih =>
    obtain ⟨hsize, hrest⟩ := List.forall_mem_cons.mp hsizes
    rw [List.foldl_cons, ih hrest, length_tensorStep, bitCount_cons, pow_add, ← hsize, mul_assoc]

theorem length_tensorFactor (hsizes : PowerSizes components) :
    (tensorFactor components).length = 2 ^ bitCount components := by
  rw [tensorFactor, length_foldl_tensorStep hsizes, List.length_singleton, one_mul]

/-! ## The loop of the verifier -/

theorem factorAtPoint_spec (hsizes : PowerSizes components) {cursor : ℕ} {table : List ℤ}
    {fAtPoint : ℤ} (htable : table.length = 2 ^ cursor)
    (hcursor : cursor + bitCount components = challenges.length) (hcanonical : Canonical fAtPoint)
    (hvalue : (fAtPoint : F) = mle (toField (challenges.take cursor).reverse) (fieldAt table)) :
    ∃ value, factorAtPoint challenges components cursor fAtPoint = .ok value ∧ Canonical value ∧
      (value : F) =
        mle (toField challenges.reverse) (fieldAt (components.foldl tensorStep table)) := by
  induction components generalizing cursor table fAtPoint with
  | nil =>
    obtain rfl : cursor = challenges.length := by simpa [bitCount] using hcursor
    rw [List.take_length] at hvalue
    exact ⟨fAtPoint, rfl, hcanonical, hvalue⟩
  | cons component components ih =>
    obtain ⟨hsize, hrest⟩ := List.forall_mem_cons.mp hsizes
    set bits := component.length.size - 1 with hbits
    rw [bitCount_cons, ← hbits] at hcursor
    set slicePoint := (challenges.drop cursor).take bits with hslice
    have hlength : slicePoint.length = bits := by
      rw [hslice, List.length_take, List.length_drop]
      omega
    obtain ⟨v, hv, -, hvField⟩ := mleEvalMsb_spec
      (show component.length = 2 ^ slicePoint.length by rw [hlength, hsize])
    -- the challenges of the component are the low part of the reversed challenges
    have htake : (challenges.take (cursor + bits)).reverse =
        slicePoint.reverse ++ (challenges.take cursor).reverse := by
      rw [List.take_add, List.reverse_append]
    have htaken : (toField (challenges.take cursor).reverse).length = cursor := by
      rw [length_toField, List.length_reverse, List.length_take]
      omega
    have hnext : ((fAtPoint * v % goldilocksModulus : ℤ) : F) =
        mle (toField (challenges.take (cursor + bits)).reverse)
          (fieldAt (tensorStep table component)) := by
      have hlow : (toField slicePoint.reverse).length = bits := by
        rw [length_toField, List.length_reverse, hlength]
      rw [intCast_emod, Int.cast_mul, hvalue, hvField, htake, toField_append,
        ← mle_tensor, hlow, ← hsize]
      refine mle_congr fun i hi => (fieldAt_tensorStep ?_).symm
      rwa [List.length_append, hlow, htaken, pow_add, ← hsize, mul_comm, ← htable] at hi
    obtain ⟨value, hloop, hresult, hresultField⟩ := ih hrest
      (show (tensorStep table component).length = 2 ^ (cursor + bits) by
        rw [length_tensorStep, htable, hsize, pow_add])
      (by omega) (canonical_emod _) hnext
    refine ⟨value, ?_, hresult, hresultField⟩
    simp only [factorAtPoint, bind_eq_ok]
    exact ⟨v, hv, hloop⟩

/-- The loop of the verifier returns the multilinear extension of the tensor product at the reversed
challenges. -/
theorem factorAtPoint_tensorFactor (hsizes : PowerSizes components)
    (hlength : bitCount components = challenges.length) :
    ∃ value, factorAtPoint challenges components 0 1 = .ok value ∧ Canonical value ∧
      (value : F) = mle (toField challenges.reverse) (fieldAt (tensorFactor components)) :=
  factorAtPoint_spec hsizes (show [(1 : ℤ)].length = 2 ^ 0 from rfl)
    (by rw [Nat.zero_add, hlength]) (by decide)
    (by simp [toField, mle, Multilinear.inner, eqWeight, fieldAt])

theorem factorAtPoint_eq_mleEvalMsb (hsizes : PowerSizes components)
    (hlength : bitCount components = challenges.length) :
    factorAtPoint challenges components 0 1 = mleEvalMsb (tensorFactor components) challenges := by
  obtain ⟨value, hvalue, hcanonical, hfield⟩ := factorAtPoint_tensorFactor hsizes hlength
  obtain ⟨v, hv, hvCanonical, hvField⟩ := mleEvalMsb_spec
    ((length_tensorFactor hsizes).trans (congrArg (2 ^ ·) hlength))
  have heq : value = v :=
    hcanonical.ext (hvCanonical (canonicalVector_tensorFactor components)) (hfield.trans hvField.symm)
  rw [hvalue, hv, heq]

/-!
## The outer rounds of an honest proof

A round of the prover binds the highest variable that is left, of the witness and of the factor
alike.

* `outerRound_spec`: a round holds the honest round polynomial at 0, 1 and 2;
* `outerLoop_eq_ok`: whatever the round loop of the prover returns, the verifier follows it down to
  the product of the two multilinear extensions at the reversed challenges (`HonestOuter`);
* `exists_outerLoop`: the round loop returns when it finds its challenges.
-/

/-! ### One round -/

variable {xValues : List ℤ}

variable {n : ℕ}

theorem outerRound_spec (fValues : List ℤ) (hlength : xValues.length = 2 ^ (n + 1)) :
    (outerRound xValues fValues).IsCanonical ∧
      (outerRound xValues fValues).toField =
        (highRound n (fieldAt xValues) (fieldAt fValues) 0,
          highRound n (fieldAt xValues) (fieldAt fValues) 1,
          highRound n (fieldAt xValues) (fieldAt fValues) 2) := by
  set half := xValues.length / 2 with hhalf
  have hpow : half = 2 ^ n := by
    rw [hhalf, hlength, pow_succ, Nat.mul_div_cancel _ (by norm_num)]
  -- after `k` cells the accumulators hold the partial sums
  set cell : F → ℕ → F := fun z i =>
    foldHigh half z (fieldAt xValues) i * foldHigh half z (fieldAt fValues) i with hcell
  have hloop : ∀ k, ((List.range k).foldl (outerStep xValues fValues half) (0, 0, 0)).IsCanonical ∧
      Round.toField ((List.range k).foldl (outerStep xValues fValues half) (0, 0, 0)) =
        (∑ i ∈ Finset.range k, cell 0 i, ∑ i ∈ Finset.range k, cell 1 i,
          ∑ i ∈ Finset.range k, cell 2 i) := by
    intro k
    induction k with
    | zero =>
      have hzero : Canonical 0 := ⟨le_rfl, goldilocksModulus_pos⟩
      exact ⟨⟨hzero, hzero, hzero⟩, by simp [Round.toField]⟩
    | succ k ih =>
      obtain ⟨-, ih⟩ := ih
      simp only [Round.toField, Prod.mk.injEq] at ih
      rw [List.range_succ, List.foldl_append, List.foldl_cons, List.foldl_nil]
      refine ⟨⟨canonical_emod _, canonical_emod _, canonical_emod _⟩, ?_⟩
      simp only [Round.toField, outerStep, intCast_emod, Int.cast_add, Int.cast_sub, Int.cast_mul,
        Int.cast_ofNat, Finset.sum_range_succ, ih, Prod.mk.injEq, hcell, foldHigh, fieldAt]
      refine ⟨?_, ?_, ?_⟩ <;> ring
  refine ⟨(hloop half).1, (hloop half).2.trans ?_⟩
  rw [hpow, hcell, hpow]
  rfl

theorem canonical_of_challengeOf {sha256 : Bytes → Digest} {seed : Digest} {roundIndex : ℕ}
    {challenge : ℤ} (h : challengeOf sha256 seed roundIndex = .ok challenge) :
    Canonical challenge := by
  obtain ⟨word, rfl, hlt⟩ := rejectionSample_eq_ok h
  exact ⟨Int.natCast_nonneg _, Int.ofNat_lt.mpr hlt⟩

variable {rounds : List Round} {transcript : Digest}

theorem verifyOuterRounds_cons_eq_ok {sha256 : Bytes → Digest} {g : Round} {roundIndex : ℕ}
    {running last : ℤ} :
    verifyOuterRounds sha256 (g :: rounds) roundIndex running transcript = .ok (last, challenges) ↔
      g.IsCanonical ∧ (g.1 + g.2.1) % goldilocksModulus = running ∧
        ∃ challenge challenges',
          challengeOf sha256 (absorbRound sha256 transcript g) roundIndex = .ok challenge ∧
          verifyOuterRounds sha256 rounds (roundIndex + 1) (recombine g challenge)
            (absorbRound sha256 transcript g) = .ok (last, challenges') ∧
          challenges = challenge :: challenges' := by
  obtain ⟨g0, g1, g2⟩ := g
  simp only [verifyOuterRounds, bind_eq_ok, field_eq_ok, raiseIf_eq_ok, pure_eq_ok, not_not,
    Prod.mk.injEq, Round.IsCanonical]
  constructor
  · rintro ⟨_, ⟨h0, rfl⟩, _, ⟨h1, rfl⟩, _, ⟨h2, rfl⟩, -, hsum, challenge, hchallenge,
      ⟨_, challenges'⟩, hrest, rfl, rfl⟩
    exact ⟨⟨h0, h1, h2⟩, hsum, challenge, challenges', hchallenge, hrest, rfl⟩
  · rintro ⟨⟨h0, h1, h2⟩, hsum, challenge, challenges', hchallenge, hrest, rfl⟩
    exact ⟨_, ⟨h0, rfl⟩, _, ⟨h1, rfl⟩, _, ⟨h2, rfl⟩, (), hsum, challenge, hchallenge, _, hrest, rfl,
      rfl⟩

/-! ### The loop -/

variable {sha256 : Bytes → Digest}

/-- The rounds of the prover from two vectors of `2 ^ n` entries on, and the verifier that follows
them. -/
structure HonestOuter (sha256 : Bytes → Digest) (n count : ℕ) (xValues fValues : List ℤ)
    (transcript : Digest) (rounds : List Round) (challenges : List ℤ) : Prop where
  length_rounds : rounds.length = n
  length_challenges : challenges.length = n
  canonical_rounds : ∀ g ∈ rounds, g.IsCanonical
  canonical_challenges : CanonicalVector challenges
  /-- The verifier starts from the sum of the products and ends in the product of the extensions. -/
  replayed : ∀ running : ℤ, Canonical running →
    (running : F) = Multilinear.inner n (fieldAt xValues) (fieldAt fValues) →
    ∃ last, verifyOuterRounds sha256 rounds (count + 1) running transcript =
        .ok (last, challenges) ∧
      (last : F) = mle (toField challenges.reverse) (fieldAt xValues) *
        mle (toField challenges.reverse) (fieldAt fValues)

theorem HonestOuter.cons {count : ℕ} {fValues : List ℤ} {challenge : ℤ}
    (hlength : xValues.length = 2 ^ (n + 1))
    (hchallenge : challengeOf sha256 (absorbRound sha256 transcript (outerRound xValues fValues))
      (count + 1) = .ok challenge)
    (h : HonestOuter sha256 n (count + 1) (foldHalves xValues (2 ^ n) challenge)
      (foldHalves fValues (2 ^ n) challenge)
      (absorbRound sha256 transcript (outerRound xValues fValues)) rounds challenges) :
    HonestOuter sha256 (n + 1) count xValues fValues transcript
      (outerRound xValues fValues :: rounds) (challenge :: challenges) where
  length_rounds := by rw [List.length_cons, h.length_rounds]
  length_challenges := by rw [List.length_cons, h.length_challenges]
  canonical_rounds := List.forall_mem_cons.mpr
    ⟨(outerRound_spec fValues hlength).1, h.canonical_rounds⟩
  canonical_challenges := List.forall_mem_cons.mpr
    ⟨canonical_of_challengeOf hchallenge, h.canonical_challenges⟩
  replayed := by
    intro running hrunning hsum
    obtain ⟨hcanonical, hfield⟩ := outerRound_spec fValues hlength
    set g := outerRound xValues fValues with hg
    -- the values at 0 and 1 add up to the running value
    have hfirst : (g.1 + g.2.1) % goldilocksModulus = running := by
      refine (hrunning.eq_emod_iff.mpr ?_).symm
      rw [hsum, ← highRound_sum, Int.cast_add]
      simp only [Round.toField, Prod.mk.injEq] at hfield
      rw [hfield.1, hfield.2.1]
    -- the quadratic at the challenge is the sum that the next round starts from
    have hnext : (recombine g challenge : F) = Multilinear.inner n
        (fieldAt (foldHalves xValues (2 ^ n) challenge))
        (fieldAt (foldHalves fValues (2 ^ n) challenge)) := by
      rw [intCast_recombine, hfield, quad_highRound two_mul_inv2, highRound]
      exact inner_congr (fun i hi => (fieldAt_foldHalves xValues challenge hi).symm)
        fun i hi => (fieldAt_foldHalves fValues challenge hi).symm
    obtain ⟨last, hverify, hlast⟩ := h.replayed _ (canonical_emod _) hnext
    refine ⟨last, verifyOuterRounds_cons_eq_ok.mpr
      ⟨hcanonical, hfirst, challenge, challenges, hchallenge, hverify, rfl⟩, ?_⟩
    rw [hlast, mle_reverse_cons h.length_challenges, mle_reverse_cons h.length_challenges]

private theorem half_of_length (hlength : values.length = 2 ^ (n + 1)) :
    1 < values.length ∧ values.length / 2 = 2 ^ n := by
  rw [hlength, pow_succ, Nat.mul_div_cancel _ (by norm_num)]
  have := Nat.one_le_two_pow (n := n)
  exact ⟨by omega, rfl⟩

theorem outerLoop_eq_ok {count : ℕ} {fValues : List ℤ} (hlength : xValues.length = 2 ^ n)
    (h : outerLoop sha256 count xValues fValues transcript = .ok (rounds, challenges)) :
    HonestOuter sha256 n count xValues fValues transcript rounds challenges := by
  induction n generalizing count xValues fValues transcript rounds challenges with
  | zero =>
    rw [outerLoop, dif_neg (by rw [hlength]; norm_num), pure_eq_ok] at h
    obtain ⟨rfl, rfl⟩ := Prod.mk.inj h
    refine ⟨rfl, rfl, by simp, by simp [CanonicalVector], fun running _ hsum => ?_⟩
    exact ⟨running, rfl, by simpa [toField, mle, Multilinear.inner, eqWeight] using hsum⟩
  | succ n ih =>
    obtain ⟨hlong, hhalf⟩ := half_of_length hlength
    rw [outerLoop, dif_pos hlong] at h
    simp only [bind_eq_ok, pure_eq_ok, hhalf] at h
    obtain ⟨challenge, hchallenge, ⟨rounds', challenges'⟩, hrest, heq⟩ := h
    obtain ⟨rfl, rfl⟩ := Prod.mk.inj heq
    exact (ih (length_foldHalves xValues (2 ^ n) challenge) hrest).cons hlength hchallenge

theorem exists_outerLoop
    (hchallenges : ∀ transcript roundIndex, Accepts (challengeOf sha256 transcript roundIndex))
    (count : ℕ) (fValues : List ℤ) (hlength : xValues.length = 2 ^ n) (transcript : Digest) :
    ∃ rounds challenges,
      outerLoop sha256 count xValues fValues transcript = .ok (rounds, challenges) := by
  induction n generalizing count xValues fValues transcript with
  | zero =>
    refine ⟨[], [], ?_⟩
    rw [outerLoop, dif_neg (by rw [hlength]; norm_num)]
    rfl
  | succ n ih =>
    obtain ⟨hlong, hhalf⟩ := half_of_length hlength
    obtain ⟨challenge, hchallenge⟩ := hchallenges
      (absorbRound sha256 transcript (outerRound xValues fValues)) (count + 1)
    obtain ⟨rounds, challenges, hrest⟩ := ih (count + 1) (foldHalves fValues (2 ^ n) challenge)
      (length_foldHalves xValues (2 ^ n) challenge)
      (absorbRound sha256 transcript (outerRound xValues fValues))
    refine ⟨outerRound xValues fValues :: rounds, challenge :: challenges, ?_⟩
    rw [outerLoop, dif_pos hlong]
    simp only [bind_eq_ok, pure_eq_ok, hhalf]
    exact ⟨challenge, hchallenge, _, hrest, rfl⟩

end Verathos.SuccinctFold
