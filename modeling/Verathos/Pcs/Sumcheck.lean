import Verathos.Pcs.Defs

/-!
# The sumcheck of the commitment

The round arithmetic of prover and verifier, read in the field: `_fold_pairs` is
`Multilinear.fold`, `_eq_weights` is `Multilinear.eqWeight`, the prover's round triple is
`Multilinear.honestRound` and the verifier's recombination is `Multilinear.quad`.

`roundChain` is the verifier's round loop for given challenges; `verifyRounds_chain` says that
the transcript loop runs it. `roundChain_sound` is its round-by-round soundness.
-/

namespace Verathos.Pcs

open Multilinear

/-- A list of integers, in the field. -/
def toField (values : List ℤ) : List F := values.map (Int.cast : ℤ → F)

@[simp]
theorem length_toField (values : List ℤ) : (toField values).length = values.length :=
  List.length_map _

@[simp]
theorem toField_cons (value : ℤ) (values : List ℤ) :
    toField (value :: values) = (value : F) :: toField values := rfl

theorem toField_append (values others : List ℤ) :
    toField (values ++ others) = toField values ++ toField others := List.map_append

/-! ## Folding -/

theorem length_foldPairs (values : List ℤ) (challenge : ℤ) :
    (foldPairs values challenge).length = values.length / 2 := by
  simp [foldPairs]

theorem canonicalVector_foldPairs (values : List ℤ) (challenge : ℤ) :
    CanonicalVector (foldPairs values challenge) := by
  intro v hv
  obtain ⟨i, -, rfl⟩ := List.mem_map.mp hv
  exact canonical_emod _

variable {values : List ℤ}

theorem fieldAt_foldPairs (challenge : ℤ) {i : ℕ} (hi : i < values.length / 2) :
    fieldAt (foldPairs values challenge) i = fold (challenge : F) (fieldAt values) i := by
  have hget : (foldPairs values challenge).getD i 0 =
      (values.getD (2 * i) 0 + challenge * (values.getD (2 * i + 1) 0 - values.getD (2 * i) 0)) %
        goldilocksModulus := by
    rw [List.getD_eq_getElem _ _ (by rwa [length_foldPairs])]
    simp [foldPairs]
  rw [fieldAt, hget, intCast_emod, fold, fieldAt, fieldAt]
  push_cast
  ring

variable {challenges : List ℤ}

theorem foldl_foldPairs {m : ℕ} (hlength : values.length = 2 ^ challenges.length * m) :
    (challenges.foldl foldPairs values).length = m ∧ ∀ i < m,
      fieldAt (challenges.foldl foldPairs values) i =
        foldAll (toField challenges) (fieldAt values) i := by
  induction challenges generalizing values with
  | nil => simpa [toField, foldAll] using hlength
  | cons c challenges ih =>
    have hhalf : values.length / 2 = 2 ^ challenges.length * m := by
      rw [hlength, List.length_cons, pow_succ', mul_assoc, Nat.mul_div_cancel_left _ (by norm_num)]
    obtain ⟨hlen, hentries⟩ := ih ((length_foldPairs values c).trans hhalf)
    refine ⟨hlen, fun i hi => ?_⟩
    rw [List.foldl_cons, hentries i hi, toField_cons, foldAll]
    refine foldAll_congr (fun j hj => fieldAt_foldPairs c ?_) i hi
    rw [length_toField] at hj
    rwa [hhalf]

/-! ## The equality weights -/

private theorem foldl_eqWeight (point : List ℤ) (index start : ℕ) (w : ℤ) :
    (((point.zipIdx start).foldl
      (fun w (x : ℤ × ℕ) => w *
        (if (index >>> x.2) &&& 1 = 1 then x.1 else (1 - x.1) % goldilocksModulus) %
          goldilocksModulus) w : ℤ) : F) =
      w * eqWeight (toField point) (index >>> start) := by
  induction point generalizing start w with
  | nil => simp [toField, eqWeight]
  | cons r point ih =>
    have hshift : index >>> (start + 1) = index >>> start / 2 := by
      rw [Nat.shiftRight_add, Nat.shiftRight_one]
    rw [List.zipIdx_cons, List.foldl_cons, ih, toField_cons, eqWeight, intCast_emod,
      Int.cast_mul, hshift, Nat.and_one_is_mod]
    split_ifs
    · ring
    · rw [intCast_emod]
      push_cast
      ring

variable {point : List ℤ}

theorem fieldAt_eqWeights {i : ℕ} (hi : i < 2 ^ point.length) :
    fieldAt (eqWeights point) i = eqWeight (toField point) i := by
  have hget : (eqWeights point).getD i 0 = eqWeightOf point i := by
    rw [List.getD_eq_getElem _ _ (by simpa [eqWeights, Nat.one_shiftLeft] using hi)]
    simp [eqWeights]
  have hfold := foldl_eqWeight point i 0 1
  rw [Nat.shiftRight_zero, Int.cast_one, one_mul] at hfold
  rw [fieldAt, hget]
  exact hfold

@[simp]
theorem length_eqWeights (point : List ℤ) : (eqWeights point).length = 2 ^ point.length := by
  simp [eqWeights, Nat.one_shiftLeft]

/-- The multilinear extension of a vector at a point, term by term. -/
def multilinearExtension (values point : List ℤ) : ℤ :=
  (∑ i ∈ Finset.range (2 ^ point.length), values.getD i 0 *
    ∏ j ∈ Finset.range point.length,
      if i.testBit j then point.getD j 0 else 1 - point.getD j 0) % goldilocksModulus

private theorem eqWeight_eq_prod (point : List ℤ) (i : ℕ) :
    eqWeight (toField point) i = ((∏ j ∈ Finset.range point.length,
      if i.testBit j then point.getD j 0 else 1 - point.getD j 0 : ℤ) : F) := by
  induction point generalizing i with
  | nil => simp [toField, eqWeight]
  | cons r point ih =>
    rw [toField_cons, eqWeight, ih, List.length_cons, Finset.prod_range_succ', mul_comm,
      Int.cast_mul]
    congr 1
    · simp only [Nat.testBit_succ, List.getD_cons_succ]
    · simp only [Nat.testBit_zero, List.getD_cons_zero, decide_eq_true_eq]
      split_ifs <;> push_cast <;> rfl

theorem intCast_multilinearExtension (values point : List ℤ) :
    (multilinearExtension values point : F) =
      mle (toField point) (fieldAt values) := by
  rw [multilinearExtension, intCast_emod, mle, Multilinear.inner, length_toField, Int.cast_sum]
  refine Finset.sum_congr rfl fun i _ => ?_
  rw [Int.cast_mul, eqWeight_eq_prod]
  rfl

/-! ## Round polynomials -/

/-- A round triple in the field. -/
def Round.toField (g : Round) : F × F × F := (g.1, g.2.1, g.2.2)

/-- The values of a round triple are canonical. -/
def Round.IsCanonical (g : Round) : Prop := Canonical g.1 ∧ Canonical g.2.1 ∧ Canonical g.2.2

variable {g : Round}

theorem Round.IsCanonical.ext {h : Round} (hg : g.IsCanonical) (hh : h.IsCanonical)
    (heq : g.toField = h.toField) : g = h := by
  simp only [Round.toField, Prod.mk.injEq] at heq
  exact Prod.ext (hg.1.ext hh.1 heq.1)
    (Prod.ext (hg.2.1.ext hh.2.1 heq.2.1) (hg.2.2.ext hh.2.2 heq.2.2))

theorem intCast_recombine (g : Round) (z : ℤ) :
    (recombine g z : F) = quad (inv2 : F) g.toField z := by
  rw [recombine, quad, Round.toField]
  simp only [intCast_emod, Int.cast_add, Int.cast_sub, Int.cast_mul, Int.cast_one, Int.cast_ofNat]

theorem roundPolynomial_spec (weights : List ℤ) {n : ℕ} (hlength : values.length = 2 ^ (n + 1)) :
    (roundPolynomial values weights).IsCanonical ∧
      (roundPolynomial values weights).toField =
        honestRound n (fieldAt values) (fieldAt weights) := by
  have hloop : ∀ k, ((List.range k).foldl (roundStep values weights) (0, 0, 0)).IsCanonical ∧
      Round.toField ((List.range k).foldl (roundStep values weights) (0, 0, 0)) =
        ∑ i ∈ Finset.range k,
          (fold 0 (fieldAt values) i * fold 0 (fieldAt weights) i,
            fold 1 (fieldAt values) i * fold 1 (fieldAt weights) i,
            fold 2 (fieldAt values) i * fold 2 (fieldAt weights) i) := by
    intro k
    induction k with
    | zero =>
      have hzero : Canonical 0 := ⟨le_rfl, goldilocksModulus_pos⟩
      exact ⟨⟨hzero, hzero, hzero⟩, by simp [Round.toField]⟩
    | succ k ih =>
      rw [List.range_succ, List.foldl_append, Finset.sum_range_succ, ← ih.2, List.foldl_cons,
        List.foldl_nil]
      refine ⟨⟨canonical_emod _, canonical_emod _, canonical_emod _⟩, ?_⟩
      simp only [Round.toField, roundStep, intCast_emod, Int.cast_add, Int.cast_sub, Int.cast_mul,
        Int.cast_ofNat, fold, fieldAt, Prod.mk_add_mk, Prod.mk.injEq]
      refine ⟨?_, ?_, ?_⟩ <;> ring
  have hhalf : values.length / 2 = 2 ^ n := by
    rw [hlength, pow_succ, Nat.mul_div_cancel _ (by norm_num)]
  rw [roundPolynomial, hhalf]
  refine ⟨(hloop _).1, (hloop _).2.trans ?_⟩
  refine Prod.ext ?_ (Prod.ext ?_ ?_)
  · rw [Prod.fst_sum]
    rfl
  · rw [Prod.snd_sum, Prod.fst_sum]
    rfl
  · rw [Prod.snd_sum, Prod.snd_sum]
    rfl

/-! ## The verifier's chain -/

/-- The round loop of the verifier for given challenges: every round value is canonical, the
values at 0 and 1 add up to the running value, and the quadratic at the challenge replaces it. -/
def roundChain : List Round → List ℤ → ℤ → Result ℤ
  | [], [], running => .ok running
  | (g0, g1, g2) :: rounds, challenge :: challenges, running => do
    let g0 ← field g0 "g0"
    let g1 ← field g1 "g1"
    let g2 ← field g2 "g2"
    raiseIf ((g0 + g1) % goldilocksModulus ≠ running)
      (.proofV3VerificationError "mlpcs round polynomial does not match the running sum")
    roundChain rounds challenges (recombine (g0, g1, g2) challenge)
  | _, _, _ => .error (.builtin "ValueError")

variable {rounds : List Round} {running last : ℤ}

theorem roundChain_cons_eq_ok {challenge : ℤ} :
    roundChain (g :: rounds) (challenge :: challenges) running = .ok last ↔
      g.IsCanonical ∧ (g.1 + g.2.1) % goldilocksModulus = running ∧
        roundChain rounds challenges (recombine g challenge) = .ok last := by
  obtain ⟨g0, g1, g2⟩ := g
  simp only [roundChain, bind_eq_ok, field_eq_ok, raiseIf_eq_ok, not_not, Round.IsCanonical]
  constructor
  · rintro ⟨_, ⟨h0, rfl⟩, _, ⟨h1, rfl⟩, _, ⟨h2, rfl⟩, -, hsum, hrest⟩
    exact ⟨⟨h0, h1, h2⟩, hsum, hrest⟩
  · rintro ⟨⟨h0, h1, h2⟩, hsum, hrest⟩
    exact ⟨_, ⟨h0, rfl⟩, _, ⟨h1, rfl⟩, _, ⟨h2, rfl⟩, (), hsum, hrest⟩

variable {sha256 : Bytes → Digest} {layerCommitments : List Bytes} {roundIndex : ℕ}
  {transcript transcript' : Digest}

theorem verifyRounds_cons_eq_ok :
    verifyRounds sha256 layerCommitments (g :: rounds) roundIndex running transcript =
        .ok (last, challenges, transcript') ↔
      g.IsCanonical ∧ (g.1 + g.2.1) % goldilocksModulus = running ∧
        ∃ challenge root challenges',
          deriveField sha256 (absorbRound sha256 transcript g) foldLabel roundIndex =
            .ok challenge ∧
          layerCommitments[roundIndex]? = some root ∧
          verifyRounds sha256 layerCommitments rounds (roundIndex + 1) (recombine g challenge)
            (sha256 ((absorbRound sha256 transcript g).bytes ++ root)) =
              .ok (last, challenges', transcript') ∧
          challenges = challenge :: challenges' := by
  obtain ⟨g0, g1, g2⟩ := g
  simp only [verifyRounds, bind_eq_ok, field_eq_ok, raiseIf_eq_ok, pure_eq_ok, getItem_eq_ok, not_not,
    Prod.mk.injEq, Round.IsCanonical]
  constructor
  · rintro ⟨_, ⟨h0, rfl⟩, _, ⟨h1, rfl⟩, _, ⟨h2, rfl⟩, -, hsum, challenge, hchallenge, root, hroot,
      ⟨_, challenges', _⟩, hrest, rfl, rfl, rfl⟩
    exact ⟨⟨h0, h1, h2⟩, hsum, challenge, root, challenges', hchallenge, hroot, hrest, rfl⟩
  · rintro ⟨⟨h0, h1, h2⟩, hsum, challenge, root, challenges', hchallenge, hroot, hrest, rfl⟩
    exact ⟨_, ⟨h0, rfl⟩, _, ⟨h1, rfl⟩, _, ⟨h2, rfl⟩, (), hsum, challenge, hchallenge, root, hroot,
      _, hrest, rfl, rfl, rfl⟩

theorem verifyRounds_nil_eq_ok :
    verifyRounds sha256 layerCommitments [] roundIndex running transcript =
        .ok (last, challenges, transcript') ↔
      last = running ∧ challenges = [] ∧ transcript' = transcript := by
  simp only [verifyRounds, Except.ok.injEq, Prod.mk.injEq]
  exact ⟨fun ⟨h, h', h''⟩ => ⟨h.symm, h'.symm, h''.symm⟩,
    fun ⟨h, h', h''⟩ => ⟨h.symm, h'.symm, h''.symm⟩⟩

theorem verifyRounds_chain
    (h : verifyRounds sha256 layerCommitments rounds roundIndex running transcript =
      .ok (last, challenges, transcript')) : roundChain rounds challenges running = .ok last := by
  induction rounds generalizing roundIndex running transcript challenges with
  | nil =>
    obtain ⟨rfl, rfl, -⟩ := verifyRounds_nil_eq_ok.mp h
    rfl
  | cons g rounds ih =>
    obtain ⟨hg, hsum, challenge, root, challenges', -, -, hrest, rfl⟩ :=
      verifyRounds_cons_eq_ok.mp h
    exact roundChain_cons_eq_ok.mpr ⟨hg, hsum, ih hrest⟩

theorem canonical_of_deriveField {seed : Digest} {label : Bytes} {index : ℕ} {challenge : ℤ}
    (h : deriveField sha256 seed label index = .ok challenge) : Canonical challenge := by
  obtain ⟨word, rfl, hlt⟩ := rejectionSample_eq_ok h
  exact ⟨Int.natCast_nonneg _, Int.ofNat_lt.mpr hlt⟩

theorem canonical_of_verifyRounds (hrunning : Canonical running)
    (h : verifyRounds sha256 layerCommitments rounds roundIndex running transcript =
      .ok (last, challenges, transcript')) : Canonical last ∧ CanonicalVector challenges := by
  induction rounds generalizing roundIndex running transcript challenges with
  | nil =>
    obtain ⟨rfl, rfl, -⟩ := verifyRounds_nil_eq_ok.mp h
    exact ⟨hrunning, by simp [CanonicalVector]⟩
  | cons g rounds ih =>
    obtain ⟨-, -, challenge, root, challenges', hchallenge, -, hrest, rfl⟩ :=
      verifyRounds_cons_eq_ok.mp h
    obtain ⟨hlast, hchallenges⟩ := ih (canonical_emod _) hrest
    exact ⟨hlast, List.forall_mem_cons.mpr ⟨canonical_of_deriveField hchallenge, hchallenges⟩⟩

/-- The rounds of a chain, with their challenges, in the field. -/
def fieldRounds (rounds : List Round) (challenges : List ℤ) : List ((F × F × F) × F) :=
  (rounds.zip challenges).map fun x => (x.1.toField, (x.2 : F))

theorem chain_of_roundChain (h : roundChain rounds challenges running = .ok last) :
    rounds.length = challenges.length ∧ (∀ g ∈ rounds, g.IsCanonical) ∧
      Chain (inv2 : F) running (fieldRounds rounds challenges) last := by
  induction rounds generalizing challenges running with
  | nil =>
    cases challenges with
    | nil =>
      obtain rfl : running = last := by simpa [roundChain] using h
      exact ⟨rfl, by simp, rfl⟩
    | cons c challenges => simp [roundChain] at h
  | cons g rounds ih =>
    cases challenges with
    | nil => simp [roundChain] at h
    | cons c challenges =>
      obtain ⟨hg, hsum, hrest⟩ := roundChain_cons_eq_ok.mp h
      obtain ⟨hlength, hcanonical, hchain⟩ := ih hrest
      refine ⟨by simp [hlength], List.forall_mem_cons.mpr ⟨hg, hcanonical⟩, ?_, ?_⟩
      · rw [← hsum, intCast_emod, Int.cast_add]
        rfl
      · rw [← intCast_recombine]
        exact hchain

/-- The canonical triple of a round in the field. -/
def Round.ofField (g : F × F × F) : Round :=
  (Verathos.ofField g.1, Verathos.ofField g.2.1, Verathos.ofField g.2.2)

theorem Round.isCanonical_ofField (g : F × F × F) : (Round.ofField g).IsCanonical :=
  ⟨canonical_ofField _, canonical_ofField _, canonical_ofField _⟩

@[simp]
theorem Round.toField_ofField (g : F × F × F) : (Round.ofField g).toField = g := by
  simp [Round.ofField, Round.toField]

theorem roundChain_of_chain {rounds : List (F × F × F)} {running last : F}
    (hlength : rounds.length = challenges.length)
    (h : Chain (inv2 : F) running (rounds.zip (toField challenges)) last) :
    roundChain (rounds.map Round.ofField) challenges (ofField running) = .ok (ofField last) := by
  induction rounds generalizing challenges running with
  | nil =>
    obtain rfl := List.length_eq_zero_iff.mp hlength.symm
    obtain rfl : running = last := h
    rfl
  | cons g rounds ih =>
    obtain ⟨c, challenges, rfl⟩ := List.exists_cons_of_length_eq_add_one hlength.symm
    obtain ⟨hsum, hrest⟩ := h
    refine roundChain_cons_eq_ok.mpr ⟨Round.isCanonical_ofField g, ?_, ?_⟩
    · refine (canonical_emod _).ext (canonical_ofField _) ?_
      rw [intCast_emod, Int.cast_add, intCast_ofField, ← hsum]
      simp [Round.ofField]
    · have hvalue : recombine (Round.ofField g) c = ofField (quad (inv2 : F) g c) := by
        refine (canonical_emod _).ext (canonical_ofField _) ?_
        change (recombine (Round.ofField g) c : F) = _
        rw [intCast_recombine, Round.toField_ofField, intCast_ofField]
      rw [hvalue]
      exact ih (Nat.succ.inj hlength) hrest

/-- The claimed value of an accepted chain is canonical, because every running value is reduced. -/
theorem canonical_of_roundChain {claimed : ℤ} (h : roundChain rounds challenges claimed = .ok last)
    (hlast : Canonical last) : Canonical claimed := by
  cases rounds with
  | nil =>
    cases challenges with
    | nil =>
      obtain rfl : claimed = last := by simpa [roundChain] using h
      exact hlast
    | cons c challenges => simp [roundChain] at h
  | cons g rounds =>
    cases challenges with
    | nil => simp [roundChain] at h
    | cons c challenges =>
      obtain ⟨-, rfl, -⟩ := roundChain_cons_eq_ok.mp h
      exact canonical_emod _

theorem eqProductLoop_spec (hlength : challenges.length = point.length) (start : ℤ) :
    ∃ eqProduct, eqProductLoop challenges point start = .ok eqProduct ∧
      (eqProduct : F) = start *
        (((toField challenges).zip (toField point)).map fun x => eqTerm x.1 x.2).prod := by
  induction challenges generalizing point start with
  | nil =>
    obtain rfl := List.length_eq_zero_iff.mp hlength.symm
    exact ⟨start, rfl, by simp [toField]⟩
  | cons c challenges ih =>
    obtain ⟨r, point, rfl⟩ := List.exists_cons_of_length_eq_add_one hlength.symm
    obtain ⟨eqProduct, hloop, hvalue⟩ :=
      ih (Nat.succ.inj hlength) (start * eqTermOf c r % goldilocksModulus)
    refine ⟨eqProduct, hloop, ?_⟩
    simp only [toField_cons, List.zip_cons_cons, List.map_cons, List.prod_cons]
    rw [hvalue, intCast_emod, Int.cast_mul, eqTermOf, intCast_emod, eqTerm]
    push_cast
    ring

/-- The values and the weights as round `j` finds them: bound to the first `j` challenges. -/
def boundVector (values challenges : List ℤ) (j : ℕ) : List ℤ :=
  (challenges.take j).foldl foldPairs values

/-- The triple that an honest prover sends in round `j`. -/
def honestRoundAt (values point challenges : List ℤ) (j : ℕ) : Round :=
  roundPolynomial (boundVector values challenges j) (boundVector (eqWeights point) challenges j)

theorem honestRoundAt_spec (hvalues : values.length = 2 ^ point.length)
    (hlength : challenges.length = point.length) {j : ℕ} (hj : j < point.length) :
    (honestRoundAt values point challenges j).IsCanonical ∧
      (honestRoundAt values point challenges j).toField =
        honestRound (point.length - 1 - j)
          (foldAll ((toField challenges).take j) (fieldAt values))
          (foldAll ((toField challenges).take j) (eqWeight (toField point))) := by
  have htake : (challenges.take j).length = j := by
    rw [List.length_take]
    omega
  have hsplit : 2 ^ point.length = 2 ^ (challenges.take j).length * 2 ^ (point.length - 1 - j + 1) := by
    rw [htake, ← pow_add]
    congr 1
    omega
  have hcast : (toField challenges).take j = toField (challenges.take j) := List.map_take.symm
  obtain ⟨hlenV, hentriesV⟩ := foldl_foldPairs (hvalues.trans hsplit)
  obtain ⟨-, hentriesW⟩ := foldl_foldPairs ((length_eqWeights point).trans hsplit)
  obtain ⟨hcanonical, hround⟩ :=
    roundPolynomial_spec (boundVector (eqWeights point) challenges j) hlenV
  refine ⟨hcanonical, hround.trans ?_⟩
  rw [hcast]
  have hweights : ∀ i < 2 ^ (point.length - 1 - j + 1),
      fieldAt (boundVector (eqWeights point) challenges j) i =
        foldAll (toField (challenges.take j)) (eqWeight (toField point)) i := by
    intro i hi
    rw [boundVector, hentriesW i hi]
    refine foldAll_congr (fun i' hi' => fieldAt_eqWeights ?_) i hi
    rwa [hsplit, ← length_toField (challenges.take j)]
  have hfold : ∀ z : F, Multilinear.inner (point.length - 1 - j)
      (fold z (fieldAt ((challenges.take j).foldl foldPairs values)))
      (fold z (fieldAt (boundVector (eqWeights point) challenges j))) =
      Multilinear.inner (point.length - 1 - j)
        (fold z (foldAll (toField (challenges.take j)) (fieldAt values)))
        (fold z (foldAll (toField (challenges.take j)) (eqWeight (toField point)))) := by
    intro z
    rw [pow_succ'] at hentriesV hweights
    exact inner_congr (fold_congr hentriesV) (fold_congr hweights)
  simp only [honestRound, hfold]

theorem exists_recombine_ne {h : Round} (hg : g.IsCanonical) (hh : h.IsCanonical) (hne : g ≠ h) :
    ∃ z, recombine g z ≠ recombine h z := by
  by_contra hall
  push Not at hall
  have hquad : ∀ z : ℤ, quad (inv2 : F) g.toField z = quad (inv2 : F) h.toField z := by
    intro z
    rw [← intCast_recombine, ← intCast_recombine, hall]
  have hinv := two_mul_inv2
  have h0 := hquad 0
  have h1 := hquad 1
  have h2 := hquad 2
  simp only [quad, Int.cast_zero, Int.cast_one, Int.cast_ofNat] at h0 h1 h2
  refine hne (hg.ext hh (Prod.ext ?_ (Prod.ext ?_ ?_)))
  · linear_combination h0 + (h.toField.1 - g.toField.1) * hinv
  · linear_combination h1
  · linear_combination h2 + (h.toField.2.2 - g.toField.2.2) * hinv

theorem map_snd_fieldRounds (hrounds : rounds.length = challenges.length) :
    (fieldRounds rounds challenges).map Prod.snd = toField challenges := by
  rw [fieldRounds, List.map_map]
  change (rounds.zip challenges).map (Int.cast ∘ Prod.snd) = _
  rw [← List.map_map, List.map_snd_zip hrounds.ge]
  rfl

/-- An accepted chain that ends in the product of the bound values but does not start from the
multilinear extension has a round whose quadratic is not the honest one and meets it at the
challenge. -/
theorem exists_luckyRound {claimed : ℤ} (hvalues : values.length = 2 ^ point.length)
    (hlength : challenges.length = point.length)
    (hchain : roundChain rounds challenges claimed = .ok running) (hrunning : Canonical running)
    (hlast : (running : F) = foldAll (toField challenges) (fieldAt values) 0 *
      foldAll (toField challenges) (eqWeight (toField point)) 0)
    (hclaimed : claimed ≠ multilinearExtension values point) :
    ∃ j < point.length, ∃ g c, rounds[j]? = some g ∧ challenges[j]? = some c ∧
      (∃ z, recombine g z ≠ recombine (honestRoundAt values point challenges j) z) ∧
      recombine g c = recombine (honestRoundAt values point challenges j) c := by
  obtain ⟨hrounds, hcanonical, hfield⟩ := chain_of_roundChain hchain
  have hmap := map_snd_fieldRounds hrounds
  have hcount : (fieldRounds rounds challenges).length = point.length := by
    simp [fieldRounds, hrounds, hlength]
  have hfalse : (claimed : F) ≠ Multilinear.inner (fieldRounds rounds challenges).length
      (fieldAt values) (eqWeight (toField point)) := by
    intro heq
    refine hclaimed ?_
    refine (canonical_of_roundChain hchain hrunning).ext (canonical_emod _) ?_
    rw [heq, intCast_multilinearExtension, mle, hcount, length_toField]
  rw [hlast, ← hmap] at hfield
  obtain ⟨j, g, c, hj, hget, hne, hagree⟩ := (sumcheck_sound two_mul_inv2 hfield hfalse).exists_round
  rw [hcount] at hj hne hagree
  rw [hmap] at hne hagree
  -- back from the field to the round that was sent
  obtain ⟨⟨g', c'⟩, hzip, hpair⟩ : ∃ x, (rounds.zip challenges)[j]? = some x ∧
      (x.1.toField, (x.2 : F)) = (g, c) := by
    rw [fieldRounds, List.getElem?_map] at hget
    exact Option.map_eq_some_iff.mp hget
  obtain ⟨rfl, rfl⟩ := Prod.mk.inj hpair
  obtain ⟨hg, hc⟩ := List.getElem?_zip_eq_some.mp hzip
  obtain ⟨hhonest, hspec⟩ := honestRoundAt_spec hvalues hlength hj
  refine ⟨j, hj, g', c', hg, hc, ?_, ?_⟩
  · refine exists_recombine_ne (hcanonical g' (List.mem_of_getElem? hg)) hhonest fun h => hne ?_
    rw [← hspec, ← h]
  · refine (canonical_emod _).ext (canonical_emod _) ?_
    change (recombine g' c' : F) = (recombine _ c' : F)
    rw [intCast_recombine, intCast_recombine, hspec]
    exact hagree

theorem foldl_foldPairs_eq_singleton {finalValue : ℤ}
    (hvalues : values.length = 2 ^ challenges.length)
    (hfinal : challenges.foldl foldPairs values = [finalValue]) :
    (finalValue : F) = foldAll (toField challenges) (fieldAt values) 0 := by
  obtain ⟨-, hentries⟩ := foldl_foldPairs (hvalues.trans (mul_one _).symm)
  rw [← hentries 0 Nat.one_pos, hfinal]
  rfl

/-- Round-by-round soundness: when the chain and the coupling accept, the final value is the
vector folded by the challenges, and the claimed value is not the multilinear extension of the
vector at the point, then some round sent a quadratic that is not the honest one and met it at
its challenge. -/
theorem roundChain_sound (values point : List ℤ) (rounds : List Round) (challenges : List ℤ)
    (claimed finalValue running eqProduct : ℤ) (hvalues : values.length = 2 ^ point.length)
    (hlength : challenges.length = point.length)
    (hchain : roundChain rounds challenges claimed = .ok running)
    (hproduct : eqProductLoop challenges point 1 = .ok eqProduct)
    (hcoupling : running = finalValue * eqProduct % goldilocksModulus)
    (hfinal : challenges.foldl foldPairs values = [finalValue])
    (hclaimed : claimed ≠ multilinearExtension values point) :
    ∃ j < point.length, ∃ g c, rounds[j]? = some g ∧ challenges[j]? = some c ∧
      (∃ z, recombine g z ≠ recombine (honestRoundAt values point challenges j) z) ∧
      recombine g c = recombine (honestRoundAt values point challenges j) c := by
  refine exists_luckyRound hvalues hlength hchain (hcoupling ▸ canonical_emod _) ?_ hclaimed
  -- the chain ends in the product of the two bound values
  obtain ⟨eqProduct', hloop, hvalue⟩ := eqProductLoop_spec hlength 1
  obtain rfl : eqProduct' = eqProduct := Except.ok.inj (hloop.symm.trans hproduct)
  rw [hcoupling, intCast_emod, Int.cast_mul, hvalue,
    foldl_foldPairs_eq_singleton (by rw [hvalues, hlength]) hfinal,
    foldAll_eqWeight (by simp [hlength]), Int.cast_one, one_mul]

/-- The zero vector on one variable, claimed to be one at zero: the quadratic with the values 1, 0
and 0 passes at the challenge 1, and it is not the honest zero quadratic. -/
theorem roundChain_sound_zero_vector :
    (1 : ℤ) ≠ multilinearExtension [0, 0] [0] ∧
      ∃ j < 1, ∃ g c, [((1, 0, 0) : Round)][j]? = some g ∧ [(1 : ℤ)][j]? = some c ∧
        (∃ z, recombine g z ≠ recombine (honestRoundAt [0, 0] [0] [1] j) z) ∧
        recombine g c = recombine (honestRoundAt [0, 0] [0] [1] j) c :=
  ⟨by decide +kernel,
    roundChain_sound [0, 0] [0] [(1, 0, 0)] [1] 1 0 0 0 rfl rfl (by decide +kernel)
      (by decide +kernel) (by decide +kernel) (by decide +kernel) (by decide +kernel)⟩

end Verathos.Pcs
