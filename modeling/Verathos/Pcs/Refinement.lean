import Verathos.Pcs.Prepare

/-!
# The compiled verifier refines the Python loop

Stage by stage, `verify_opening_full` on the prepared arguments and the Python loop decide the
same: the round loop with the transcript and the challenges, the coupling product, the query
positions, the checks of the layers, the fold equations and the final constant. No write leaves
its array: there are at most 28 challenges, 64 positions, 128 expected indices and 3840 scheduled
siblings.

`verifyOpeningFull_iff` is the refinement of the C function, and `compiled_refines_python` the one
of the verifier.
-/

namespace Verathos.Pcs

open Merkle Compiled

namespace Compiled

/-! ## Outcomes -/

@[simp]
theorem returnIf_eq_ok {condition : Prop} [Decidable condition] {code : ℕ} {u : Unit} :
    returnIf condition code = .ok u ↔ ¬ condition := by
  unfold returnIf
  split_ifs with h <;> simp [h]

@[simp]
theorem overrunIf_eq_ok {condition : Prop} [Decidable condition] {u : Unit} :
    overrunIf condition = .ok u ↔ ¬ condition := by
  unfold overrunIf
  split_ifs with h <;> simp [h]

theorem push_of_lt {α : Type} {capacity : ℕ} {array : List α} (value : α)
    (h : array.length < capacity) : push capacity array value = .ok (array ++ [value]) := by
  rw [push, if_pos h]

theorem cForM_eq_ok {α : Type} {items : List α} {check : α → CResult Unit} {u : Unit} :
    items.forM check = .ok u ↔ ∀ item ∈ items, check item = .ok () := by
  induction items with
  | nil => simp [pure, Except.pure]
  | cons item items ih =>
    change (check item >>= fun _ => items.forM check) = .ok u ↔ _
    rw [bind_eq_ok, List.forall_mem_cons, ← ih]
    exact ⟨fun ⟨_, hitem, hrest⟩ => ⟨hitem, hrest⟩, fun ⟨hitem, hrest⟩ => ⟨(), hitem, hrest⟩⟩

/-! ## Rounds -/

theorem deriveFieldLoop_eq_ok {candidate : ℕ → ℕ} {error : PyError} {remaining counter z : ℕ} :
    deriveFieldLoop candidate remaining counter = .ok z ↔
      rejectionSample candidate (· < goldilocksModulus) error remaining counter = .ok (z : ℤ) := by
  induction remaining generalizing counter with
  | zero => simp [deriveFieldLoop, rejectionSample]
  | succ remaining ih =>
    rw [deriveFieldLoop, rejectionSample, glP]
    split_ifs
    · simp
    · exact ih

theorem deriveField_eq_ok {sha256 : Bytes → Digest} {transcript : Digest} {index z : ℕ} :
    deriveField sha256 challengeDomain transcript foldLabel index = .ok z ↔
      Pcs.deriveField sha256 transcript foldLabel index = .ok (z : ℤ) :=
  deriveFieldLoop_eq_ok

theorem recombine_spec {g0 g1 g2 z : ℕ} (h0 : IsWord g0) (h1 : IsWord g1) (h2 : IsWord g2)
    (hz : IsWord z) :
    IsWord (recombine g0 g1 g2 z) ∧
      ((recombine g0 g1 g2 z : ℕ) : ℤ) = Pcs.recombine ((g0 : ℤ), (g1 : ℤ), (g2 : ℤ)) z := by
  have hone : IsWord 1 := by
    rw [IsWord, glP_eq]
    norm_num
  have htwo : IsWord 2 := by
    rw [IsWord, glP_eq]
    norm_num
  obtain ⟨hzm1, hzm1'⟩ := glcSub_spec hz hone
  obtain ⟨hzm2, hzm2'⟩ := glcSub_spec hz htwo
  obtain ⟨ha, ha'⟩ := glcMul_spec hzm1.lt hzm2.lt
  obtain ⟨hb, hb'⟩ := glcMul_spec h0.lt ha.lt
  obtain ⟨ht0, ht0'⟩ := glcMul_spec hb.lt isWord_glcInv2.lt
  obtain ⟨hc, hc'⟩ := glcMul_spec hz.lt hzm2.lt
  obtain ⟨ht1, ht1'⟩ := glcMul_spec h1.lt hc.lt
  obtain ⟨hd, hd'⟩ := glcMul_spec hz.lt hzm1.lt
  obtain ⟨he, he'⟩ := glcMul_spec h2.lt hd.lt
  obtain ⟨ht2, ht2'⟩ := glcMul_spec he.lt isWord_glcInv2.lt
  obtain ⟨hs, hs'⟩ := glcAdd_spec ht0 ht2
  obtain ⟨hr, hr'⟩ := glcSub_spec hs ht1
  refine ⟨hr, hr.canonical.ext (canonical_emod _) ?_⟩
  have hword : ((recombine g0 g1 g2 z : ℕ) : F) = Multilinear.quad (inv2 : F) (g0, g1, g2) z := by
    change ((glcSub _ _ : ℕ) : F) = _
    rw [hr', hs', ht0', ht1', ht2', hb', hc', he', ha', hd', hzm1', hzm2', glcInv2_cast,
      Multilinear.quad, Nat.cast_one, Nat.cast_ofNat]
    ring
  change (((recombine g0 g1 g2 z : ℕ) : ℤ) : F) = (Pcs.recombine _ _ : F)
  rw [intCast_recombine, Int.cast_natCast, hword]
  simp [Round.toField]

end Compiled

section Rounds

variable {sha256 : Bytes → Digest} {statement : GoldilocksMultilinearPcsStatementV3}
  {proof : GoldilocksMultilinearOpeningProofV3} {commitment : Bytes} (point : List ℤ)
  (transcript : Digest) {shift : ℤ}

theorem canonical_iff_isWord {v : ℤ} (h : 0 ≤ v) : Canonical v ↔ IsWord v.toNat := by
  rw [Canonical, IsWord, glP]
  omega

/-- The round loop of the library and the one of Python return the same. -/
theorem roundLoop_eq_ok (hprepared : Preparable sha256 statement proof commitment shift)
    (hrounds : proof.roundPolynomials.length = statement.variableCount)
    (hwords : ∀ v ∈ proof.roundPolynomials.flatMap roundValues, 0 ≤ v ∧ v < 2 ^ 64)
    (remaining : ℕ) {r running : ℕ} {challenges : List ℕ} (t t' : Digest) (running' : ℕ)
    (challenges' : List ℕ) (hr : r + remaining = statement.variableCount)
    (hlength : challenges.length = r) (hrunning : IsWord running) :
    roundLoop sha256 (preparedArguments sha256 statement proof commitment point transcript shift)
        remaining r running challenges t = .ok (running', challenges', t') ↔
      ∃ cs : List ℤ, verifyRounds sha256 proof.layerCommitments (proof.roundPolynomials.drop r) r
          running t = .ok ((running' : ℤ), cs, t') ∧
        challenges' = challenges ++ cs.map Int.toNat := by
  have hcap := variableCount_add_two_le statement
  induction remaining generalizing r running challenges t with
  | zero =>
    rw [List.drop_eq_nil_of_le (by omega)]
    simp only [roundLoop, verifyRounds, Except.ok.injEq, Prod.mk.injEq, Nat.cast_inj]
    constructor
    · rintro ⟨rfl, rfl, rfl⟩
      exact ⟨[], ⟨rfl, rfl, rfl⟩, by simp⟩
    · rintro ⟨cs, ⟨rfl, rfl, rfl⟩, rfl⟩
      exact ⟨rfl, by simp, rfl⟩
  | succ remaining ih =>
    have hrlt : r < proof.roundPolynomials.length := by omega
    set g := proof.roundPolynomials[r] with hg
    have hget : proof.roundPolynomials[r]? = some g := List.getElem?_eq_getElem hrlt
    have hmem : g ∈ proof.roundPolynomials := List.mem_of_getElem? hget
    have hvalue : ∀ v ∈ roundValues g, 0 ≤ v := fun v hv =>
      (hwords v (List.mem_flatMap.mpr ⟨g, hmem, hv⟩)).1
    have hg0 : 0 ≤ g.1 := hvalue _ (by simp [roundValues])
    have hg1 : 0 ≤ g.2.1 := hvalue _ (by simp [roundValues])
    have hg2 : 0 ≤ g.2.2 := hvalue _ (by simp [roundValues])
    obtain ⟨hw0, hw1, hw2⟩ := rounds_prepared sha256 statement commitment point transcript shift hget
    obtain ⟨root, hroot⟩ : ∃ root, proof.layerCommitments[r]? = some root :=
      ⟨_, List.getElem?_eq_getElem (by rw [proof.length_layerCommitments]; exact hrlt)⟩
    have hslice := roots_prepared point transcript hprepared
      (show (commitment :: proof.layerCommitments)[r + 1]? = some root from hroot)
    have hpush : ∀ z, push 64 challenges z = .ok (challenges ++ [z]) := fun z =>
      push_of_lt z (by omega)
    have hdrop : proof.roundPolynomials.drop r = g :: proof.roundPolynomials.drop (r + 1) :=
      (List.getElem_cons_drop hrlt).symm
    rw [hdrop, roundLoop]
    simp only [verifyRounds_cons_eq_ok, bind_eq_ok, returnIf_eq_ok, not_or, not_not, hw0, hw1, hw2,
      hslice, hpush, Except.ok.injEq]
    have hcanonical : g.IsCanonical ↔ IsWord g.1.toNat ∧ IsWord g.2.1.toNat ∧ IsWord g.2.2.toNat := by
      rw [Round.IsCanonical, canonical_iff_isWord hg0, canonical_iff_isWord hg1,
        canonical_iff_isWord hg2]
    have hcast : ((g.1.toNat : ℤ), ((g.2.1.toNat : ℤ), (g.2.2.toNat : ℤ))) = g := by
      rw [Int.toNat_of_nonneg hg0, Int.toNat_of_nonneg hg1, Int.toNat_of_nonneg hg2]
    have hsum : IsWord g.1.toNat → IsWord g.2.1.toNat →
        (glcAdd g.1.toNat g.2.1.toNat = running ↔ (g.1 + g.2.1) % goldilocksModulus = running) := by
      intro h0 h1
      obtain ⟨hword, hvalue⟩ := glcAdd_spec h0 h1
      rw [natCast_toNat hg0, natCast_toNat hg1, ← Int.cast_add] at hvalue
      rw [eq_comm, eq_comm (b := (running : ℤ)), hrunning.canonical.eq_emod_iff, ← hvalue,
        Int.cast_natCast]
      exact ⟨fun h => by rw [h], hrunning.ext hword⟩
    constructor
    · rintro ⟨-, hlt, -, hrun, z, hz, _, rfl, hrest⟩
      have hwords' : IsWord g.1.toNat ∧ IsWord g.2.1.toNat ∧ IsWord g.2.2.toNat := by
        simpa [IsWord] using hlt
      obtain ⟨h0, h1, h2⟩ := hwords'
      have hz' := deriveField_eq_ok.mp hz
      have hzword : IsWord z := by
        simpa using isWord_toNat (canonical_of_deriveField hz')
      obtain ⟨hnext, hnext'⟩ := recombine_spec h0 h1 h2 hzword
      obtain ⟨cs, hverify, rfl⟩ := (ih _ (by omega) (by simp [hlength]) hnext).mp hrest
      rw [hnext', hcast] at hverify
      refine ⟨(z : ℤ) :: cs, ⟨hcanonical.mpr ⟨h0, h1, h2⟩, (hsum h0 h1).mp hrun, z, root, cs, hz',
        hroot, hverify, rfl⟩, by simp⟩
    · rintro ⟨cs, ⟨hg', hrun, challenge, root', cs', hchallenge, hroot', hverify, rfl⟩, rfl⟩
      obtain ⟨h0, h1, h2⟩ := hcanonical.mp hg'
      obtain rfl := Option.some.inj (hroot.symm.trans hroot')
      have hc := canonical_of_deriveField hchallenge
      obtain ⟨z, rfl⟩ := Int.eq_ofNat_of_zero_le hc.1
      have hzword : IsWord z := by simpa using isWord_toNat hc
      obtain ⟨hnext, hnext'⟩ := recombine_spec h0 h1 h2 hzword
      refine ⟨(), by simpa [IsWord] using ⟨h0, h1, h2⟩, (), (hsum h0 h1).mpr hrun, z,
        deriveField_eq_ok.mpr hchallenge, _, rfl, ?_⟩
      refine (ih _ (by omega) (by simp [hlength]) hnext).mpr ⟨cs', ?_, by simp⟩
      rw [hnext', hcast]
      exact hverify

end Rounds

/-! ## The coupling -/

theorem isWord_one : IsWord 1 := by
  rw [IsWord, glP_eq]
  norm_num

theorem eqpStep_spec {args : Arguments} {cs point : List ℤ} (hcs : CanonicalVector cs)
    (hpoint : CanonicalVector point) (hargs : args.point = point.map Int.toNat) {eqp k : ℕ}
    (heqp : IsWord eqp) (hk : k < cs.length) (hk' : k < point.length) :
    IsWord (eqpStep args (cs.map Int.toNat) eqp k) ∧
      (eqpStep args (cs.map Int.toNat) eqp k : F) =
        eqp * Multilinear.eqTerm (cs[k] : F) (point[k] : F) := by
  have hc := hcs _ (List.getElem_mem hk)
  have hp := hpoint _ (List.getElem_mem hk')
  have hgetc : (cs.map Int.toNat).getD k 0 = cs[k].toNat := by
    rw [List.getD_eq_getElem _ _ (by simpa using hk), List.getElem_map]
  have hgetp : args.point.getD k 0 = point[k].toNat := by
    rw [hargs, List.getD_eq_getElem _ _ (by simpa using hk'), List.getElem_map]
  rw [eqpStep, hgetc, hgetp]
  obtain ⟨ha, ha'⟩ := glcSub_spec isWord_one (isWord_toNat hc)
  obtain ⟨hb, hb'⟩ := glcSub_spec isWord_one (isWord_toNat hp)
  obtain ⟨hm, hm'⟩ := glcMul_spec ha.lt hb.lt
  obtain ⟨hn, hn'⟩ := glcMul_spec (isWord_toNat hc).lt (isWord_toNat hp).lt
  obtain ⟨hs, hs'⟩ := glcAdd_spec hm hn
  obtain ⟨hr, hr'⟩ := glcMul_spec heqp.lt hs.lt
  refine ⟨hr, ?_⟩
  rw [hr', hs', hm', hn', ha', hb', natCast_toNat hc.1, natCast_toNat hp.1, Multilinear.eqTerm,
    Nat.cast_one]

theorem foldl_eqpStep {args : Arguments} {cs point : List ℤ} (hcs : CanonicalVector cs)
    (hpoint : CanonicalVector point) (hargs : args.point = point.map Int.toNat)
    (hlength : cs.length = point.length) :
    IsWord ((List.range cs.length).foldl (eqpStep args (cs.map Int.toNat)) 1) ∧
      (((List.range cs.length).foldl (eqpStep args (cs.map Int.toNat)) 1 : ℕ) : F) =
        (((toField cs).zip (toField point)).map fun x => Multilinear.eqTerm x.1 x.2).prod := by
  have hloop : ∀ k ≤ cs.length, IsWord ((List.range k).foldl (eqpStep args (cs.map Int.toNat)) 1) ∧
      (((List.range k).foldl (eqpStep args (cs.map Int.toNat)) 1 : ℕ) : F) =
        ((((toField cs).zip (toField point)).map fun x => Multilinear.eqTerm x.1 x.2).take k).prod := by
    intro k hk
    induction k with
    | zero => exact ⟨isWord_one, by simp⟩
    | succ k ih =>
      obtain ⟨hword, hvalue⟩ := ih (by omega)
      obtain ⟨hword', hvalue'⟩ := eqpStep_spec hcs hpoint hargs hword (show k < cs.length by omega)
        (show k < point.length by omega)
      rw [List.range_succ, List.foldl_append, List.foldl_cons, List.foldl_nil]
      refine ⟨hword', ?_⟩
      rw [hvalue', hvalue, List.take_succ_eq_append_getElem (by simp [hlength]; omega),
        List.prod_append, List.prod_singleton]
      simp [toField]
  obtain ⟨hword, hvalue⟩ := hloop cs.length le_rfl
  rw [List.take_of_length_le (by simp [hlength])] at hvalue
  exact ⟨hword, hvalue⟩

/-! ## Query positions -/

theorem positionLoop_eq (sha256 : Bytes → Digest) (args : Arguments) (qseed : Digest)
    (remaining q : ℕ) (positions : List ℕ) (hcap : positions.length + remaining ≤ 64) :
    positionLoop sha256 args qseed remaining q positions =
      .ok (positions ++ (List.range' q remaining).map fun i =>
        digestWord (sha256 (args.qdom ++ qseed.bytes ++ packI i)) % (args.baseSize / 2)) := by
  induction remaining generalizing q positions with
  | zero => simp [positionLoop]
  | succ remaining ih =>
    rw [positionLoop, bind_eq_ok]
    refine ⟨_, push_of_lt _ (by omega), ?_⟩
    rw [ih _ _ (by simp; omega), List.range'_succ, List.map_cons, List.append_assoc]
    rfl

/-! ## Expected indices -/

theorem pushUnless_spec {expIdx : List ℕ} (v : ℕ) (hnodup : expIdx.Nodup)
    (hcap : expIdx.length < 128) :
    ∃ next, pushUnless (v ∈ expIdx) expIdx v = .ok next ∧ next.Nodup ∧
      next.length ≤ expIdx.length + 1 ∧ ∀ i, i ∈ next ↔ i ∈ expIdx ∨ i = v := by
  rw [pushUnless]
  split_ifs with h
  · refine ⟨expIdx, rfl, hnodup, by omega, fun i => ⟨Or.inl, ?_⟩⟩
    rintro (hi | rfl)
    · exact hi
    · exact h
  · refine ⟨_, push_of_lt v hcap, ?_, by simp, fun i => by simp⟩
    rw [List.nodup_append]
    refine ⟨hnodup, List.nodup_singleton v, fun a ha b hb => ?_⟩
    rw [List.mem_singleton.mp hb]
    rintro rfl
    exact h ha

theorem expectedIdx_spec (size : ℕ) (isFinal : Bool) (hsize : isFinal = false → 0 < size / 2)
    (positions : List ℕ) {expIdx : List ℕ} (hnodup : expIdx.Nodup)
    (hcap : expIdx.length + 2 * positions.length ≤ 128) :
    ∃ collected, expectedIdx size isFinal positions expIdx = .ok collected ∧ collected.Nodup ∧
      collected.length ≤ expIdx.length + 2 * positions.length ∧
      ∀ i, i ∈ collected ↔ i ∈ expIdx ∨ i ∈ layerQueryIndices positions size isFinal := by
  induction positions generalizing expIdx with
  | nil =>
    refine ⟨expIdx, rfl, hnodup, by simp, fun i => ?_⟩
    rw [mem_layerQueryIndices]
    simp
  | cons position positions ih =>
    rw [List.length_cons] at hcap
    cases isFinal with
    | true =>
      obtain ⟨next, hnext, hnextNodup, hnextLength, hnextMem⟩ :=
        pushUnless_spec (position % size) hnodup (by omega)
      obtain ⟨collected, hcollected, hcollectedNodup, hcollectedLength, hmem⟩ :=
        ih hnextNodup (by omega)
      refine ⟨collected, ?_, hcollectedNodup, by rw [List.length_cons]; omega, fun i => ?_⟩
      · simp only [expectedIdx, if_true, bind_eq_ok]
        exact ⟨next, hnext, hcollected⟩
      · rw [hmem, hnextMem, mem_layerQueryIndices, mem_layerQueryIndices]
        simp [or_assoc]
    | false =>
      set v1 := position % (size / 2) with hv1
      have hne : v1 ≠ v1 + size / 2 := by
        have := hsize rfl
        omega
      obtain ⟨first, hfirst, hfirstNodup, hfirstLength, hfirstMem⟩ :=
        pushUnless_spec v1 hnodup (by omega)
      obtain ⟨second, hsecond, hsecondNodup, hsecondLength, hsecondMem⟩ :=
        pushUnless_spec (v1 + size / 2) hfirstNodup (by omega)
      obtain ⟨collected, hcollected, hcollectedNodup, hcollectedLength, hmem⟩ :=
        ih hsecondNodup (by omega)
      refine ⟨collected, ?_, hcollectedNodup, by rw [List.length_cons]; omega, fun i => ?_⟩
      · -- the second lookup reads the array before the first write, which stores another key
        have hfound : (v1 + size / 2 ∈ expIdx) ↔ v1 + size / 2 ∈ first := by
          rw [hfirstMem, or_iff_left hne.symm]
        simp only [expectedIdx, Bool.false_eq_true, if_false, bind_eq_ok]
        refine ⟨first, hfirst, second, ?_, hcollected⟩
        simp only [← hv1, hfound]
        exact hsecond
      · rw [hmem, hsecondMem, hfirstMem, mem_layerQueryIndices, mem_layerQueryIndices]
        simp [or_assoc, ← hv1]

theorem insertionSort_expectedIdx {positions collected : List ℕ} {size : ℕ} {isFinal : Bool}
    (hnodup : collected.Nodup)
    (hmem : ∀ i, i ∈ collected ↔ i ∈ layerQueryIndices positions size isFinal) :
    insertionSort collected = layerQueryIndices positions size isFinal := by
  rw [insertionSort_eq hnodup, layerQueryIndices]
  congr 1
  ext i
  rw [List.mem_toFinset, hmem, layerQueryIndices, Finset.mem_sort]

/-! ## Layers -/

section Layers

variable {sha256 : Bytes → Digest} {statement : GoldilocksMultilinearPcsStatementV3}
  {proof : GoldilocksMultilinearOpeningProofV3} {commitment : Bytes} (point : List ℤ)
  (transcript : Digest) {shift : ℤ} {l : ℕ} {o : ConstructedOpening}

variable (hprepared : Preparable sha256 statement proof commitment shift)
include hprepared

theorem siblingCoordinatesLoop_opening (ho : proof.layerOpenings[l]? = some o)
    (hl : l ≤ statement.variableCount) :
    Merkle.Compiled.siblingCoordinatesLoop (statement.codewordSize >>> l) 0 o.opening.indices =
      o.opening.coordinates := by
  have hcount := (hprepared.metadata l o ho).2.1
  have hsize := codewordSize_shiftRight statement (show l ≤ statement.variableCount + 2 by omega)
  have hloop := Merkle.Compiled.siblingCoordinatesLoop_sort (statement.variableCount + 2 - l) 0
    o.opening.indices.toFinset
  rw [o.admitted.indices.sort_toFinset] at hloop
  rw [hsize, hloop, o.admitted.coordinates, hcount, hsize, height_two_pow]

theorem length_coordinates_le (ho : proof.layerOpenings[l]? = some o)
    (hl : l ≤ statement.variableCount)
    (hlength : o.opening.indices.length ≤ 128) : o.opening.coordinates.length ≤ 4096 := by
  have hcap := variableCount_add_two_le statement
  have hcount := (hprepared.metadata l o ho).2.1
  rw [codewordSize_shiftRight statement (by omega)] at hcount
  rw [o.admitted.coordinates, hcount, height_two_pow]
  calc (Multiproof.schedule (statement.variableCount + 2 - l) 0 o.opening.indices.toFinset).length
      ≤ (statement.variableCount + 2 - l) * o.opening.indices.toFinset.card :=
        Multiproof.length_schedule_le_mul _ _ _
    _ ≤ 30 * 128 := Nat.mul_le_mul (by omega) ((List.toFinset_card_le _).trans hlength)
    _ ≤ 4096 := by norm_num

/-- The layer check of the library accepts exactly the openings that the Merkle verifier accepts. -/
theorem checkLayer_eq_ok (hrounds : proof.roundPolynomials.length = statement.variableCount)
    (ho : proof.layerOpenings[l]? = some o) (hl : l ≤ statement.variableCount) {root : Bytes}
    (hroot : (commitment :: proof.layerCommitments)[l]? = some root) {positions : List ℕ}
    (hpositions : positions.length ≤ 64) :
    checkLayer sha256 (preparedArguments sha256 statement proof commitment point transcript shift)
        positions l = .ok () ↔
      LayerAccepted sha256 statement positions root o l := by
  obtain ⟨hbinding, hcount, hwidth⟩ := hprepared.metadata l o ho
  have hhalf : 0 < statement.codewordSize >>> l / 2 := by
    rw [codewordSize_half statement hl]
    positivity
  have hroom : ([] : List ℕ).length + 2 * positions.length ≤ 128 := by
    rw [List.length_nil]
    omega
  obtain ⟨collected, hcollected, hnodup, hlength, hmem⟩ :=
    expectedIdx_spec (statement.codewordSize >>> l) (l = statement.variableCount) (fun _ => hhalf)
      positions List.nodup_nil hroom
  have hsort : insertionSort collected = layerQueryIndices positions (statement.codewordSize >>> l)
      (l = statement.variableCount) :=
    insertionSort_expectedIdx hnodup (by simpa using hmem)
  have hcard : (layerQueryIndices positions (statement.codewordSize >>> l)
      (l = statement.variableCount)).length ≤ 128 := by
    rw [← hsort, insertionSort_eq hnodup, Finset.length_sort, List.toFinset_card_of_nodup hnodup]
    simp only [List.length_nil] at hlength
    omega
  obtain ⟨hidx, hn⟩ := layerIdx_prepared sha256 statement commitment point transcript shift ho
  have hval := layerVal_prepared point transcript hprepared ho
  obtain ⟨hcoordinates, hsib⟩ :=
    layerCoordinates_prepared sha256 statement commitment point transcript shift ho
  have hdigests := layerDigests_prepared sha256 statement commitment point transcript shift ho
  obtain ⟨hleafPrefix, hnodePrefix, hrootPrefix⟩ :=
    prefixes_prepared sha256 statement commitment point transcript shift ho
  have hslice := roots_prepared point transcript hprepared hroot
  have hschedule := siblingCoordinatesLoop_opening hprepared ho hl
  have hsibCount : o.opening.coordinates.length = o.opening.siblings.length := by
    rw [GoldilocksMerkleMultiOpeningReference.coordinates, List.length_map]
  have hcanonical : ¬ ∃ v ∈ o.opening.rows.flatten.map Int.toNat, v ≥ glP := by
    rintro ⟨v, hv, hge⟩
    obtain ⟨w, hw, rfl⟩ := List.mem_map.mp hv
    obtain ⟨row, hrow, hw⟩ := List.mem_flatten.mp hw
    exact absurd (isWord_toNat ((o.isRow_of_mem hrow).2 w hw)) (not_lt.mpr hge)
  have hreconstruct := o.reconstructMultiopenWn_eq sha256
  rw [hwidth, if_pos (by norm_num), hbinding, hcount] at hreconstruct
  set args := preparedArguments sha256 statement proof commitment point transcript shift with hargs
  have hargsN : args.n = statement.variableCount := hrounds
  have hargsSize : args.baseSize = statement.codewordSize := rfl
  simp only [checkLayer, bind_eq_ok, returnIf_eq_ok, overrunIf_eq_ok, hargsN, hargsSize, hcollected,
    Except.ok.injEq, exists_eq_left', hsort, hn, hidx, hval, hschedule, hsib, hcoordinates, hdigests,
    hleafPrefix, hnodePrefix, hslice, not_not, hsibCount, hcanonical, not_false_eq_true]
  have hcall : Merkle.Compiled.reconstructMultiopenW1 sha256
      (leafDomain ++ layerHeader sha256 statement l) (nodeDomain ++ layerHeader sha256 statement l)
      (statement.codewordSize >>> l) o.opening.indices (o.opening.rows.flatten.map Int.toNat)
      ((o.opening.coordinates.zip (o.opening.siblings.map (·.digest))).map
        fun x => (x.1.1, x.1.2, x.2)) = .ok (o.opening.rawRoot sha256) := hreconstruct
  simp only [hcall, returnIf_eq_ok, hrootPrefix, not_not]
  constructor
  · rintro ⟨-, -, -, hindices, -, -, -, -, -, -, -, -, hcommit⟩
    exact ⟨hbinding, hcount, hwidth, hindices, hcommit.symm⟩
  · rintro ⟨-, -, -, hindices, hcommit⟩
    have hle : o.opening.indices.length ≤ 128 := hindices ▸ hcard
    have hfits := length_coordinates_le hprepared ho hl hle
    exact ⟨(), congrArg List.length hindices, (), hindices, (), trivial, (), by omega, (), trivial,
      (), trivial, hcommit.symm⟩

theorem bsearchIdx_opened (ho : proof.layerOpenings[l]? = some o)
    {i : ℕ} (hi : i ∈ o.opening.indices) :
    ∃ k, bsearchIdx (layerIdx
        (preparedArguments sha256 statement proof commitment point transcript shift) l) i = some k ∧
      (layerVal (preparedArguments sha256 statement proof commitment point transcript
        shift) l).getD k 0 = (openedValue o i).toNat := by
  obtain ⟨k, hk, rfl⟩ := List.getElem_of_mem hi
  have hget : o.opening.indices[k]? = some o.opening.indices[k] := List.getElem?_eq_getElem hk
  refine ⟨k, ?_, ?_⟩
  · rw [(layerIdx_prepared sha256 statement commitment point transcript shift ho).1]
    exact bsearchIdx_eq_some o.admitted.indices.sorted hget
  · rw [layerVal_prepared point transcript hprepared ho,
      flatten_rows (hprepared.metadata l o ho).2.2, List.getD_eq_getElem?_getD, List.getElem?_map,
      List.getElem?_map, hget]
    rfl

omit hprepared in
variable (sha256) (proof) (commitment) (shift) in
theorem layerPoint_words (hl : l < statement.variableCount) (position : ℕ) :
    IsWord (glcMul
        ((preparedArguments sha256 statement proof commitment point transcript
          shift).layerShift.getD l 0)
        (glcPow ((preparedArguments sha256 statement proof commitment point transcript
          shift).layerGen.getD l 0) position)) ∧
      (glcMul
        ((preparedArguments sha256 statement proof commitment point transcript
          shift).layerShift.getD l 0)
        (glcPow ((preparedArguments sha256 statement proof commitment point transcript
          shift).layerGen.getD l 0) position) : F) = layerPoint statement shift l position := by
  have hshift : (preparedArguments sha256 statement proof commitment point transcript
      shift).layerShift.getD l 0 = (shiftPow shift l).toNat := by
    simp [preparedArguments, List.getD_eq_getElem?_getD, hl]
  have hgen : (preparedArguments sha256 statement proof commitment point transcript
      shift).layerGen.getD l 0 = (ofField (rootOf (statement.variableCount + 2 - l))).toNat := by
    simp [preparedArguments, List.getD_eq_getElem?_getD, hl]
  rw [hshift, hgen]
  have hs := canonical_shiftPow shift l
  have hg := canonical_ofField (rootOf (statement.variableCount + 2 - l))
  obtain ⟨hpow, hpow'⟩ := glcPow_spec (isWord_toNat hg).lt position
  obtain ⟨hmul, hmul'⟩ := glcMul_spec (isWord_toNat hs).lt hpow.lt
  refine ⟨hmul, ?_⟩
  rw [hmul', hpow', natCast_toNat hs.1, natCast_toNat hg.1, intCast_shiftPow, intCast_ofField,
    layerPoint]

theorem checkFold_eq_ok (hl : l < statement.variableCount) {parent child : ConstructedOpening}
    (hparent : proof.layerOpenings[l]? = some parent)
    (hchild : proof.layerOpenings[l + 1]? = some child) {cs : List ℤ} {c : ℤ} (hc : Canonical c)
    (hcs : cs[l]? = some c) {position : ℕ}
    (hpos : position % (statement.codewordSize >>> l / 2) ∈ parent.opening.indices)
    (hneg : position % (statement.codewordSize >>> l / 2) + statement.codewordSize >>> l / 2 ∈
      parent.opening.indices)
    (htarget : position % (statement.codewordSize >>> l / 2) ∈ child.opening.indices) :
    Compiled.checkFold (preparedArguments sha256 statement proof commitment point transcript shift)
        (cs.map Int.toNat) l position = .ok () ↔
      FoldHolds statement shift c parent child l position := by
  obtain ⟨ip, hip, hvp⟩ := bsearchIdx_opened point transcript hprepared hparent hpos
  obtain ⟨iN, hiN, hvn⟩ := bsearchIdx_opened point transcript hprepared hparent hneg
  obtain ⟨ic, hic, hvc⟩ := bsearchIdx_opened point transcript hprepared hchild htarget
  have hgetc : (cs.map Int.toNat).getD l 0 = c.toNat := by
    rw [List.getD_eq_getElem?_getD, List.getElem?_map, hcs]
    rfl
  obtain ⟨hx, hx'⟩ := layerPoint_words sha256 proof commitment point transcript shift hl
    (position % (statement.codewordSize >>> l / 2))
  have hargsSize : (preparedArguments sha256 statement proof commitment point transcript
    shift).baseSize = statement.codewordSize := rfl
  set args := preparedArguments sha256 statement proof commitment point transcript shift with hargs
  simp only [Compiled.checkFold, hargsSize, hip, hiN, hic, hvp, hvn, hvc, hgetc, returnIf_eq_ok,
    not_not]
  set folded := position % (statement.codewordSize >>> l / 2) with hfolded
  set vp := openedValue parent folded with hvpdef
  set vn := openedValue parent (folded + statement.codewordSize >>> l / 2) with hvndef
  set vc := openedValue child folded with hvcdef
  have hvpC : Canonical vp := canonical_openedValue parent hpos
  have hvnC : Canonical vn := canonical_openedValue parent hneg
  have hvcC : Canonical vc := canonical_openedValue child htarget
  have hne : layerPoint statement shift l folded ≠ 0 :=
    layerPoint_ne_zero statement (baseShift_spec hprepared.shift).2 l folded
  set x := glcMul (args.layerShift.getD l 0) (glcPow (args.layerGen.getD l 0) folded) with hxdef
  obtain ⟨hsum, hsum'⟩ := glcAdd_spec (isWord_toNat hvpC) (isWord_toNat hvnC)
  obtain ⟨heven, heven'⟩ := glcMul_spec hsum.lt isWord_glcInv2.lt
  obtain ⟨hdiff, hdiff'⟩ := glcSub_spec (isWord_toNat hvpC) (isWord_toNat hvnC)
  obtain ⟨hhalf, hhalf'⟩ := glcMul_spec hdiff.lt isWord_glcInv2.lt
  obtain ⟨hinv, hinv'⟩ := glcPow_spec hx.lt (glP - 2)
  obtain ⟨hodd, hodd'⟩ := glcMul_spec hhalf.lt hinv.lt
  obtain ⟨hone, hone'⟩ := glcSub_spec isWord_one (isWord_toNat hc)
  obtain ⟨hleft, hleft'⟩ := glcMul_spec hone.lt heven.lt
  obtain ⟨hright, hright'⟩ := glcMul_spec (isWord_toNat hc).lt hodd.lt
  obtain ⟨hexpected, hexpected'⟩ := glcAdd_spec hleft hright
  rw [FoldHolds, ← hfolded, ← hvpdef, ← hvndef, ← hvcdef]
  have hvalue : ((glcAdd (glcMul (glcSub 1 c.toNat) (glcMul (glcAdd vp.toNat vn.toNat) glcInv2))
      (glcMul c.toNat (glcMul (glcMul (glcSub vp.toNat vn.toNat) glcInv2)
        (glcPow x (glP - 2)))) : ℕ) : F) =
      (1 - (c : F)) * (((vp : F) + vn) * inv2) +
        c * (((vp : F) - vn) * inv2 * (layerPoint statement shift l folded)⁻¹) := by
    rw [hexpected', hleft', hright', hodd', hhalf', heven', hone', hsum', hdiff', hinv', hx',
      glP, pow_modulus_sub_two hne, glcInv2_cast, natCast_toNat hc.1, natCast_toNat hvpC.1,
      natCast_toNat hvnC.1, Nat.cast_one]
  rw [← hvalue, ← natCast_toNat hvcC.1]
  exact ⟨fun h => by rw [h], hexpected.ext (isWord_toNat hvcC)⟩

end Layers

/-! ## The whole verifier -/

section Whole

variable {sha256 : Bytes → Digest} {statement : GoldilocksMultilinearPcsStatementV3}
  {proof : GoldilocksMultilinearOpeningProofV3} {commitment : Bytes} {point : List ℤ}
  (transcript : Digest) {shift : ℤ}

/-- The coupling check of the library is the one of Python. -/
theorem coupling_iff {cs : List ℤ} {running : ℕ} {eqProduct : ℤ} (hpoint : CanonicalVector point)
    (hcs : CanonicalVector cs) (hlength : cs.length = point.length)
    (hrounds : proof.roundPolynomials.length = cs.length) (hrunning : IsWord running)
    (hproduct : eqProductLoop cs point 1 = .ok eqProduct) :
    running = glcMul proof.finalValue.toNat ((List.range proof.roundPolynomials.length).foldl
        (eqpStep (preparedArguments sha256 statement proof commitment point transcript shift)
          (cs.map Int.toNat)) 1) ↔
      (running : ℤ) = proof.finalValue * eqProduct % goldilocksModulus := by
  have hargs : (preparedArguments sha256 statement proof commitment point transcript shift).point =
    point.map Int.toNat := rfl
  obtain ⟨hword, hvalue⟩ := foldl_eqpStep hcs hpoint hargs hlength
  obtain ⟨eqProduct', hloop, hvalue'⟩ := eqProductLoop_spec hlength 1
  obtain rfl := Except.ok.inj (hloop.symm.trans hproduct)
  obtain ⟨hmul, hmul'⟩ := glcMul_spec (isWord_toNat proof.canonical_finalValue).lt hword.lt
  rw [Int.cast_one, one_mul, ← hvalue] at hvalue'
  rw [hrounds, hrunning.canonical.eq_emod_iff, Int.cast_mul, hvalue',
    ← natCast_toNat proof.canonical_finalValue.1, ← hmul', Int.cast_natCast]
  exact ⟨fun h => by rw [← h], hrunning.ext hmul⟩

variable (hprepared : Preparable sha256 statement proof commitment shift)
  (hrounds : proof.roundPolynomials.length = statement.variableCount)
include hprepared hrounds

/-- The query phase of the library is the one of Python. -/
theorem queryPhase_iff {cs : List ℤ}
    (hcs : CanonicalVector cs) (hlength : cs.length = statement.variableCount)
    {positions : List ℕ} (hpositions : positions.length ≤ 64) :
    ((∀ l ∈ List.range (statement.variableCount + 1), checkLayer sha256
          (preparedArguments sha256 statement proof commitment point transcript shift) positions l =
            .ok ()) ∧
        (∀ l ∈ List.range statement.variableCount, ∀ position ∈ positions, Compiled.checkFold
          (preparedArguments sha256 statement proof commitment point transcript shift)
          (cs.map Int.toNat) l position = .ok ()) ∧
        ¬ ∃ v ∈ layerVal (preparedArguments sha256 statement proof commitment point transcript shift)
          statement.variableCount, v ≠ proof.finalValue.toNat) ↔
      QueryAccepted sha256 statement shift (commitment :: proof.layerCommitments) cs positions
        proof.layerOpenings proof.finalValue := by
  have hopening : ∀ l ≤ statement.variableCount, ∃ o, proof.layerOpenings[l]? = some o := fun l hl =>
    ⟨_, List.getElem?_eq_getElem (by rw [hprepared.length_openings]; omega)⟩
  have hroot : ∀ l ≤ statement.variableCount, ∃ root,
      (commitment :: proof.layerCommitments)[l]? = some root := fun l hl =>
    ⟨_, List.getElem?_eq_getElem (by
      rw [List.length_cons, proof.length_layerCommitments, hrounds]
      omega)⟩
  have hle : ∀ {l o}, proof.layerOpenings[l]? = some o → l ≤ statement.variableCount := by
    intro l o ho
    have := (List.getElem?_eq_some_iff.mp ho).1
    rw [hprepared.length_openings] at this
    omega
  have hlayers : (∀ l ∈ List.range (statement.variableCount + 1), checkLayer sha256
      (preparedArguments sha256 statement proof commitment point transcript shift) positions l =
        .ok ()) ↔ ∀ l o root, proof.layerOpenings[l]? = some o →
      (commitment :: proof.layerCommitments)[l]? = some root →
      LayerAccepted sha256 statement positions root o l := by
    constructor
    · intro h l o root ho hr
      exact (checkLayer_eq_ok point transcript hprepared hrounds ho (hle ho) hr hpositions).mp
        (h l (List.mem_range.mpr (by have := hle ho; omega)))
    · intro h l hl
      have hl' : l ≤ statement.variableCount := by
        have := List.mem_range.mp hl
        omega
      obtain ⟨o, ho⟩ := hopening l hl'
      obtain ⟨root, hr⟩ := hroot l hl'
      exact (checkLayer_eq_ok point transcript hprepared hrounds ho hl' hr hpositions).mpr
        (h l o root ho hr)
  have hfinal : ∀ o, proof.layerOpenings[statement.variableCount]? = some o →
      ((¬ ∃ v ∈ layerVal (preparedArguments sha256 statement proof commitment point transcript shift)
          statement.variableCount, v ≠ proof.finalValue.toNat) ↔
        ∀ i ∈ o.opening.indices, openedValue o i = proof.finalValue) := by
    intro o ho
    have hwidth := (hprepared.metadata _ o ho).2.2
    rw [layerVal_prepared point transcript hprepared ho, flatten_rows hwidth, List.map_map]
    push Not
    simp only [List.mem_map, Function.comp_apply, forall_exists_index, and_imp,
      forall_apply_eq_imp_iff₂]
    refine forall₂_congr fun i hi => ?_
    have hv := canonical_openedValue o hi
    have hf := proof.canonical_finalValue
    exact ⟨fun h => by rw [← Int.toNat_of_nonneg hv.1, h, Int.toNat_of_nonneg hf.1],
      fun h => by rw [h]⟩
  have hfolds : (∀ l o root, proof.layerOpenings[l]? = some o →
      (commitment :: proof.layerCommitments)[l]? = some root →
      LayerAccepted sha256 statement positions root o l) →
      ∀ l c parent child, cs[l]? = some c → proof.layerOpenings[l]? = some parent →
        proof.layerOpenings[l + 1]? = some child → ∀ position ∈ positions,
          (Compiled.checkFold
            (preparedArguments sha256 statement proof commitment point transcript shift)
            (cs.map Int.toNat) l position = .ok () ↔
            FoldHolds statement shift c parent child l position) := by
    intro haccepted l c parent child hc hparent hchild position hposition
    have hl : l < statement.variableCount := by
      rw [← hlength]
      exact (List.getElem?_eq_some_iff.mp hc).1
    obtain ⟨root, hr⟩ := hroot l hl.le
    obtain ⟨root', hr'⟩ := hroot (l + 1) hl
    obtain ⟨hpos, hneg⟩ := pair_mem_layerQueryIndices hl hposition
    rw [← (haccepted l parent root hparent hr).indices] at hpos hneg
    have htarget := child_mem_layerQueryIndices hl hposition
    rw [← (haccepted (l + 1) child root' hchild hr').indices] at htarget
    exact checkFold_eq_ok point transcript hprepared hl hparent hchild
      (hcs c (List.mem_of_getElem? hc)) hc hpos hneg htarget
  obtain ⟨last, hlast⟩ := hopening statement.variableCount le_rfl
  constructor
  · rintro ⟨hlayersOk, hfoldsOk, hfinalOk⟩
    have haccepted := hlayers.mp hlayersOk
    refine ⟨hprepared.length_openings, haccepted, ?_, ?_⟩
    · intro l c parent child hc hparent hchild position hposition
      have hl : l < statement.variableCount := by
        rw [← hlength]
        exact (List.getElem?_eq_some_iff.mp hc).1
      exact (hfolds haccepted l c parent child hc hparent hchild position hposition).mp
        (hfoldsOk l (List.mem_range.mpr hl) position hposition)
    · intro o ho
      exact (hfinal o ho).mp hfinalOk
  · rintro ⟨-, haccepted, hfoldsHold, hconstant⟩
    refine ⟨hlayers.mpr haccepted, ?_, (hfinal last hlast).mpr (hconstant last hlast)⟩
    intro l hl position hposition
    have hl' := List.mem_range.mp hl
    obtain ⟨parent, hparent⟩ := hopening l hl'.le
    obtain ⟨child, hchild⟩ := hopening (l + 1) hl'
    have hc : cs[l]? = some cs[l] := List.getElem?_eq_getElem (by omega)
    exact (hfolds haccepted l cs[l] parent child hc hparent hchild position hposition).mpr
      (hfoldsHold l cs[l] parent child hc hparent hchild position hposition)

theorem roundLoop_start
    (hwords : ∀ v ∈ proof.roundPolynomials.flatMap roundValues, 0 ≤ v ∧ v < 2 ^ 64)
    (running : ℕ) (challenges : List ℕ) (t : Digest) :
    roundLoop sha256 (preparedArguments sha256 statement proof commitment point transcript shift)
        proof.roundPolynomials.length 0 proof.claimedValue.toNat [] transcript =
          .ok (running, challenges, t) ↔
      ∃ cs : List ℤ, verifyRounds sha256 proof.layerCommitments proof.roundPolynomials 0
          proof.claimedValue transcript = .ok ((running : ℤ), cs, t) ∧
        challenges = cs.map Int.toNat := by
  have hstart := roundLoop_eq_ok point transcript hprepared hrounds hwords statement.variableCount
    transcript t running challenges (Nat.zero_add _) List.length_nil
    (isWord_toNat proof.canonical_claimedValue)
  rw [Int.toNat_of_nonneg proof.canonical_claimedValue.1, List.drop_zero] at hstart
  simp only [List.nil_append] at hstart
  rw [hrounds]
  exact hstart

theorem verifyOpeningFull_iff (hpoint : CanonicalVector point)
    (hlength : point.length = statement.variableCount)
    (hwords : ∀ v ∈ proof.roundPolynomials.flatMap roundValues, 0 ≤ v ∧ v < 2 ^ 64) :
    verifyOpeningFull sha256
        (preparedArguments sha256 statement proof commitment point transcript shift) = .ok () ↔
      ∃ running challenges transcript' eqProduct,
        verifyRounds sha256 proof.layerCommitments proof.roundPolynomials 0 proof.claimedValue
          transcript = .ok (running, challenges, transcript') ∧
        eqProductLoop challenges point 1 = .ok eqProduct ∧
        running = proof.finalValue * eqProduct % goldilocksModulus ∧
        QueryAccepted sha256 statement shift (commitment :: proof.layerCommitments) challenges
          (queryPositions sha256 transcript' statement.codewordSize statement.queryCount)
          proof.layerOpenings proof.finalValue := by
  have hcap := variableCount_add_two_le statement
  have hqueries : statement.queryCount ≤ 64 := statement.queryCount_le
  set args := preparedArguments sha256 statement proof commitment point transcript shift with hargs
  have hpositions : ∀ t : Digest, positionLoop sha256 args
      (sha256 (t.bytes ++ asciiBytes "queries")) statement.queryCount 0 [] =
        .ok (queryPositions sha256 t statement.codewordSize statement.queryCount) := by
    intro t
    have hloop := positionLoop_eq sha256 args (sha256 (t.bytes ++ asciiBytes "queries"))
      statement.queryCount 0 [] (by simpa using hqueries)
    rw [List.nil_append, ← List.range_eq_range'] at hloop
    exact hloop
  have hcount : ∀ t, (queryPositions sha256 t statement.codewordSize statement.queryCount).length ≤
      64 := fun t => by rwa [length_queryPositions]
  have hcall : verifyOpeningFull sha256 args = .ok () ↔ ∃ running challenges t,
      roundLoop sha256 args proof.roundPolynomials.length 0 proof.claimedValue.toNat [] transcript =
        .ok (running, challenges, t) ∧
      running = glcMul proof.finalValue.toNat ((List.range proof.roundPolynomials.length).foldl
        (eqpStep args challenges) 1) ∧
      (∀ l ∈ List.range (statement.variableCount + 1), checkLayer sha256 args
        (queryPositions sha256 t statement.codewordSize statement.queryCount) l = .ok ()) ∧
      (∀ l ∈ List.range statement.variableCount, ∀ position ∈
        queryPositions sha256 t statement.codewordSize statement.queryCount,
        Compiled.checkFold args challenges l position = .ok ()) ∧
      ¬ ∃ v ∈ layerVal args statement.variableCount, v ≠ proof.finalValue.toNat := by
    have hN : args.n = statement.variableCount := hrounds
    have hsmall : ¬ args.n > 64 := by omega
    have hfew : ¬ args.nQueries > 64 := not_lt.mpr hqueries
    simp only [verifyOpeningFull, bind_eq_ok, returnIf_eq_ok, cForM_eq_ok, not_not]
    rw [hN, ← hrounds]
    constructor
    · rintro ⟨-, -, ⟨running, challenges, t⟩, hloop, -, hcoupling, -, -, positions, hposition, -,
        hlayersOk, -, hfoldsOk, hfinalOk⟩
      obtain rfl := Except.ok.inj ((hpositions t).symm.trans hposition)
      exact ⟨running, challenges, t, hloop, hcoupling, hlayersOk, hfoldsOk, hfinalOk⟩
    · rintro ⟨running, challenges, t, hloop, hcoupling, hlayersOk, hfoldsOk, hfinalOk⟩
      exact ⟨(), by omega, (running, challenges, t), hloop, (), hcoupling, (), hfew, _, hpositions t,
        (), hlayersOk, (), hfoldsOk, hfinalOk⟩
  rw [hcall]
  constructor
  · rintro ⟨running, challenges, t, hloop, hcoupling, hquery⟩
    obtain ⟨cs, hverify, rfl⟩ :=
      (roundLoop_start transcript hprepared hrounds hwords running challenges t).mp hloop
    obtain ⟨hlast, hcs⟩ := canonical_of_verifyRounds proof.canonical_claimedValue hverify
    have hcsLength := (length_of_verifyRounds hverify).trans hrounds
    obtain ⟨eqProduct, hproduct, -⟩ := eqProductLoop_spec (hcsLength.trans hlength.symm) 1
    refine ⟨running, cs, t, eqProduct, hverify, hproduct, ?_, ?_⟩
    · exact (coupling_iff transcript hpoint hcs (hcsLength.trans hlength.symm)
        (hrounds.trans hcsLength.symm) (by simpa using isWord_toNat hlast) hproduct).mp hcoupling
    · exact (queryPhase_iff transcript hprepared hrounds hcs hcsLength (hcount t)).mp hquery
  · rintro ⟨running, cs, t, eqProduct, hverify, hproduct, hcoupling, hquery⟩
    obtain ⟨hlast, hcs⟩ := canonical_of_verifyRounds proof.canonical_claimedValue hverify
    have hcsLength := (length_of_verifyRounds hverify).trans hrounds
    obtain ⟨w, rfl⟩ := Int.eq_ofNat_of_zero_le hlast.1
    refine ⟨w, cs.map Int.toNat, t,
      (roundLoop_start transcript hprepared hrounds hwords w _ t).mpr ⟨cs, hverify, rfl⟩, ?_, ?_⟩
    · exact (coupling_iff transcript hpoint hcs (hcsLength.trans hlength.symm)
        (hrounds.trans hcsLength.symm) (by simpa using isWord_toNat hlast) hproduct).mpr hcoupling
    · exact (queryPhase_iff transcript hprepared hrounds hcs hcsLength (hcount t)).mpr hquery

omit hprepared hrounds

/-- What the shared checks leave: a canonical point of the right arity, the same number of rounds. -/
theorem verifyShared_eq_ok {point' : List ℤ} {transcript' : Digest} {expectedValue : ℤ}
    {validatorNonce : Bytes}
    (h : verifyShared sha256 statement proof commitment point expectedValue validatorNonce =
      .ok (point', transcript')) :
    CanonicalVector point' ∧ point'.length = statement.variableCount ∧
      proof.roundPolynomials.length = statement.variableCount := by
  simp only [verifyShared, bind_eq_ok, raiseIf_eq_ok, pure_eq_ok, not_or, not_not,
    Prod.mk.injEq] at h
  obtain ⟨fields, hfields, -, ⟨hlength, hrounds⟩, -, -, -, -, -, -, rfl, -⟩ := h
  obtain ⟨hcanonical, rfl⟩ := (mapM_eq_ok_of_iff fun a b => field_eq_ok).mp hfields
  exact ⟨by simpa [CanonicalVector] using hcanonical, hlength, hrounds⟩

/-- Whatever the Python loop accepts can be prepared for the library. -/
theorem preparable_of_queryAccepted (hshift : statement.baseShift sha256 = .ok shift)
    {challenges : List ℤ} {positions : List ℕ}
    (hrounds : proof.roundPolynomials.length = statement.variableCount)
    (hquery : QueryAccepted sha256 statement shift (commitment :: proof.layerCommitments) challenges
      positions proof.layerOpenings proof.finalValue) :
    Preparable sha256 statement proof commitment shift := by
  have hroots : (commitment :: proof.layerCommitments).length = statement.variableCount + 1 := by
    rw [List.length_cons, proof.length_layerCommitments, hrounds]
  refine ⟨hquery.length_openings, fun root hroot => ?_, hshift, fun l o ho => ?_⟩
  · obtain ⟨l, hl, rfl⟩ := List.getElem_of_mem hroot
    have hl' : l < proof.layerOpenings.length := by
      rw [hquery.length_openings, ← hroots]
      exact hl
    rw [(hquery.layers l _ _ (List.getElem?_eq_getElem hl') (List.getElem?_eq_getElem hl)).root]
    exact Digest.length_eq _
  · have hl : l < (commitment :: proof.layerCommitments).length := by
      rw [hroots, ← hquery.length_openings]
      exact (List.getElem?_eq_some_iff.mp ho).1
    have haccepted := hquery.layers l o _ ho (List.getElem?_eq_getElem hl)
    exact ⟨haccepted.bindingDigest, haccepted.leafCount, haccepted.leafWidth⟩

/-- Round values that the Python loop accepts are unsigned words. -/
theorem words_of_verifyRounds {running : ℤ} {challenges : List ℤ} {transcript' : Digest}
    (h : verifyRounds sha256 proof.layerCommitments proof.roundPolynomials 0 proof.claimedValue
      transcript = .ok (running, challenges, transcript')) :
    ∀ v ∈ proof.roundPolynomials.flatMap roundValues, 0 ≤ v ∧ v < 2 ^ 64 := by
  intro v hv
  obtain ⟨g, hg, hv⟩ := List.mem_flatMap.mp hv
  obtain ⟨h0, h1, h2⟩ := (chain_of_roundChain (verifyRounds_chain h)).2.1 g hg
  have hcanonical : CanonicalVector (roundValues g) := by
    simpa [CanonicalVector, roundValues] using ⟨h0, h1, h2⟩
  exact canonicalVector_lt hcanonical v hv

/-- After the shared checks, the library returns 0 exactly when the Python loop accepts. -/
theorem tryCompiled_iff_verifyPython (lib : Bool) (hpoint : CanonicalVector point)
    (hlength : point.length = statement.variableCount)
    (hrounds : proof.roundPolynomials.length = statement.variableCount) :
    tryCompiledOpeningVerify sha256 statement true proof commitment point transcript = .ok true ↔
      Accepts (verifyPython sha256 statement lib proof commitment point transcript) := by
  rw [tryCompiledOpeningVerify_eq_ok true hpoint (proof.length_layerCommitments.trans hrounds),
    verifyPython_accepts_iff lib commitment point transcript hrounds]
  constructor
  · rintro ⟨shift, hprepared, -, hcall⟩
    obtain ⟨hwords, hcall⟩ := hcall rfl
    obtain ⟨running, challenges, transcript', eqProduct, hverify, hproduct, hcoupling, hquery⟩ :=
      (verifyOpeningFull_iff transcript hprepared hrounds hpoint hlength hwords).mp hcall
    exact ⟨running, challenges, transcript', eqProduct, shift, hverify, hproduct, hcoupling,
      hprepared.shift, hquery⟩
  · rintro ⟨running, challenges, transcript', eqProduct, shift, hverify, hproduct, hcoupling, hshift,
      hquery⟩
    have hprepared := preparable_of_queryAccepted hshift hrounds hquery
    have hwords := words_of_verifyRounds transcript hverify
    exact ⟨shift, hprepared, rfl, fun _ => ⟨hwords,
      (verifyOpeningFull_iff transcript hprepared hrounds hpoint hlength hwords).mpr
        ⟨running, challenges, transcript', eqProduct, hverify, hproduct, hcoupling, hquery⟩⟩⟩

variable (sha256 statement proof commitment point)

/-- The verifier that runs the Python loop right after the shared checks. -/
def verifyByPython (lib : Bool) (expectedValue : ℤ) (validatorNonce : Bytes) : Result Unit := do
  let (point, transcript) ←
    verifyShared sha256 statement proof commitment point expectedValue validatorNonce
  verifyPython sha256 statement lib proof commitment point transcript

/-- The verifier that calls the library right after the shared checks; `true` says that it returned
0. -/
def verifyByLibrary (expectedValue : ℤ) (validatorNonce : Bytes) : Result Bool := do
  let (point, transcript) ←
    verifyShared sha256 statement proof commitment point expectedValue validatorNonce
  tryCompiledOpeningVerify sha256 statement true proof commitment point transcript

variable {sha256 statement proof commitment point}

/-- With or without the library, the verifier accepts what the Python loop accepts. -/
theorem verify_accepts_iff_python (lib : Bool) (expectedValue : ℤ) (validatorNonce : Bytes) :
    Accepts (verifyGoldilocksMultilinearOpeningV3 sha256 statement lib proof commitment point
        expectedValue validatorNonce) ↔
      Accepts (verifyByPython sha256 statement proof commitment point lib expectedValue
        validatorNonce) := by
  simp only [verifyGoldilocksMultilinearOpeningV3, verifyByPython, Accepts, exceptMalformed_eq_ok,
    bind_eq_ok]
  constructor
  · rintro ⟨u, ⟨point', transcript⟩, hshared, compiled, hcompiled, hrest⟩
    obtain ⟨hpoint, hlength, hrounds⟩ := verifyShared_eq_ok hshared
    cases compiled with
    | false => exact ⟨u, (point', transcript), hshared, hrest⟩
    | true =>
      obtain ⟨-, -, rfl, -⟩ := (tryCompiledOpeningVerify_eq_ok lib hpoint
        (proof.length_layerCommitments.trans hrounds)).mp hcompiled
      obtain ⟨u', hpython⟩ :=
        (tryCompiled_iff_verifyPython transcript true hpoint hlength hrounds).mp hcompiled
      exact ⟨u', (point', transcript), hshared, hpython⟩
  · rintro ⟨u, ⟨point', transcript⟩, hshared, hpython⟩
    obtain ⟨hpoint, hlength, hrounds⟩ := verifyShared_eq_ok hshared
    cases lib with
    | true =>
      exact ⟨(), (point', transcript), hshared, true,
        (tryCompiled_iff_verifyPython transcript true hpoint hlength hrounds).mpr ⟨u, hpython⟩, rfl⟩
    | false =>
      obtain ⟨running, challenges, transcript', eqProduct, shift, -, -, -, hshift, hquery⟩ :=
        (verifyPython_accepts_iff false commitment point' transcript hrounds).mp ⟨u, hpython⟩
      exact ⟨u, (point', transcript), hshared, false,
        (tryCompiledOpeningVerify_eq_ok false hpoint
          (proof.length_layerCommitments.trans hrounds)).mpr
          ⟨shift, preparable_of_queryAccepted hshift hrounds hquery, rfl, by simp⟩, hpython⟩

end Whole

/-- The compiled opening verifier refines the Python one. For every statement, proof object,
commitment, point, expected value and nonce: the library, on the arguments that
`_try_compiled_opening_verify` prepares, returns 0 exactly when the Python loop accepts, whether or
not the Merkle checks of the loop use the compiled helper; and the verifier accepts the same with
and without the library. -/
theorem compiled_refines_python (sha256 : Bytes → Digest)
    (statement : GoldilocksMultilinearPcsStatementV3) (proof : GoldilocksMultilinearOpeningProofV3)
    (commitment : Bytes) (point : List ℤ) (expectedValue : ℤ) (validatorNonce : Bytes) (lib : Bool) :
    (verifyByLibrary sha256 statement proof commitment point expectedValue validatorNonce =
        .ok true ↔
      Accepts (verifyByPython sha256 statement proof commitment point lib expectedValue
        validatorNonce)) ∧
      (Accepts (verifyGoldilocksMultilinearOpeningV3 sha256 statement true proof commitment point
          expectedValue validatorNonce) ↔
        Accepts (verifyGoldilocksMultilinearOpeningV3 sha256 statement false proof commitment point
          expectedValue validatorNonce)) := by
  have hpath : ∀ lib' : Bool, verifyByLibrary sha256 statement proof commitment point expectedValue
      validatorNonce = .ok true ↔ Accepts (verifyByPython sha256 statement proof commitment point
        lib' expectedValue validatorNonce) := by
    intro lib'
    rw [verifyByLibrary, verifyByPython, bind_eq_ok, accepts_bind]
    refine exists_congr fun ⟨point', transcript⟩ => and_congr_right fun hshared => ?_
    obtain ⟨hpoint, hlength, hrounds⟩ := verifyShared_eq_ok hshared
    exact tryCompiled_iff_verifyPython transcript lib' hpoint hlength hrounds
  refine ⟨hpath lib, ?_⟩
  rw [verify_accepts_iff_python, verify_accepts_iff_python, ← hpath true, ← hpath false]

end Verathos.Pcs
