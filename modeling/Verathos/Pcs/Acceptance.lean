import Verathos.Pcs.Sumcheck

/-!
# What the Python loop accepts

The layers and the query phase of the verifier, without its error paths. `verifyPython_accepts_iff`
says what acceptance of the Python loop means: the round loop and the coupling accept, every
layer opening is the expected one and hashes to its root (`LayerAccepted`), the fold equation
holds in the field at every queried position (`FoldHolds`), and the final layer is constant.
-/

namespace Verathos.Pcs

open Merkle ModularPower

/-! ## Sizes and domain points -/

section Sizes

variable (statement : GoldilocksMultilinearPcsStatementV3)

theorem variableCount_add_two_le : statement.variableCount + 2 ≤ 30 := by
  have h := statement.codeword_le
  rw [show blowup = 2 ^ 2 from rfl, ← pow_add] at h
  exact (Nat.pow_le_pow_iff_right (by norm_num)).mp h

theorem leafCount_eq : statement.leafCount = 2 ^ statement.variableCount := by
  rw [GoldilocksMultilinearPcsStatementV3.leafCount, Nat.one_shiftLeft]

theorem codewordSize_eq : statement.codewordSize = 2 ^ (statement.variableCount + 2) := by
  rw [GoldilocksMultilinearPcsStatementV3.codewordSize, leafCount_eq, pow_add]
  rfl

theorem codewordSize_shiftRight {l : ℕ} (hl : l ≤ statement.variableCount + 2) :
    statement.codewordSize >>> l = 2 ^ (statement.variableCount + 2 - l) := by
  rw [codewordSize_eq, Nat.shiftRight_eq_div_pow, Nat.pow_div hl (by norm_num)]

theorem codewordSize_half {l : ℕ} (hl : l ≤ statement.variableCount) :
    statement.codewordSize >>> l / 2 = 2 ^ (statement.variableCount + 1 - l) := by
  rw [codewordSize_shiftRight statement (by omega),
    show statement.variableCount + 2 - l = statement.variableCount + 1 - l + 1 by omega, pow_succ,
    Nat.mul_div_cancel _ (by norm_num)]

end Sizes

variable {sha256 : Bytes → Digest} {statement : GoldilocksMultilinearPcsStatementV3}
  {shift : ℤ}

theorem baseShift_spec (h : statement.baseShift sha256 = .ok shift) : Canonical shift ∧ (shift : F) ≠ 0 := by
  have hcandidate : ∀ word : ℕ, (0 < word ∧ word < goldilocksModulus) →
      Canonical (word : ℤ) ∧ ((word : ℤ) : F) ≠ 0 := by
    rintro word ⟨hpos, hlt⟩
    refine ⟨⟨Int.natCast_nonneg _, Int.ofNat_lt.mpr hlt⟩, fun hzero => ?_⟩
    rw [Int.cast_natCast, ZMod.natCast_eq_zero_iff] at hzero
    exact absurd (Nat.le_of_dvd hpos hzero) (by omega)
  rw [GoldilocksMultilinearPcsStatementV3.baseShift] at h
  cases hprofile : statement.cosetProfile with
  | v1 =>
    simp only [hprofile] at h
    obtain ⟨word, rfl, hrange, -⟩ := rejectionSample_eq_ok h
    exact hcandidate word hrange
  | chain =>
    simp only [hprofile, chainBaseShift, bind_eq_ok, pure_eq_ok] at h
    obtain ⟨master, hmaster, rfl⟩ := h
    obtain ⟨word, rfl, hrange, -⟩ := rejectionSample_eq_ok hmaster
    rw [powMod_eq]
    refine ⟨canonical_emod _, ?_⟩
    rw [intCast_emod, Int.cast_pow]
    exact pow_ne_zero _ (hcandidate word hrange).2

theorem intCast_shiftPow (shift : ℤ) (layerIndex : ℕ) :
    (shiftPow shift layerIndex : F) = (shift : F) ^ 2 ^ layerIndex := by
  rw [shiftPow, intCast_powMod, Nat.one_shiftLeft]

theorem canonical_shiftPow (shift : ℤ) (layerIndex : ℕ) : Canonical (shiftPow shift layerIndex) := by
  rw [shiftPow, powMod_eq]
  exact canonical_emod _

/-- The point of a layer domain at a position, in the field. -/
def layerPoint (statement : GoldilocksMultilinearPcsStatementV3) (shift : ℤ)
    (layerIndex position : ℕ) : F :=
  (shift : F) ^ 2 ^ layerIndex * rootOf (statement.variableCount + 2 - layerIndex) ^ position

theorem rootOf_ne_zero {h : ℕ} (hh : h ≤ 32) : rootOf h ≠ 0 := by
  intro hzero
  have hpow := rootOf_pow hh
  rw [hzero, zero_pow (by positivity)] at hpow
  exact zero_ne_one hpow

theorem layerPoint_ne_zero (statement : GoldilocksMultilinearPcsStatementV3)
    (hshift : (shift : F) ≠ 0) (layerIndex position : ℕ) :
    layerPoint statement shift layerIndex position ≠ 0 := by
  have := variableCount_add_two_le statement
  exact mul_ne_zero (pow_ne_zero _ hshift) (pow_ne_zero _ (rootOf_ne_zero (by omega)))

theorem layerPoint_add_half (statement : GoldilocksMultilinearPcsStatementV3) (shift : ℤ)
    {layerIndex : ℕ} (hlayer : layerIndex ≤ statement.variableCount) (i : ℕ) :
    layerPoint statement shift layerIndex (i + 2 ^ (statement.variableCount + 1 - layerIndex)) =
      -layerPoint statement shift layerIndex i := by
  have hcap := variableCount_add_two_le statement
  rw [layerPoint, layerPoint, show statement.variableCount + 2 - layerIndex =
    statement.variableCount + 1 - layerIndex + 1 by omega, pow_add, rootOf_pow_half (by omega)]
  ring

theorem layerPoint_sq (statement : GoldilocksMultilinearPcsStatementV3) (shift : ℤ)
    {layerIndex : ℕ} (hlayer : layerIndex ≤ statement.variableCount) (i : ℕ) :
    layerPoint statement shift layerIndex i ^ 2 =
      layerPoint statement shift (layerIndex + 1) i := by
  have hcap := variableCount_add_two_le statement
  rw [layerPoint, layerPoint, show statement.variableCount + 2 - layerIndex =
    statement.variableCount + 2 - (layerIndex + 1) + 1 by omega, mul_pow, ← pow_mul, ← pow_succ,
    ← pow_mul, mul_comm i 2, pow_mul, rootOf_sq (by omega)]

theorem goldilocksPrincipalRootOfUnity_spec {h : ℕ} (hh : h ≤ 32) :
    ∃ root, goldilocksPrincipalRootOfUnity (2 ^ h) = .ok root ∧ Canonical root ∧
      (root : F) = rootOf h := by
  obtain ⟨root, hroot, hcanonical, hvalue⟩ := principalRoot_spec hh
  refine ⟨root, ?_, hcanonical, hvalue⟩
  rw [goldilocksPrincipalRootOfUnity, bind_eq_ok]
  exact ⟨_, radix2Size_two_pow _ hh nofun, hroot⟩

theorem domainPoint_spec (hshift : statement.baseShift sha256 = .ok shift) {layerIndex : ℕ}
    (hlayer : layerIndex ≤ statement.variableCount) (position : ℕ) :
    ∃ x, domainPoint sha256 statement layerIndex position = .ok x ∧ Canonical x ∧
      (x : F) = layerPoint statement shift layerIndex position := by
  have hcap := variableCount_add_two_le statement
  have hheight : statement.variableCount + 2 - layerIndex ≤ 32 := by omega
  obtain ⟨root, hroot, -, hvalue⟩ := goldilocksPrincipalRootOfUnity_spec hheight
  refine ⟨shiftPow shift layerIndex * powMod root position goldilocksModulus % goldilocksModulus,
    ?_, canonical_emod _, ?_⟩
  · simp only [domainPoint, genPow, bind_eq_ok, pure_eq_ok,
      codewordSize_shiftRight statement (show layerIndex ≤ statement.variableCount + 2 by omega)]
    exact ⟨shift, hshift, _, ⟨root, hroot, rfl⟩, rfl⟩
  · rw [intCast_emod, Int.cast_mul, intCast_shiftPow, intCast_powMod, hvalue, layerPoint]

theorem baseShift_of_domainPoint {layerIndex position : ℕ} {x : ℤ}
    (h : domainPoint sha256 statement layerIndex position = .ok x) :
    ∃ shift, statement.baseShift sha256 = .ok shift := by
  simp only [domainPoint, bind_eq_ok] at h
  obtain ⟨shift, hshift, -⟩ := h
  exact ⟨shift, hshift⟩

/-! ## Query indices -/

theorem mem_layerQueryIndices {positions : List ℕ} {size : ℕ} {isFinal : Bool} {index : ℕ} :
    index ∈ layerQueryIndices positions size isFinal ↔
      ∃ position ∈ positions, if isFinal then index = position % size
        else index = position % (size / 2) ∨ index = position % (size / 2) + size / 2 := by
  cases isFinal with
  | true => simp [layerQueryIndices, layerQuerySet, eq_comm]
  | false => simp [layerQueryIndices, layerQuerySet]

theorem mod_two_mul_eq (position half : ℕ) :
    position % (2 * half) = position % half ∨ position % (2 * half) = position % half + half := by
  have hdiv : position / half % 2 = 0 ∨ position / half % 2 = 1 := by omega
  have hsplit : position % (half * 2) = position % half + half * (position / half % 2) :=
    Nat.mod_mul
  rw [mul_comm 2 half, hsplit]
  rcases hdiv with h | h
  · simp [h]
  · simp [h]

section Indices

variable {statement : GoldilocksMultilinearPcsStatementV3} {positions : List ℕ} {position l : ℕ}

theorem pair_mem_layerQueryIndices (hl : l < statement.variableCount) (hposition : position ∈ positions) :
    position % (statement.codewordSize >>> l / 2) ∈ layerQueryIndices positions
        (statement.codewordSize >>> l) (l = statement.variableCount) ∧
      position % (statement.codewordSize >>> l / 2) + statement.codewordSize >>> l / 2 ∈
        layerQueryIndices positions (statement.codewordSize >>> l) (l = statement.variableCount) := by
  have hfinal : decide (l = statement.variableCount) = false := decide_eq_false (by omega)
  rw [hfinal, mem_layerQueryIndices, mem_layerQueryIndices]
  exact ⟨⟨position, hposition, by simp⟩, ⟨position, hposition, by simp⟩⟩

theorem child_mem_layerQueryIndices (hl : l < statement.variableCount)
    (hposition : position ∈ positions) :
    position % (statement.codewordSize >>> l / 2) ∈ layerQueryIndices positions
      (statement.codewordSize >>> (l + 1)) (l + 1 = statement.variableCount) := by
  have hchild : statement.codewordSize >>> l / 2 = statement.codewordSize >>> (l + 1) := by
    rw [Nat.shiftRight_add, Nat.shiftRight_one]
  rw [hchild, mem_layerQueryIndices]
  refine ⟨position, hposition, ?_⟩
  split_ifs with hfinal
  · rfl
  · have hsize : statement.codewordSize >>> (l + 1) =
        2 * (statement.codewordSize >>> (l + 1) / 2) := by
      rw [codewordSize_shiftRight statement (by omega), show statement.variableCount + 2 - (l + 1) =
        statement.variableCount - l + 1 by omega, pow_succ', Nat.mul_div_cancel_left _ (by norm_num)]
    have hmod := mod_two_mul_eq position (statement.codewordSize >>> (l + 1) / 2)
    rwa [← hsize] at hmod

end Indices

/-! ## Opened values -/

/-- The value that a width-one opening carries at an index. -/
def openedValue (o : ConstructedOpening) (index : ℕ) : ℤ :=
  (o.opening.openedRow index).getD 0 0

theorem openedValues_spec {row : ℕ → List ℤ} {indices : List ℕ} (stored : Opened)
    (hrows : ∀ i ∈ indices, row i ≠ []) :
    ∃ opened, openedValues indices (indices.map row) stored = .ok opened ∧
      ∀ i, opened.lookup i =
        if i ∈ indices then some ((row i).getD 0 0) else stored.lookup i := by
  induction indices generalizing stored with
  | nil => exact ⟨stored, rfl, by simp⟩
  | cons index indices ih =>
    obtain ⟨hrow, hrest⟩ := List.forall_mem_cons.mp hrows
    obtain ⟨value, tail, hvalue⟩ := List.exists_cons_of_ne_nil hrow
    obtain ⟨opened, hopened, hlookup⟩ := ih (stored.insert index value) hrest
    refine ⟨opened, ?_, fun i => ?_⟩
    · rw [List.map_cons, openedValues, bind_eq_ok]
      exact ⟨value, by rw [hvalue]; rfl, hopened⟩
    · rw [hlookup]
      by_cases hi : i ∈ indices
      · rw [if_pos hi, if_pos (List.mem_cons_of_mem _ hi)]
      · rw [if_neg hi]
        by_cases heq : i = index
        · subst heq
          rw [if_pos List.mem_cons_self, Finmap.lookup_insert, hvalue]
          rfl
        · rw [Finmap.lookup_insert_of_ne _ heq, if_neg (by simp [heq, hi])]

theorem openedValues_constructed (o : ConstructedOpening) :
    ∃ opened, openedValues o.opening.indices o.opening.rows ∅ = .ok opened ∧
      ∀ i, opened.lookup i = if i ∈ o.opening.indices then some (openedValue o i) else none := by
  have hrows : ∀ i ∈ o.opening.indices, o.opening.openedRow i ≠ [] := by
    intro i hi hempty
    have hwidth := (o.isRow_openedRow hi).1
    have hpos := o.admitted.leafWidth.1
    rw [hempty, List.length_nil] at hwidth
    omega
  obtain ⟨opened, hopened, hlookup⟩ := openedValues_spec ∅ hrows
  rw [o.map_openedRow] at hopened
  exact ⟨opened, hopened, hlookup⟩

theorem canonical_openedValue (o : ConstructedOpening) {i : ℕ} (hi : i ∈ o.opening.indices) :
    Canonical (openedValue o i) := by
  have hrow := o.isRow_openedRow hi
  have hpos := o.admitted.leafWidth.1
  rw [← hrow.1] at hpos
  rw [openedValue, List.getD_eq_getElem _ _ hpos]
  exact hrow.2 _ (List.getElem_mem _)

/-! ## Layers -/

section Layers

variable (sha256 : Bytes → Digest) (statement : GoldilocksMultilinearPcsStatementV3)

/-- A layer opening is the expected one and hashes to the root of its layer. -/
structure LayerAccepted (positions : List ℕ) (root : Bytes) (o : ConstructedOpening)
    (layerIndex : ℕ) : Prop where
  bindingDigest : o.opening.bindingDigest = statement.layerBindingDigest sha256 layerIndex
  leafCount : o.opening.leafCount = statement.codewordSize >>> layerIndex
  leafWidth : o.opening.leafWidth = 1
  indices : o.opening.indices = layerQueryIndices positions (statement.codewordSize >>> layerIndex)
    (layerIndex = statement.variableCount)
  root : root = (commitmentHash sha256 (statement.layerBindingDigest sha256 layerIndex)
    (statement.codewordSize >>> layerIndex) 1 (o.opening.rawRoot sha256)).bytes

/-- The Merkle verifier accepts a layer opening exactly when it is the expected one; the width is
one, so the compiled helper makes no difference. -/
theorem verify_layer_iff (lib : Bool) (positions : List ℕ) (root : Bytes) (o : ConstructedOpening)
    (layerIndex : ℕ) :
    Accepts (verifyGoldilocksMerkleMultiopeningReference sha256 lib root o.opening
        (statement.layerBindingDigest sha256 layerIndex).bytes
        (statement.codewordSize >>> layerIndex) 1
        (layerQueryIndices positions (statement.codewordSize >>> layerIndex)
          (layerIndex = statement.variableCount))) ↔
      LayerAccepted sha256 statement positions root o layerIndex := by
  rw [o.verify_accepts_iff]
  constructor
  · rintro ⟨hbinding, hcount, hwidth, hindices, hroot, -⟩
    have hbinding' := Digest.ext hbinding
    refine ⟨hbinding'.symm, hcount.symm, hwidth.symm, hindices.symm, ?_⟩
    rw [hroot, ← hbinding', ← hcount, ← hwidth]
  · rintro ⟨hbinding, hcount, hwidth, hindices, hroot⟩
    refine ⟨congrArg Digest.bytes hbinding.symm, hcount.symm, hwidth.symm, hindices.symm, ?_, ?_⟩
    · rw [hroot, hbinding, hcount, hwidth]
    · intro _
      rw [hwidth]
      norm_num

/-- The dictionary that the verifier keeps for a layer. -/
def IsOpened (o : ConstructedOpening) (opened : Opened) : Prop :=
  ∀ i, opened.lookup i = if i ∈ o.opening.indices then some (openedValue o i) else none

theorem IsOpened.getKey {o : ConstructedOpening} {opened : Opened} (h : IsOpened o opened) {i : ℕ}
    (hi : i ∈ o.opening.indices) : getKey opened i = .ok (openedValue o i) := by
  rw [Pcs.getKey, h i, if_pos hi]

theorem verifyLayers_eq_ok {lib : Bool} {roots : List Bytes} {positions : List ℕ}
    {openings : List ConstructedOpening} {layerIndex : ℕ} {opened : List Opened} :
    verifyLayers sha256 statement lib roots positions openings layerIndex = .ok opened →
      (∀ k o, openings[k]? = some o → ∃ root, roots[layerIndex + k]? = some root ∧
        LayerAccepted sha256 statement positions root o (layerIndex + k)) ∧
      List.Forall₂ IsOpened openings opened := by
  induction openings generalizing layerIndex opened with
  | nil =>
    intro h
    obtain rfl : [] = opened := by simpa [verifyLayers] using h
    exact ⟨by simp, .nil⟩
  | cons o openings ih =>
    intro h
    simp only [verifyLayers, bind_eq_ok, getItem_eq_ok, pure_eq_ok] at h
    obtain ⟨root, hroot, u, hverify, first, hfirst, others, hothers, rfl⟩ := h
    obtain ⟨hlayers, hopened⟩ := ih hothers
    obtain ⟨first', hfirst', hlookup⟩ := openedValues_constructed o
    obtain rfl : first' = first := Except.ok.inj (hfirst'.symm.trans hfirst)
    refine ⟨fun k o' hk => ?_, .cons hlookup hopened⟩
    cases k with
    | zero =>
      obtain rfl : o = o' := by simpa using hk
      exact ⟨root, hroot, (verify_layer_iff sha256 statement lib positions root o layerIndex).mp
        ⟨u, hverify⟩⟩
    | succ k =>
      obtain ⟨root', hroot', haccepted⟩ := hlayers k o' (by simpa using hk)
      rw [Nat.add_right_comm, Nat.add_assoc] at hroot' haccepted
      exact ⟨root', hroot', haccepted⟩

theorem exists_verifyLayers (lib : Bool) {roots : List Bytes} {positions : List ℕ}
    {openings : List ConstructedOpening} {layerIndex : ℕ}
    (h : ∀ k o, openings[k]? = some o → ∃ root, roots[layerIndex + k]? = some root ∧
      LayerAccepted sha256 statement positions root o (layerIndex + k)) :
    ∃ opened, verifyLayers sha256 statement lib roots positions openings layerIndex = .ok opened ∧
      List.Forall₂ IsOpened openings opened := by
  induction openings generalizing layerIndex with
  | nil => exact ⟨[], rfl, .nil⟩
  | cons o openings ih =>
    obtain ⟨root, hroot, haccepted⟩ := h 0 o rfl
    obtain ⟨u, hverify⟩ :=
      (verify_layer_iff sha256 statement lib positions root o layerIndex).mpr haccepted
    obtain ⟨first, hfirst, hlookup⟩ := openedValues_constructed o
    have hrest : ∀ k o', openings[k]? = some o' → ∃ root, roots[layerIndex + 1 + k]? = some root ∧
        LayerAccepted sha256 statement positions root o' (layerIndex + 1 + k) := by
      intro k o' hk
      have hnext := h (k + 1) o' hk
      rwa [← Nat.add_assoc, Nat.add_right_comm] at hnext
    obtain ⟨others, hothers, hopened⟩ := ih hrest
    refine ⟨first :: others, ?_, .cons hlookup hopened⟩
    simp only [verifyLayers, bind_eq_ok, getItem_eq_ok, pure_eq_ok]
    exact ⟨root, hroot, u, hverify, first, hfirst, others, hothers, rfl⟩

end Layers

/-! ## Folds -/

/-- The fold equation at one position, in the field. -/
def FoldHolds (statement : GoldilocksMultilinearPcsStatementV3) (shift : ℤ) (challenge : ℤ)
    (parent child : ConstructedOpening) (layerIndex position : ℕ) : Prop :=
  let folded := position % (statement.codewordSize >>> layerIndex / 2)
  let valuePos : F := openedValue parent folded
  let valueNeg : F := openedValue parent (folded + statement.codewordSize >>> layerIndex / 2)
  (1 - (challenge : F)) * ((valuePos + valueNeg) * inv2) +
      challenge * ((valuePos - valueNeg) * inv2 *
        (layerPoint statement shift layerIndex folded)⁻¹) =
    openedValue child folded

theorem intCast_expectedFold (challenge valuePos valueNeg inverse : ℤ) :
    (expectedFold challenge valuePos valueNeg inverse : F) =
      (1 - (challenge : F)) * (((valuePos : F) + valueNeg) * inv2) +
        challenge * (((valuePos : F) - valueNeg) * inv2 * inverse) := by
  simp only [expectedFold, intCast_emod, Int.cast_add, Int.cast_sub, Int.cast_mul, Int.cast_one]

section Folds

variable {sha256 : Bytes → Digest} {statement : GoldilocksMultilinearPcsStatementV3}
  {opened : List Opened} {challenges : List ℤ} {layerIndex position : ℕ} {challenge : ℤ}
  {parent child : ConstructedOpening} {parentOpened childOpened : Opened}

theorem checkFold_accepts_iff (hlayer : layerIndex < statement.variableCount)
    (hchallenge : challenges[layerIndex]? = some challenge)
    (hparent : opened[layerIndex]? = some parentOpened)
    (hchild : opened[layerIndex + 1]? = some childOpened)
    (hparentOpened : IsOpened parent parentOpened) (hchildOpened : IsOpened child childOpened)
    (hpos : position % (statement.codewordSize >>> layerIndex / 2) ∈ parent.opening.indices)
    (hneg : position % (statement.codewordSize >>> layerIndex / 2) +
      statement.codewordSize >>> layerIndex / 2 ∈ parent.opening.indices)
    (htarget : position % (statement.codewordSize >>> layerIndex / 2) ∈ child.opening.indices) :
    Accepts (checkFold sha256 statement opened challenges layerIndex position) ↔
      ∃ shift, statement.baseShift sha256 = .ok shift ∧
        FoldHolds statement shift challenge parent child layerIndex position := by
  simp only [Accepts, checkFold, bind_eq_ok, getItem_eq_ok, raiseIf_eq_ok, not_not]
  have hequation : ∀ shift x inverse : ℤ, (x : F) = layerPoint statement shift layerIndex
      (position % (statement.codewordSize >>> layerIndex / 2)) → (inverse : F) = (x : F)⁻¹ →
      (expectedFold challenge
        (openedValue parent (position % (statement.codewordSize >>> layerIndex / 2)))
        (openedValue parent (position % (statement.codewordSize >>> layerIndex / 2) +
          statement.codewordSize >>> layerIndex / 2)) inverse =
        openedValue child (position % (statement.codewordSize >>> layerIndex / 2)) ↔
      FoldHolds statement shift challenge parent child layerIndex position) := by
    intro shift x inverse hx hinverse
    rw [FoldHolds, ← hx, ← hinverse, ← intCast_expectedFold]
    constructor
    · intro h
      rw [h]
    · intro h
      exact (canonical_emod _).ext (canonical_openedValue child htarget) h
  constructor
  · rintro ⟨-, _, hc, _, hp, vp, hvp, vn, hvn, x, hx, inverse, hinverse, _, hch, vc, hvc, hfold⟩
    obtain rfl := Option.some.inj (hchallenge.symm.trans hc)
    obtain rfl := Option.some.inj (hparent.symm.trans hp)
    obtain rfl := Option.some.inj (hchild.symm.trans hch)
    obtain rfl := Except.ok.inj ((hparentOpened.getKey hpos).symm.trans hvp)
    obtain rfl := Except.ok.inj ((hparentOpened.getKey hneg).symm.trans hvn)
    obtain rfl := Except.ok.inj ((hchildOpened.getKey htarget).symm.trans hvc)
    obtain ⟨shift, hshift⟩ := baseShift_of_domainPoint hx
    obtain ⟨x', hx', hcanonical, hvalue⟩ := domainPoint_spec hshift hlayer.le
      (position % (statement.codewordSize >>> layerIndex / 2))
    obtain rfl := Except.ok.inj (hx'.symm.trans hx)
    have hne : x' ≠ 0 := by
      rintro rfl
      exact layerPoint_ne_zero statement (baseShift_spec hshift).2 _ _ (by simpa using hvalue.symm)
    obtain ⟨inverse', hinverse', hinv⟩ := goldilocksInv_spec hcanonical hne
    obtain rfl := Except.ok.inj (hinverse'.symm.trans hinverse)
    exact ⟨shift, hshift, (hequation shift x' inverse' hvalue hinv).mp hfold⟩
  · rintro ⟨shift, hshift, hfold⟩
    obtain ⟨x, hx, hcanonical, hvalue⟩ := domainPoint_spec hshift hlayer.le
      (position % (statement.codewordSize >>> layerIndex / 2))
    have hne : x ≠ 0 := by
      rintro rfl
      exact layerPoint_ne_zero statement (baseShift_spec hshift).2 _ _ (by simpa using hvalue.symm)
    obtain ⟨inverse, hinverse, hinv⟩ := goldilocksInv_spec hcanonical hne
    exact ⟨(), challenge, hchallenge, parentOpened, hparent, _, hparentOpened.getKey hpos, _,
      hparentOpened.getKey hneg, x, hx, inverse, hinverse, childOpened, hchild, _,
      hchildOpened.getKey htarget, (hequation shift x inverse hvalue hinv).mpr hfold⟩

end Folds

theorem forall₂_getElem? {α β : Type} {r : α → β → Prop} {xs : List α} {ys : List β}
    (h : List.Forall₂ r xs ys) {k : ℕ} {x : α} (hx : xs[k]? = some x) :
    ∃ y, ys[k]? = some y ∧ r x y := by
  obtain ⟨hk, rfl⟩ := List.getElem?_eq_some_iff.mp hx
  have hk' : k < ys.length := h.length_eq ▸ hk
  exact ⟨ys[k], List.getElem?_eq_getElem hk', h.get hk hk'⟩

/-! ## The whole loop -/

/-- The query phase accepts: layers, fold equations and the final constant. -/
structure QueryAccepted (sha256 : Bytes → Digest) (statement : GoldilocksMultilinearPcsStatementV3)
    (shift : ℤ) (roots : List Bytes) (challenges : List ℤ) (positions : List ℕ)
    (openings : List ConstructedOpening) (finalValue : ℤ) : Prop where
  length_openings : openings.length = statement.variableCount + 1
  layers : ∀ l o root, openings[l]? = some o → roots[l]? = some root →
    LayerAccepted sha256 statement positions root o l
  folds : ∀ l c parent child, challenges[l]? = some c → openings[l]? = some parent →
    openings[l + 1]? = some child → ∀ position ∈ positions,
      FoldHolds statement shift c parent child l position
  final : ∀ o, openings[statement.variableCount]? = some o → ∀ i ∈ o.opening.indices,
    openedValue o i = finalValue

theorem length_of_verifyRounds {sha256 : Bytes → Digest} {layerCommitments : List Bytes}
    {rounds : List Round} {roundIndex : ℕ} {running last : ℤ} {transcript transcript' : Digest}
    {challenges : List ℤ}
    (h : verifyRounds sha256 layerCommitments rounds roundIndex running transcript =
      .ok (last, challenges, transcript')) : challenges.length = rounds.length :=
  (chain_of_roundChain (verifyRounds_chain h)).1.symm

theorem length_queryPositions (sha256 : Bytes → Digest) (transcript : Digest)
    (baseSize queryCount : ℕ) :
    (queryPositions sha256 transcript baseSize queryCount).length = queryCount := by
  simp [queryPositions]

section Query

variable {sha256 : Bytes → Digest} {statement : GoldilocksMultilinearPcsStatementV3}
  {roots : List Bytes} {challenges : List ℤ} {positions : List ℕ}
  {openings : List ConstructedOpening} {opened : List Opened} {finalValue : ℤ}

theorem foldLoops_accept_iff (hlength : openings.length = statement.variableCount + 1)
    (hchallenges : challenges.length = statement.variableCount)
    (hpositions : positions ≠ [])
    (hlayers : ∀ l o, openings[l]? = some o → o.opening.indices =
      layerQueryIndices positions (statement.codewordSize >>> l) (l = statement.variableCount))
    (hopened : List.Forall₂ IsOpened openings opened) :
    Accepts ((List.range statement.variableCount).forM fun layerIndex =>
        positions.forM (checkFold sha256 statement opened challenges layerIndex)) ↔
      ∃ shift, statement.baseShift sha256 = .ok shift ∧
        ∀ l c parent child, challenges[l]? = some c → openings[l]? = some parent →
          openings[l + 1]? = some child → ∀ position ∈ positions,
            FoldHolds statement shift c parent child l position := by
  rw [forM_accepts_iff]
  simp only [List.mem_range, forM_accepts_iff]
  have hcheck : ∀ l c parent child, challenges[l]? = some c → openings[l]? = some parent →
      openings[l + 1]? = some child → ∀ position ∈ positions,
      (Accepts (checkFold sha256 statement opened challenges l position) ↔
        ∃ shift, statement.baseShift sha256 = .ok shift ∧
          FoldHolds statement shift c parent child l position) := by
    intro l c parent child hc hparent hchild position hposition
    have hl : l < statement.variableCount := by
      rw [← hchallenges]
      exact (List.getElem?_eq_some_iff.mp hc).1
    obtain ⟨parentOpened, hparentGet, hparentOpened⟩ := forall₂_getElem? hopened hparent
    obtain ⟨childOpened, hchildGet, hchildOpened⟩ := forall₂_getElem? hopened hchild
    obtain ⟨hpos, hneg⟩ := pair_mem_layerQueryIndices hl hposition
    rw [← hlayers l parent hparent] at hpos hneg
    have htarget := child_mem_layerQueryIndices hl hposition
    rw [← hlayers (l + 1) child hchild] at htarget
    exact checkFold_accepts_iff hl hc hparentGet hchildGet hparentOpened hchildOpened hpos hneg
      htarget
  have hget : ∀ l < statement.variableCount, ∃ c parent child, challenges[l]? = some c ∧
      openings[l]? = some parent ∧ openings[l + 1]? = some child := by
    intro l hl
    exact ⟨challenges[l], openings[l], openings[l + 1], List.getElem?_eq_getElem (by omega),
      List.getElem?_eq_getElem (by omega), List.getElem?_eq_getElem (by omega)⟩
  constructor
  · intro hall
    obtain ⟨position, hposition⟩ := List.exists_mem_of_ne_nil _ hpositions
    obtain ⟨c, parent, child, hc, hparent, hchild⟩ := hget 0 statement.one_le_variableCount
    obtain ⟨shift, hshift, -⟩ := (hcheck 0 c parent child hc hparent hchild position hposition).mp
      (hall 0 statement.one_le_variableCount position hposition)
    refine ⟨shift, hshift, fun l c parent child hc hparent hchild position hposition => ?_⟩
    have hl : l < statement.variableCount := by
      rw [← hchallenges]
      exact (List.getElem?_eq_some_iff.mp hc).1
    obtain ⟨shift', hshift', hfold⟩ :=
      (hcheck l c parent child hc hparent hchild position hposition).mp (hall l hl position hposition)
    obtain rfl := Except.ok.inj (hshift.symm.trans hshift')
    exact hfold
  · rintro ⟨shift, hshift, hall⟩ l hl position hposition
    obtain ⟨c, parent, child, hc, hparent, hchild⟩ := hget l hl
    exact (hcheck l c parent child hc hparent hchild position hposition).mpr
      ⟨shift, hshift, hall l c parent child hc hparent hchild position hposition⟩

theorem final_iff {o : ConstructedOpening} {finalLayer : Opened} (h : IsOpened o finalLayer) :
    (¬ ∃ index ∈ finalLayer.keys, finalLayer.lookup index ≠ some finalValue) ↔
      ∀ i ∈ o.opening.indices, openedValue o i = finalValue := by
  have hkeys : ∀ i, i ∈ finalLayer.keys ↔ i ∈ o.opening.indices := by
    intro i
    rw [Finmap.mem_keys, ← Finmap.lookup_isSome, h i]
    split_ifs with hi <;> simp [hi]
  push Not
  simp only [hkeys]
  refine forall₂_congr fun i hi => ?_
  rw [h i, if_pos hi, Option.some.injEq]

end Query

theorem verifyPython_accepts_iff (lib : Bool)
    {proof : GoldilocksMultilinearOpeningProofV3} (commitment : Bytes) (point : List ℤ)
    (transcript : Digest) (hrounds : proof.roundPolynomials.length = statement.variableCount) :
    Accepts (verifyPython sha256 statement lib proof commitment point transcript) ↔
      ∃ running challenges transcript' eqProduct shift,
        verifyRounds sha256 proof.layerCommitments proof.roundPolynomials 0 proof.claimedValue
          transcript = .ok (running, challenges, transcript') ∧
        eqProductLoop challenges point 1 = .ok eqProduct ∧
        running = proof.finalValue * eqProduct % goldilocksModulus ∧
        statement.baseShift sha256 = .ok shift ∧
        QueryAccepted sha256 statement shift (commitment :: proof.layerCommitments) challenges
          (queryPositions sha256 transcript' statement.codewordSize statement.queryCount)
          proof.layerOpenings proof.finalValue := by
  have hroots : (commitment :: proof.layerCommitments).length = statement.variableCount + 1 := by
    rw [List.length_cons, proof.length_layerCommitments, hrounds]
  have hpositions : ∀ t, queryPositions sha256 t statement.codewordSize statement.queryCount ≠ [] := by
    intro t
    rw [← List.length_pos_iff, length_queryPositions]
    exact statement.one_le_queryCount
  simp only [Accepts, verifyPython, bind_eq_ok, raiseIf_eq_ok, not_not]
  constructor
  · rintro ⟨-, ⟨running, challenges, transcript'⟩, hchain, eqProduct, hproduct, -, hcoupling, -,
      hcount, opened, hlayersOk, u, hfolds, finalLayer, hfinalLayer, hfinal⟩
    obtain ⟨hlayers, hopened⟩ := verifyLayers_eq_ok sha256 statement hlayersOk
    simp only [Nat.zero_add] at hlayers
    have hchallenges := (length_of_verifyRounds hchain).trans hrounds
    obtain ⟨shift, hshift, hfoldsHold⟩ := (foldLoops_accept_iff hcount hchallenges (hpositions _)
      (fun l o ho => (hlayers l o ho).choose_spec.2.indices) hopened).mp ⟨u, hfolds⟩
    refine ⟨running, challenges, transcript', eqProduct, shift, hchain, hproduct, hcoupling, hshift,
      hcount, fun l o root ho hroot => ?_, hfoldsHold, fun o ho => ?_⟩
    · obtain ⟨root', hroot', haccepted⟩ := hlayers l o ho
      obtain rfl := Option.some.inj (hroot.symm.trans hroot')
      exact haccepted
    · obtain ⟨finalLayer', hget, hfinalOpened⟩ := forall₂_getElem? hopened ho
      obtain rfl := Option.some.inj (hget.symm.trans (getItem_eq_ok.mp hfinalLayer))
      exact (final_iff hfinalOpened).mp hfinal
  · rintro ⟨running, challenges, transcript', eqProduct, shift, hchain, hproduct, hcoupling, hshift,
      hquery⟩
    have hlayers : ∀ k o, proof.layerOpenings[k]? = some o →
        ∃ root, (commitment :: proof.layerCommitments)[0 + k]? = some root ∧
          LayerAccepted sha256 statement
            (queryPositions sha256 transcript' statement.codewordSize statement.queryCount) root o
            (0 + k) := by
      intro k o ho
      have hk : k < (commitment :: proof.layerCommitments).length := by
        rw [hroots, ← hquery.length_openings]
        exact (List.getElem?_eq_some_iff.mp ho).1
      rw [Nat.zero_add]
      exact ⟨_, List.getElem?_eq_getElem hk,
        hquery.layers k o _ ho (List.getElem?_eq_getElem hk)⟩
    obtain ⟨opened, hopenedOk, hopened⟩ := exists_verifyLayers sha256 statement lib hlayers
    simp only [Nat.zero_add] at hlayers
    have hchallenges := (length_of_verifyRounds hchain).trans hrounds
    obtain ⟨u, hfolds⟩ := (foldLoops_accept_iff hquery.length_openings hchallenges (hpositions _)
      (fun l o ho => (hlayers l o ho).choose_spec.2.indices) hopened).mpr
      ⟨shift, hshift, hquery.folds⟩
    obtain ⟨o, ho⟩ : ∃ o, proof.layerOpenings[statement.variableCount]? = some o :=
      ⟨_, List.getElem?_eq_getElem (by rw [hquery.length_openings]; omega)⟩
    obtain ⟨finalLayer, hget, hfinalOpened⟩ := forall₂_getElem? hopened ho
    exact ⟨(), (running, challenges, transcript'), hchain, eqProduct, hproduct, (), hcoupling, (),
      hquery.length_openings, opened, hopenedOk, u, hfolds, finalLayer, getItem_eq_ok.mpr hget,
      (final_iff hfinalOpened).mpr (hquery.final o ho)⟩

end Verathos.Pcs
