import Verathos.Pcs.Acceptance
import Verathos.Pcs.Words

/-!
# The arguments of the compiled verifier

What `_try_compiled_opening_verify` checks before the call (`Preparable`), and the flat arrays
that it hands over (`preparedArguments`). The slices that the C code reads from them are the
layers of the proof again.
-/

namespace Verathos.Pcs

open Merkle Compiled ModularPower

/-! ## Slices of flat arrays -/

section Slices

variable {α : Type}

theorem getD_scanl_add (lengths : List ℕ) (start : ℕ) {l : ℕ} (hl : l ≤ lengths.length) :
    (lengths.scanl (· + ·) start).getD l 0 = start + (lengths.take l).sum := by
  induction lengths generalizing start l with
  | nil =>
    obtain rfl : l = 0 := by simpa using hl
    simp
  | cons length lengths ih =>
    cases l with
    | zero => simp
    | succ l =>
      rw [List.scanl_cons, List.getD_cons_succ, ih _ (by simpa using hl), List.take_succ_cons,
        List.sum_cons, Nat.add_assoc]

theorem getD_offsets {lengths : List ℕ} {l : ℕ} (hl : l ≤ lengths.length) :
    (offsets lengths).getD l 0 = (lengths.take l).sum := by
  rw [offsets, getD_scanl_add _ _ hl, Nat.zero_add]

theorem slice_flatMap {β : Type} {items : List β} (part : β → List α) {l : ℕ} {item : β}
    (hl : items[l]? = some item) :
    slice (items.flatMap part) ((offsets (items.map fun i => (part i).length)).getD l 0)
        ((offsets (items.map fun i => (part i).length)).getD (l + 1) 0 -
          (offsets (items.map fun i => (part i).length)).getD l 0) = part item ∧
      (offsets (items.map fun i => (part i).length)).getD (l + 1) 0 -
          (offsets (items.map fun i => (part i).length)).getD l 0 = (part item).length := by
  obtain ⟨hlt, rfl⟩ := List.getElem?_eq_some_iff.mp hl
  have hsplit : items.flatMap part =
      (items.take l).flatMap part ++ (part items[l] ++ (items.drop (l + 1)).flatMap part) := by
    rw [← List.flatMap_cons, ← List.flatMap_append, List.getElem_cons_drop, List.take_append_drop]
  have hstart : (offsets (items.map fun i => (part i).length)).getD l 0 =
      ((items.take l).flatMap part).length := by
    rw [getD_offsets (by rw [List.length_map]; omega), ← List.map_take, List.length_flatMap]
  have hcount : (offsets (items.map fun i => (part i).length)).getD (l + 1) 0 =
      (offsets (items.map fun i => (part i).length)).getD l 0 + (part items[l]).length := by
    rw [getD_offsets (by rw [List.length_map]; omega), getD_offsets (by rw [List.length_map]; omega),
      List.take_succ_eq_append_getElem (by rw [List.length_map]; omega), List.sum_append,
      List.getElem_map, List.sum_singleton]
  rw [hcount, Nat.add_sub_cancel_left, hstart]
  refine ⟨?_, rfl⟩
  rw [slice, hsplit, List.drop_left, List.take_left]

theorem slice_flatten {rows : List (List α)} {width l : ℕ} {row : List α}
    (hrows : ∀ r ∈ rows, r.length = width) (hl : rows[l]? = some row) :
    slice rows.flatten (width * l) width = row := by
  rw [slice, mul_comm]
  exact RowMajor.take_drop_flatten hrows hl

theorem getElem?_flatMap_of_width {β : Type} {items : List β} {part : β → List α} {width : ℕ}
    (hpart : ∀ item, (part item).length = width) {l : ℕ} {item : β} (hl : items[l]? = some item)
    {j : ℕ} (hj : j < width) : (items.flatMap part)[width * l + j]? = (part item)[j]? := by
  have hslice : slice (items.flatMap part) (width * l) width = part item := by
    rw [List.flatMap_def]
    refine slice_flatten (fun x hx => ?_) (by rw [List.getElem?_map, hl, Option.map_some])
    obtain ⟨item', -, rfl⟩ := List.mem_map.mp hx
    exact hpart item'
  rw [← hslice, slice, List.getElem?_take_of_lt hj, List.getElem?_drop]

end Slices

/-! ## Preparation -/

/-- What `_try_compiled_opening_verify` checks before it calls the library. -/
structure Preparable (sha256 : Bytes → Digest) (statement : GoldilocksMultilinearPcsStatementV3)
    (proof : GoldilocksMultilinearOpeningProofV3) (commitment : Bytes) (shift : ℤ) : Prop where
  length_openings : proof.layerOpenings.length = statement.variableCount + 1
  roots : ∀ root ∈ commitment :: proof.layerCommitments, root.length = 32
  shift : statement.baseShift sha256 = .ok shift
  metadata : ∀ l o, proof.layerOpenings[l]? = some o →
    o.opening.bindingDigest = statement.layerBindingDigest sha256 l ∧
      o.opening.leafCount = statement.codewordSize >>> l ∧ o.opening.leafWidth = 1

/-- The header of the Merkle messages of a layer. -/
def layerHeader (sha256 : Bytes → Digest) (statement : GoldilocksMultilinearPcsStatementV3)
    (l : ℕ) : Bytes :=
  treeHeader (statement.layerBindingDigest sha256 l) (statement.codewordSize >>> l) 1

/-- The prepared layer of an opening. -/
def preparedLayer (sha256 : Bytes → Digest) (statement : GoldilocksMultilinearPcsStatementV3)
    (o : ConstructedOpening) (l : ℕ) : PreparedLayer where
  indices := o.opening.indices
  values := o.opening.rows.flatten
  siblingLevels := o.opening.siblings.map (·.level)
  siblingIndices := o.opening.siblings.map (·.index)
  siblingDigests := o.opening.siblings.flatMap (·.digest.bytes)
  leafPrefix := leafDomain ++ layerHeader sha256 statement l
  nodePrefix := nodeDomain ++ layerHeader sha256 statement l
  rootPrefix := rootDomain ++ layerHeader sha256 statement l

theorem map_getD_zero_eq_flatten {rows : List (List ℤ)} (h : ∀ row ∈ rows, row.length = 1) :
    (rows.map fun row => row.getD 0 0) = rows.flatten := by
  induction rows with
  | nil => rfl
  | cons row rows ih =>
    obtain ⟨hrow, hrest⟩ := List.forall_mem_cons.mp h
    obtain ⟨value, rfl⟩ := List.length_eq_one_iff.mp hrow
    rw [List.map_cons, ih hrest]
    rfl

theorem mapM_getItem_zero {rows : List (List ℤ)} (h : ∀ row ∈ rows, row.length = 1) :
    rows.mapM (getItem · 0) = .ok rows.flatten := by
  rw [← map_getD_zero_eq_flatten h]
  refine mapM_eq_ok_map fun row hrow => ?_
  obtain ⟨value, rfl⟩ := List.length_eq_one_iff.mp (h row hrow)
  rfl

theorem flatten_rows {o : ConstructedOpening} (hwidth : o.opening.leafWidth = 1) :
    o.opening.rows.flatten = o.opening.indices.map (openedValue o) := by
  have hrows : ∀ row ∈ o.opening.rows, row.length = 1 := fun row hrow =>
    (o.isRow_of_mem hrow).1.trans hwidth
  rw [← map_getD_zero_eq_flatten hrows, ← o.map_openedRow, List.map_map]
  rfl

theorem prepareLayer_eq_ok {sha256 : Bytes → Digest}
    {statement : GoldilocksMultilinearPcsStatementV3} {o : ConstructedOpening} {l : ℕ}
    {prepared : PreparedLayer} :
    prepareLayer sha256 statement o l = .ok prepared ↔
      (o.opening.bindingDigest = statement.layerBindingDigest sha256 l ∧
        o.opening.leafCount = statement.codewordSize >>> l ∧ o.opening.leafWidth = 1) ∧
      prepared = preparedLayer sha256 statement o l := by
  simp only [prepareLayer, bind_eq_ok, raiseIf_eq_ok, pure_eq_ok, exceptMalformed_eq_ok, not_or,
    not_not]
  have hvalues : o.opening.leafWidth = 1 →
      o.opening.rows.mapM (getItem · 0) = .ok o.opening.rows.flatten := fun hwidth =>
    mapM_getItem_zero fun row hrow => (o.isRow_of_mem hrow).1.trans hwidth
  constructor
  · rintro ⟨-, hmeta, values, hmap, rfl⟩
    obtain rfl := Except.ok.inj ((hvalues hmeta.2.2).symm.trans hmap)
    exact ⟨hmeta, rfl⟩
  · rintro ⟨hmeta, rfl⟩
    exact ⟨(), hmeta, _, hvalues hmeta.2.2, rfl⟩

/-- The values of a round polynomial, in order. -/
def roundValues (g : Round) : List ℤ := [g.1, g.2.1, g.2.2]

/-- The prepared layers of a proof. -/
def preparedLayers (sha256 : Bytes → Digest) (statement : GoldilocksMultilinearPcsStatementV3)
    (proof : GoldilocksMultilinearOpeningProofV3) : List PreparedLayer :=
  proof.layerOpenings.zipIdx.map fun x => preparedLayer sha256 statement x.1 x.2

/-- The arguments that the library gets for a proof that can be prepared. -/
def preparedArguments (sha256 : Bytes → Digest) (statement : GoldilocksMultilinearPcsStatementV3)
    (proof : GoldilocksMultilinearOpeningProofV3) (commitment : Bytes) (point : List ℤ)
    (transcript : Digest) (shift : ℤ) : Arguments where
  transcriptSeed := transcript
  claimed := proof.claimedValue.toNat
  finalValue := proof.finalValue.toNat
  n := proof.roundPolynomials.length
  point := point.map Int.toNat
  rounds := (proof.roundPolynomials.flatMap roundValues).map Int.toNat
  roots := (commitment :: proof.layerCommitments).flatten
  dom := challengeDomain
  qdom := queryDomain
  baseSize := statement.codewordSize
  layerShift := (List.range statement.variableCount).map fun l => (shiftPow shift l).toNat
  layerGen := (List.range statement.variableCount).map fun l =>
    (ofField (rootOf (statement.variableCount + 2 - l))).toNat
  nQueries := statement.queryCount
  layOff := offsets ((preparedLayers sha256 statement proof).map (·.indices.length))
  allIdx := (preparedLayers sha256 statement proof).flatMap (·.indices)
  allVal := ((preparedLayers sha256 statement proof).flatMap (·.values)).map Int.toNat
  sibOff := offsets ((preparedLayers sha256 statement proof).map (·.siblingLevels.length))
  allSibLv := (preparedLayers sha256 statement proof).flatMap (·.siblingLevels)
  allSibIx := (preparedLayers sha256 statement proof).flatMap (·.siblingIndices)
  allSibDig := (preparedLayers sha256 statement proof).flatMap (·.siblingDigests)
  leafPrefixes := (preparedLayers sha256 statement proof).flatMap (·.leafPrefix)
  nodePrefixes := (preparedLayers sha256 statement proof).flatMap (·.nodePrefix)
  rootPrefixes := (preparedLayers sha256 statement proof).flatMap (·.rootPrefix)

theorem arrayQ_eq_ok_iff {values : List ℤ} {words : List ℕ} :
    Merkle.Compiled.arrayQ values = .ok words ↔
      (∀ v ∈ values, 0 ≤ v ∧ v < 2 ^ 64) ∧ words = values.map Int.toNat := by
  refine mapM_eq_ok_of_iff fun a b => ?_
  split_ifs with h
  · rw [Except.ok.injEq, eq_comm, and_iff_right h]
  · exact iff_of_false nofun fun hb => h hb.1

theorem cUint64_of_canonical {value : ℤ} (h : Canonical value) : cUint64 value = value.toNat := by
  have := h.1
  have := h.2
  rw [goldilocksModulus_eq] at this
  rw [cUint64, Int.emod_eq_of_lt h.1 (by omega)]

theorem canonicalVector_lt {values : List ℤ} (h : CanonicalVector values) :
    ∀ v ∈ values, 0 ≤ v ∧ v < 2 ^ 64 := by
  intro v hv
  have := (h v hv).1
  have hlt := (h v hv).2
  rw [goldilocksModulus_eq] at hlt
  omega

theorem canonicalVector_preparedLayers (sha256 : Bytes → Digest)
    (statement : GoldilocksMultilinearPcsStatementV3) (proof : GoldilocksMultilinearOpeningProofV3) :
    CanonicalVector ((preparedLayers sha256 statement proof).flatMap (·.values)) := by
  intro v hv
  obtain ⟨layer, hlayer, hv⟩ := List.mem_flatMap.mp hv
  obtain ⟨⟨o, l⟩, -, rfl⟩ := List.mem_map.mp hlayer
  obtain ⟨row, hrow, hv⟩ := List.mem_flatten.mp hv
  exact (o.isRow_of_mem hrow).2 v hv

section TryCompiled

variable {sha256 : Bytes → Digest} {statement : GoldilocksMultilinearPcsStatementV3}
  {proof : GoldilocksMultilinearOpeningProofV3} {commitment : Bytes} {point : List ℤ}
  {transcript : Digest}

/-- The wrapper calls the library on the prepared arguments, when the round values are unsigned
words. -/
theorem verifyOpeningFullWrapper_eq_ok {shift : ℤ} {result : CResult Unit}
    (hpoint : CanonicalVector point) :
    verifyOpeningFullWrapper sha256 transcript proof.claimedValue proof.finalValue point
        proof.roundPolynomials (commitment :: proof.layerCommitments).flatten challengeDomain
        queryDomain statement.codewordSize
        ((List.range statement.variableCount).map (shiftPow shift))
        ((List.range statement.variableCount).map fun l =>
          ofField (rootOf (statement.variableCount + 2 - l)))
        statement.queryCount (preparedLayers sha256 statement proof) = .ok result ↔
      (∀ v ∈ proof.roundPolynomials.flatMap roundValues, 0 ≤ v ∧ v < 2 ^ 64) ∧
        result = verifyOpeningFull sha256
          (preparedArguments sha256 statement proof commitment point transcript shift) := by
  have hshifts : CanonicalVector ((List.range statement.variableCount).map (shiftPow shift)) := by
    intro v hv
    obtain ⟨l, -, rfl⟩ := List.mem_map.mp hv
    exact canonical_shiftPow shift l
  have hgens : CanonicalVector ((List.range statement.variableCount).map fun l =>
      ofField (rootOf (statement.variableCount + 2 - l))) := by
    intro v hv
    obtain ⟨l, -, rfl⟩ := List.mem_map.mp hv
    exact canonical_ofField _
  have hvalues := canonicalVector_preparedLayers sha256 statement proof
  simp only [verifyOpeningFullWrapper, bind_eq_ok, pure_eq_ok, arrayQ_eq_ok_iff,
    cUint64_of_canonical proof.canonical_claimedValue,
    cUint64_of_canonical proof.canonical_finalValue]
  constructor
  · rintro ⟨_, ⟨hrounds, rfl⟩, _, ⟨-, rfl⟩, _, ⟨-, rfl⟩, _, ⟨-, rfl⟩, _, ⟨-, rfl⟩, rfl⟩
    refine ⟨hrounds, ?_⟩
    rw [preparedArguments, List.map_map, List.map_map]
    rfl
  · rintro ⟨hrounds, rfl⟩
    refine ⟨_, ⟨hrounds, rfl⟩, _, ⟨canonicalVector_lt hpoint, rfl⟩, _,
      ⟨canonicalVector_lt hshifts, rfl⟩, _, ⟨canonicalVector_lt hgens, rfl⟩, _,
      ⟨canonicalVector_lt hvalues, rfl⟩, ?_⟩
    rw [preparedArguments, List.map_map, List.map_map]
    rfl

theorem mapM_fixedBytes32_eq_ok {roots : List Bytes} {name : String} {digests : List Digest} :
    roots.mapM (fixedBytes32 · name) = .ok digests ↔ roots = digests.map (·.bytes) := by
  rw [mapM_eq_ok]
  simp only [fixedBytes32_eq_ok]
  rw [← List.forall₂_map_right_iff (f := Digest.bytes), List.forall₂_eq_eq_eq]

theorem mapM_domainShift_eq_ok {layerShift : List ℤ} :
    (List.range statement.variableCount).mapM (domainShift sha256 statement) = .ok layerShift ↔
      ∃ shift, statement.baseShift sha256 = .ok shift ∧
        layerShift = (List.range statement.variableCount).map (shiftPow shift) := by
  constructor
  · intro h
    obtain ⟨m, hm⟩ := Nat.exists_eq_add_of_le' statement.one_le_variableCount
    have hfirst : ∃ first, domainShift sha256 statement 0 = .ok first := by
      rw [hm, List.range_succ_eq_map, List.mapM_cons, bind_eq_ok] at h
      obtain ⟨first, hfirst, -⟩ := h
      exact ⟨first, hfirst⟩
    simp only [domainShift, bind_eq_ok] at hfirst
    obtain ⟨-, shift, hshift, -⟩ := hfirst
    refine ⟨shift, hshift, ?_⟩
    have hmap : (List.range statement.variableCount).mapM (domainShift sha256 statement) =
        .ok ((List.range statement.variableCount).map (shiftPow shift)) :=
      mapM_eq_ok_map fun l _ => by rw [domainShift, hshift]; rfl
    exact Except.ok.inj (h.symm.trans hmap)
  · rintro ⟨shift, hshift, rfl⟩
    exact mapM_eq_ok_map fun l _ => by rw [domainShift, hshift]; rfl

theorem mapM_generators :
    ((List.range statement.variableCount).mapM fun i =>
        goldilocksPrincipalRootOfUnity (statement.codewordSize >>> i)) =
      .ok ((List.range statement.variableCount).map fun l =>
        ofField (rootOf (statement.variableCount + 2 - l))) := by
  have hcap := variableCount_add_two_le statement
  refine mapM_eq_ok_map fun l hl => ?_
  have hlt := List.mem_range.mp hl
  obtain ⟨root, hroot, hcanonical, hvalue⟩ := goldilocksPrincipalRootOfUnity_spec
    (show statement.variableCount + 2 - l ≤ 32 by omega)
  rw [codewordSize_shiftRight statement (by omega), hroot,
    hcanonical.ext (canonical_ofField _) (by rw [hvalue, intCast_ofField])]

theorem mapM_prepareLayer_eq_ok {layers : List PreparedLayer} :
    (proof.layerOpenings.zipIdx.mapM fun x => prepareLayer sha256 statement x.1 x.2) = .ok layers ↔
      (∀ l o, proof.layerOpenings[l]? = some o →
        o.opening.bindingDigest = statement.layerBindingDigest sha256 l ∧
          o.opening.leafCount = statement.codewordSize >>> l ∧ o.opening.leafWidth = 1) ∧
      layers = preparedLayers sha256 statement proof := by
  refine (mapM_eq_ok_of_iff fun a b => prepareLayer_eq_ok).trans (and_congr_left fun _ => ?_)
  constructor
  · intro h l o ho
    exact h (o, l) (List.mk_mem_zipIdx_iff_getElem?.mpr ho)
  · rintro h ⟨o, l⟩ hx
    exact h l o (List.mk_mem_zipIdx_iff_getElem?.mp hx)

theorem tryCompiledOpeningVerify_eq_ok (lib : Bool) {verified : Bool}
    (hpoint : CanonicalVector point)
    (hcommitments : proof.layerCommitments.length = statement.variableCount) :
    tryCompiledOpeningVerify sha256 statement lib proof commitment point transcript =
        .ok verified ↔
      ∃ shift, Preparable sha256 statement proof commitment shift ∧ verified = lib ∧
        (lib = true → (∀ v ∈ proof.roundPolynomials.flatMap roundValues, 0 ≤ v ∧ v < 2 ^ 64) ∧
          verifyOpeningFull sha256
            (preparedArguments sha256 statement proof commitment point transcript shift) = .ok ()) := by
  simp only [tryCompiledOpeningVerify, bind_eq_ok, raiseIf_eq_ok, fixedBytes32_eq_ok,
    mapM_fixedBytes32_eq_ok, mapM_domainShift_eq_ok, mapM_generators, mapM_prepareLayer_eq_ok,
    field_eq_ok, not_or, not_not, Except.ok.injEq]
  have hroots : ∀ (root : Digest) (layerRoots : List Digest), commitment = root.bytes →
      proof.layerCommitments = layerRoots.map (·.bytes) →
      root.bytes ++ layerRoots.flatMap (·.bytes) =
        (commitment :: proof.layerCommitments).flatten := by
    rintro root layerRoots rfl hlayers
    rw [hlayers, List.flatten_cons, List.flatMap_def]
  constructor
  · rintro ⟨-, ⟨hopenings, -⟩, root, hroot, layerRoots, hlayerRoots, _, ⟨shift, hshift, rfl⟩, _, rfl,
      _, ⟨hmetadata, rfl⟩, _, ⟨-, rfl⟩, hcall⟩
    rw [hroots root layerRoots hroot hlayerRoots] at hcall
    have hpreparable : Preparable sha256 statement proof commitment shift := by
      refine ⟨hopenings, ?_, hshift, hmetadata⟩
      rw [hroot, hlayerRoots]
      simp
    refine ⟨shift, hpreparable, ?_⟩
    cases lib with
    | false => exact ⟨(pure_eq_ok.mp hcall).symm, by simp⟩
    | true =>
      simp only [if_true, bind_eq_ok, verifyOpeningFullWrapper_eq_ok hpoint] at hcall
      obtain ⟨result, ⟨hwords, rfl⟩, hresult⟩ := hcall
      split at hresult
      · next hok => exact ⟨(pure_eq_ok.mp hresult).symm, fun _ => ⟨hwords, hok⟩⟩
      · cases hresult
  · rintro ⟨shift, hpreparable, rfl, hcall⟩
    obtain ⟨root, hroot⟩ : ∃ root : Digest, commitment = root.bytes :=
      ⟨⟨commitment, hpreparable.roots _ List.mem_cons_self⟩, rfl⟩
    obtain ⟨layerRoots, hlayerRoots⟩ : ∃ layerRoots : List Digest,
        proof.layerCommitments = layerRoots.map (·.bytes) := by
      refine ⟨proof.layerCommitments.attach.map fun x =>
        ⟨x.1, hpreparable.roots _ (List.mem_cons_of_mem _ x.2)⟩, ?_⟩
      rw [List.map_map]
      exact (List.attach_map_subtype_val _).symm
    refine ⟨(), ⟨hpreparable.length_openings, hcommitments⟩, root, hroot, layerRoots, hlayerRoots, _,
      ⟨shift, hpreparable.shift, rfl⟩, _, rfl, _, ⟨hpreparable.metadata, rfl⟩, _,
      ⟨proof.canonical_finalValue, rfl⟩, ?_⟩
    rw [hroots root layerRoots hroot hlayerRoots]
    cases verified with
    | false => rfl
    | true =>
      obtain ⟨hwords, hok⟩ := hcall rfl
      simp only [if_true, bind_eq_ok, verifyOpeningFullWrapper_eq_ok hpoint]
      refine ⟨_, ⟨hwords, rfl⟩, ?_⟩
      rw [hok]
      rfl

end TryCompiled

/-! ## What the library reads -/

section Reads

variable {sha256 : Bytes → Digest} {statement : GoldilocksMultilinearPcsStatementV3}
  {proof : GoldilocksMultilinearOpeningProofV3} {commitment : Bytes} (point : List ℤ)
  (transcript : Digest) {shift : ℤ} {l : ℕ} {o : ConstructedOpening}

theorem getElem?_preparedLayers (sha256 : Bytes → Digest)
    (statement : GoldilocksMultilinearPcsStatementV3) (ho : proof.layerOpenings[l]? = some o) :
    (preparedLayers sha256 statement proof)[l]? = some (preparedLayer sha256 statement o l) := by
  rw [preparedLayers, List.getElem?_map, List.getElem?_zipIdx, ho]
  simp

variable (sha256) (statement) (commitment) (shift) in
theorem layerIdx_prepared (ho : proof.layerOpenings[l]? = some o) :
    layerIdx (preparedArguments sha256 statement proof commitment point transcript shift) l =
        o.opening.indices ∧
      nLeaves (preparedArguments sha256 statement proof commitment point transcript shift) l =
        o.opening.indices.length :=
  slice_flatMap (fun layer : PreparedLayer => layer.indices) (getElem?_preparedLayers sha256 statement ho)

theorem map_zipIdx_fst {α β : Type} (f : α → β) (items : List α) :
    (items.zipIdx.map fun x => f x.1) = items.map f := by
  conv_rhs => rw [← List.zipIdx_map_fst 0 items, List.map_map]
  rfl

theorem slice_map {α β : Type} (f : α → β) (array : List α) (start count : ℕ) :
    slice (array.map f) start count = (slice array start count).map f := by
  rw [slice, slice, List.map_take, List.map_drop]

theorem length_values (hwidth : o.opening.leafWidth = 1) :
    o.opening.rows.flatten.length = o.opening.indices.length := by
  rw [flatten_rows hwidth, List.length_map]

theorem layerVal_prepared (hprepared : Preparable sha256 statement proof commitment shift)
    (ho : proof.layerOpenings[l]? = some o) :
    layerVal (preparedArguments sha256 statement proof commitment point transcript shift) l =
      o.opening.rows.flatten.map Int.toNat := by
  have hlengths : (preparedLayers sha256 statement proof).map (·.indices.length) =
      (preparedLayers sha256 statement proof).map fun layer => layer.values.length := by
    refine List.map_congr_left fun layer hlayer => ?_
    obtain ⟨⟨o', l'⟩, hmem, rfl⟩ := List.mem_map.mp hlayer
    exact (length_values
      (hprepared.metadata l' o' (List.mk_mem_zipIdx_iff_getElem?.mp hmem)).2.2).symm
  have hslice := (slice_flatMap (fun layer : PreparedLayer => layer.values)
    (getElem?_preparedLayers sha256 statement ho)).1
  rw [layerVal, nLeaves]
  simp only [preparedArguments]
  rw [slice_map, hlengths, hslice]
  rfl

variable (sha256) (statement) (commitment) (shift) in
theorem layerCoordinates_prepared (ho : proof.layerOpenings[l]? = some o) :
    layerCoordinates (preparedArguments sha256 statement proof commitment point transcript shift) l =
        o.opening.coordinates ∧
      nSib (preparedArguments sha256 statement proof commitment point transcript shift) l =
        o.opening.siblings.length := by
  have hlengths : (preparedLayers sha256 statement proof).map (·.siblingLevels.length) =
      (preparedLayers sha256 statement proof).map fun layer => layer.siblingIndices.length := by
    refine List.map_congr_left fun layer hlayer => ?_
    obtain ⟨⟨o', l'⟩, -, rfl⟩ := List.mem_map.mp hlayer
    simp [preparedLayer]
  obtain ⟨hlevels, hcount⟩ := slice_flatMap (fun layer : PreparedLayer => layer.siblingLevels)
    (getElem?_preparedLayers sha256 statement ho)
  have hindices := (slice_flatMap (fun layer : PreparedLayer => layer.siblingIndices)
    (getElem?_preparedLayers sha256 statement ho)).1
  rw [← hlengths] at hindices
  refine ⟨?_, ?_⟩
  · rw [layerCoordinates, nSib]
    simp only [preparedArguments]
    rw [hlevels, hindices]
    simp only [preparedLayer, GoldilocksMerkleMultiOpeningReference.coordinates]
    rw [List.zip_map']
  · rw [nSib]
    simp only [preparedArguments]
    rw [hcount, preparedLayer, List.length_map]

theorem digestAt_flatMap {digests : List Digest} {k : ℕ} {digest : Digest}
    (hk : digests[k]? = some digest) : digestAt (digests.flatMap (·.bytes)) (32 * k) = digest := by
  have hslice : slice (digests.flatMap (·.bytes)) (32 * k) 32 = digest.bytes := by
    rw [List.flatMap_def]
    refine slice_flatten (fun r hr => ?_) (by rw [List.getElem?_map, hk, Option.map_some])
    obtain ⟨d, -, rfl⟩ := List.mem_map.mp hr
    exact d.length_eq
  refine Digest.ext ?_
  change (slice (digests.flatMap Digest.bytes) (32 * k) 32 ++ List.replicate 32 0).take 32 = _
  rw [hslice, List.take_left' digest.length_eq]

variable (sha256) (statement) (commitment) (shift) in
theorem layerDigests_prepared (ho : proof.layerOpenings[l]? = some o) :
    layerDigests (preparedArguments sha256 statement proof commitment point transcript shift) l =
      o.opening.siblings.map (·.digest) := by
  -- all digests, before they are joined to bytes
  set allDigests := proof.layerOpenings.flatMap fun o' => o'.opening.siblings.map (·.digest)
    with hall
  have hbytes : (preparedArguments sha256 statement proof commitment point transcript
      shift).allSibDig = allDigests.flatMap (·.bytes) := by
    simp only [preparedArguments, preparedLayers, hall, List.flatMap_assoc, List.flatMap_map,
      preparedLayer]
    rw [← List.flatMap_map (fun x : ConstructedOpening × ℕ => x.1)
      (fun o' => o'.opening.siblings.flatMap fun node => node.digest.bytes),
      List.zipIdx_map_fst]
  have hoffsets : (preparedArguments sha256 statement proof commitment point transcript
      shift).sibOff = offsets (proof.layerOpenings.map fun o' =>
        (o'.opening.siblings.map (·.digest)).length) := by
    simp only [preparedArguments, preparedLayers, List.map_map, Function.comp_def, preparedLayer,
      List.length_map]
    rw [map_zipIdx_fst fun o' : ConstructedOpening => o'.opening.siblings.length]
  obtain ⟨hslice, hcount⟩ := slice_flatMap (fun o' : ConstructedOpening =>
    o'.opening.siblings.map (·.digest)) ho
  rw [layerDigests, nSib, hoffsets, hbytes, hcount, List.length_map]
  rw [hcount, ← hall, List.length_map] at hslice
  refine List.ext_getElem? fun i => ?_
  rw [List.getElem?_map]
  rcases Nat.lt_or_ge i o.opening.siblings.length with hi | hi
  · rw [List.getElem?_range hi, Option.map_some, ← Nat.mul_add]
    have hentry : allDigests[(offsets (proof.layerOpenings.map fun o' =>
        (o'.opening.siblings.map (·.digest)).length)).getD l 0 + i]? =
        (o.opening.siblings.map (·.digest))[i]? := by
      rw [← hslice, slice, List.getElem?_take_of_lt hi, List.getElem?_drop]
    obtain ⟨digest, hdigest⟩ : ∃ digest, (o.opening.siblings.map (·.digest))[i]? = some digest :=
      ⟨_, List.getElem?_eq_getElem (by rwa [List.length_map])⟩
    rw [hdigest] at hentry ⊢
    rw [digestAt_flatMap hentry]
  · rw [List.getElem?_eq_none (by simpa using hi), List.getElem?_eq_none (by simpa using hi),
      Option.map_none]

theorem slice_prefixes {part : PreparedLayer → Bytes}
    (hpart : ∀ o' l', (part (preparedLayer sha256 statement o' l')).length = 90)
    (ho : proof.layerOpenings[l]? = some o) :
    slice ((preparedLayers sha256 statement proof).flatMap part) (90 * l) 90 =
      part (preparedLayer sha256 statement o l) := by
  rw [List.flatMap_def]
  refine slice_flatten (fun r hr => ?_) ?_
  · obtain ⟨layer, hlayer, rfl⟩ := List.mem_map.mp hr
    obtain ⟨⟨o', l'⟩, -, rfl⟩ := List.mem_map.mp hlayer
    exact hpart o' l'
  · rw [List.getElem?_map, getElem?_preparedLayers sha256 statement ho, Option.map_some]

theorem length_layerHeader (l' : ℕ) : (layerHeader sha256 statement l').length = 40 := by
  simp [layerHeader, treeHeader, packI]

variable (sha256) (statement) (commitment) (shift) in
theorem prefixes_prepared (ho : proof.layerOpenings[l]? = some o) :
    slice (preparedArguments sha256 statement proof commitment point transcript shift).leafPrefixes
        (90 * l) 90 = leafDomain ++ layerHeader sha256 statement l ∧
      slice (preparedArguments sha256 statement proof commitment point transcript
        shift).nodePrefixes (90 * l) 90 = nodeDomain ++ layerHeader sha256 statement l ∧
      slice (preparedArguments sha256 statement proof commitment point transcript
        shift).rootPrefixes (90 * l) 90 = rootDomain ++ layerHeader sha256 statement l := by
  have hdomains : leafDomain.length = 50 ∧ nodeDomain.length = 50 ∧ rootDomain.length = 50 := by
    decide
  obtain ⟨hleaf, hnode, hroot⟩ := hdomains
  exact ⟨slice_prefixes (fun o' l' => by simp [preparedLayer, hleaf, length_layerHeader]) ho,
    slice_prefixes (fun o' l' => by simp [preparedLayer, hnode, length_layerHeader]) ho,
    slice_prefixes (fun o' l' => by simp [preparedLayer, hroot, length_layerHeader]) ho⟩

theorem roots_prepared (hprepared : Preparable sha256 statement proof commitment shift) {root : Bytes}
    (hroot : (commitment :: proof.layerCommitments)[l]? = some root) :
    slice (preparedArguments sha256 statement proof commitment point transcript shift).roots
      (32 * l) 32 = root :=
  slice_flatten hprepared.roots hroot

theorem rounds_prepared (sha256 : Bytes → Digest) (statement : GoldilocksMultilinearPcsStatementV3)
    (commitment : Bytes) (point : List ℤ) (transcript : Digest) (shift : ℤ) {r : ℕ} {g : Round} (hg : proof.roundPolynomials[r]? = some g) :
    (preparedArguments sha256 statement proof commitment point transcript shift).rounds.getD
        (3 * r) 0 = g.1.toNat ∧
      (preparedArguments sha256 statement proof commitment point transcript shift).rounds.getD
        (3 * r + 1) 0 = g.2.1.toNat ∧
      (preparedArguments sha256 statement proof commitment point transcript shift).rounds.getD
        (3 * r + 2) 0 = g.2.2.toNat := by
  have hentry : ∀ j < 3, (proof.roundPolynomials.flatMap roundValues)[3 * r + j]? =
      (roundValues g)[j]? := fun j hj =>
    getElem?_flatMap_of_width (show ∀ g', (roundValues g').length = 3 from fun _ => rfl) hg hj
  simp only [preparedArguments, List.getD_eq_getElem?_getD, List.getElem?_map]
  have h0 := hentry 0 (by norm_num)
  have h1 := hentry 1 (by norm_num)
  have h2 := hentry 2 (by norm_num)
  rw [Nat.add_zero] at h0
  rw [h0, h1, h2]
  exact ⟨rfl, rfl, rfl⟩

end Reads

end Verathos.Pcs
