import Verathos.Pcs.Sumcheck
import Verathos.SuccinctFold.Defs

/-!
# The wire format of a fold proof

A translation of `encode_goldilocks_succinct_fold_proof_v3` and
`decode_goldilocks_succinct_fold_proof_v3`. The offset of `_Reader` is the input that is left from it
on.

* `OnWire` is what the decoder asks of a proof beyond the constructors: canonical round values,
  roots of 32 bytes and counts within its limits;
* `encode_eq_ok`: such a proof is encoded as `proofBytes` says;
* `decode_eq_ok`: the decoder returns a proof exactly from these bytes, and only such a proof.
-/

namespace Verathos.SuccinctFold

open ByteReader Merkle Pcs Wire

def wireMagic : Bytes := asciiBytes "V3SF"

def wireVersion : ℕ := 1

/-! ## Encoding -/

/-- `value.to_bytes(8, "little")`. -/
def toBytes8 (value : ℤ) : Result Bytes := do
  raiseIf (value < 0 ∨ 256 ^ 8 ≤ value) (.builtin "OverflowError")
  return LittleEndian.toBytes 8 value.toNat

/-- A list behind its number of items, `struct.pack("<I", len(items))` and the items in turn. -/
def encodeCounted {α : Type} (encode : α → Result Bytes) (items : List α) : Result Bytes := do
  let count ← packUnsigned 4 items.length
  let parts ← items.mapM encode
  return count ++ parts.flatten

/-- One sibling of `_encode_opening`. -/
def encodeSibling (sibling : GoldilocksMerkleSiblingReference) : Result Bytes := do
  let level ← packUnsigned 4 sibling.level
  let index ← packUnsigned 4 sibling.index
  return level ++ (index ++ sibling.digest.bytes)

def encodeOpening (opening : GoldilocksMerkleMultiOpeningReference) : Result Bytes := do
  let leafCount ← packUnsigned 8 opening.leafCount
  let leafWidth ← packUnsigned 4 opening.leafWidth
  let indexCount ← packUnsigned 4 opening.indices.length
  let indices ← opening.indices.mapM fun (index : ℕ) => packUnsigned 8 index
  let rows ← opening.rows.mapM fun row => do
    let values ← row.mapM toBytes8
    return values.flatten
  let siblings ← encodeCounted encodeSibling opening.siblings
  return opening.bindingDigest.bytes ++ (leafCount ++ (leafWidth ++ (indexCount ++
    (indices.flatten ++ (rows.flatten ++ siblings)))))

/-- `g0.to_bytes(8, "little") + g1.to_bytes(8, "little") + g2.to_bytes(8, "little")`. -/
def encodeRound (g : Round) : Result Bytes := do
  let g0 ← toBytes8 g.1
  let g1 ← toBytes8 g.2.1
  let g2 ← toBytes8 g.2.2
  return g0 ++ (g1 ++ g2)

/-- A layer opening with its length. -/
def encodeLayerOpening (o : ConstructedOpening) : Result Bytes := do
  let encoded ← encodeOpening o.opening
  let length ← packUnsigned 4 encoded.length
  return length ++ encoded

def encodeGoldilocksSuccinctFoldProofV3 (proof : GoldilocksSuccinctFoldProofV3) : Result Bytes := do
  let version ← packUnsigned 2 wireVersion
  let claimed ← toBytes8 proof.claimedSum
  let outerRounds ← encodeCounted encodeRound proof.outerRounds
  let opening := proof.opening
  let openingClaimed ← toBytes8 opening.claimedValue
  let pcsRounds ← encodeCounted encodeRound opening.roundPolynomials
  let layerRoots ← encodeCounted Except.ok opening.layerCommitments
  let finalValue ← toBytes8 opening.finalValue
  let layerOpenings ← encodeCounted encodeLayerOpening opening.layerOpenings
  return wireMagic ++ (version ++ (claimed ++ (outerRounds ++ (openingClaimed ++ (pcsRounds ++
    (layerRoots ++ (finalValue ++ layerOpenings)))))))

/-! ## Decoding -/

/-- The exception of `take`. -/
def truncated : PyError := .proofV3Error "succinct-fold wire payload is truncated"

def take (count : ℕ) : Reader PyError Bytes := exactly truncated count

def u32 : Reader PyError ℕ := unsigned truncated 4

def u64 : Reader PyError ℕ := unsigned truncated 8

/-- `field`. -/
def readField : Reader PyError ℤ := do
  let value ← u64
  liftM (raiseIf (value ≥ goldilocksModulus)
    (.proofV3Error "succinct-fold wire field is not canonical"))
  return value

/-- A list behind its number of items, which a limit bounds. -/
def decodeCounted {α : Type} (limit : ℕ) (message : String) (decode : Reader PyError α) :
    Reader PyError (List α) := do
  let count ← u32
  liftM (raiseIf (count > limit) (.proofV3Error message))
  times decode count

/-- One sibling of `_decode_opening`, through its constructor. -/
def decodeSibling : Reader PyError GoldilocksMerkleSiblingReference := do
  let level ← u32
  let index ← u32
  let digest ← take 32
  let digest ← liftM (fixedBytes32 digest "Merkle sibling digest")
  liftM (GoldilocksMerkleSiblingReference.postInit ⟨level, index, digest⟩)

def decodeOpening (lib : Bool) : Reader PyError ConstructedOpening := do
  let binding ← take 32
  let leafCount ← u64
  let leafWidth ← u32
  let count ← u32
  liftM (raiseIf (count > 1 <<< 16 ∨ leafWidth > 1 <<< 12)
    (.proofV3Error "succinct-fold wire opening is out of range"))
  let indices ← times u64 count
  let rows ← times (times readField leafWidth) count
  let siblings ← decodeCounted (1 <<< 20) "succinct-fold wire sibling count is out of range"
    decodeSibling
  let bindingDigest ← liftM (fixedBytes32 binding "Merkle binding_digest")
  liftM (constructOpening lib { bindingDigest, leafCount, leafWidth, indices, rows, siblings })

/-- One round. -/
def decodeRound : Reader PyError Round := do
  let g0 ← readField
  let g1 ← readField
  let g2 ← readField
  return (g0, g1, g2)

/-- One layer opening, in a reader of its own. -/
def decodeLayerOpening (lib : Bool) : Reader PyError ConstructedOpening := do
  let length ← u32
  let data ← take length
  let (opening, left) ← liftM ((decodeOpening lib).run data)
  liftM (raiseIf (left ≠ []) (.proofV3Error "succinct-fold wire opening has trailing bytes"))
  return opening

/-- The body of `decode_goldilocks_succinct_fold_proof_v3`. -/
def decodeProof (lib : Bool) : Reader PyError GoldilocksSuccinctFoldProofV3 := do
  let magic ← take 4
  liftM (raiseIf (magic ≠ wireMagic) (.proofV3Error "succinct-fold wire magic is unknown"))
  let version ← unsigned truncated 2
  liftM (raiseIf (version ≠ wireVersion)
    (.proofV3Error "succinct-fold wire version is unsupported"))
  let claimed ← readField
  let outerRounds ← decodeCounted 64 "succinct-fold wire round count is out of range" decodeRound
  let openingClaimed ← readField
  let pcsRounds ← decodeCounted 64 "succinct-fold wire PCS round count is out of range" decodeRound
  let layerRoots ← decodeCounted 64 "succinct-fold wire layer count is out of range" (take 32)
  let finalValue ← readField
  let layerOpenings ← decodeCounted 65 "succinct-fold wire opening count is out of range"
    (decodeLayerOpening lib)
  finished (.proofV3Error "succinct-fold wire payload has trailing bytes")
  let opening ← liftM (GoldilocksMultilinearOpeningProofV3.postInit openingClaimed pcsRounds
    layerRoots finalValue layerOpenings)
  return ⟨claimed, outerRounds, opening⟩

def decodeGoldilocksSuccinctFoldProofV3 (lib : Bool) (payload : Bytes) :
    Result GoldilocksSuccinctFoldProofV3 := do
  let (proof, _) ← (decodeProof lib).run payload
  return proof

/-! ## Fields and rounds -/

theorem toBytes8_of_canonical {value : ℤ} (h : Canonical value) :
    toBytes8 value = .ok (fieldBytes value) := by
  have hmod : (goldilocksModulus : ℤ) ≤ 256 ^ 8 := by norm_num [goldilocksModulus_eq]
  simp only [toBytes8, bind_eq_ok, raiseIf_eq_ok, pure_eq_ok]
  exact ⟨(), not_or.mpr ⟨not_lt.mpr h.1, not_le.mpr (h.2.trans_le hmod)⟩, rfl⟩

theorem inverts_readField : Inverts readField Canonical fieldBytes := by
  intro input value rest
  have hmod : goldilocksModulus ≤ 256 ^ 8 := by norm_num [goldilocksModulus_eq]
  simp only [readField, u64, run_bind_eq_ok, run_unsigned_eq_ok, run_lift_eq_ok, raiseIf_eq_ok,
    run_pure_eq_ok, not_le]
  constructor
  · rintro ⟨n, left, ⟨-, rfl⟩, -, _, ⟨hlt, rfl⟩, rfl, rfl⟩
    exact ⟨⟨Int.natCast_nonneg _, Int.ofNat_lt.mpr hlt⟩, rfl⟩
  · rintro ⟨hvalue, rfl⟩
    have hlt : value.toNat < goldilocksModulus := (Int.toNat_lt hvalue.1).mpr hvalue.2
    exact ⟨value.toNat, rest, ⟨hlt.trans_le hmod, rfl⟩, (), rest, ⟨hlt, rfl⟩,
      Int.toNat_of_nonneg hvalue.1, rfl⟩

/-- The layout of a counted list. -/
def countedBytes {α : Type} (write : α → Bytes) (items : List α) : Bytes :=
  LittleEndian.toBytes 4 items.length ++ items.flatMap write

theorem encodeCounted_eq_ok {α : Type} {encode : α → Result Bytes} {write : α → Bytes}
    {items : List α} (hcount : items.length < 2 ^ 32)
    (hitems : ∀ item ∈ items, encode item = .ok (write item)) :
    encodeCounted encode items = .ok (countedBytes write items) := by
  simp only [encodeCounted, bind_eq_ok, packUnsigned_natCast_eq_ok, pure_eq_ok]
  refine ⟨_, ⟨hcount, rfl⟩, _, mapM_eq_ok_map hitems, ?_⟩
  rw [countedBytes, List.flatMap_def]

theorem inverts_decodeCounted {α : Type} {decode : Reader PyError α} {valid : α → Prop}
    {write : α → Bytes} (h : Inverts decode valid write) {limit : ℕ} (hlimit : limit < 2 ^ 32)
    (message : String) :
    Inverts (decodeCounted limit message decode)
      (fun items => items.length ≤ limit ∧ ∀ item ∈ items, valid item) (countedBytes write) := by
  intro input items rest
  simp only [decodeCounted, u32, run_bind_eq_ok, run_unsigned_eq_ok, run_lift_eq_ok, raiseIf_eq_ok,
    h.times _ _ _ _, not_lt]
  constructor
  · rintro ⟨count, _, ⟨-, rfl⟩, -, _, ⟨hcount, rfl⟩, ⟨rfl, hitems⟩, rfl⟩
    exact ⟨⟨hcount, hitems⟩, (List.append_assoc _ _ _).symm⟩
  · rintro ⟨⟨hcount, hitems⟩, rfl⟩
    exact ⟨items.length, _, ⟨hcount.trans_lt hlimit, List.append_assoc _ _ _⟩, (), _, ⟨hcount, rfl⟩,
      ⟨rfl, hitems⟩, rfl⟩

theorem encodeRound_of_canonical {g : Round} (h : g.IsCanonical) :
    encodeRound g = .ok (roundBytes g) := by
  simp only [encodeRound, toBytes8_of_canonical h.1, toBytes8_of_canonical h.2.1,
    toBytes8_of_canonical h.2.2]
  rfl

theorem inverts_decodeRound : Inverts decodeRound Round.IsCanonical roundBytes := by
  intro input g rest
  simp only [decodeRound, run_bind_eq_ok, inverts_readField _ _ _, run_pure_eq_ok]
  constructor
  · rintro ⟨g0, _, ⟨h0, rfl⟩, g1, _, ⟨h1, rfl⟩, g2, _, ⟨h2, rfl⟩, rfl, rfl⟩
    refine ⟨⟨h0, h1, h2⟩, ?_⟩
    simp only [roundBytes, fieldBytes, List.append_assoc]
  · rintro ⟨⟨h0, h1, h2⟩, rfl⟩
    refine ⟨_, _, ⟨h0, ?_⟩, _, _, ⟨h1, rfl⟩, _, _, ⟨h2, rfl⟩, rfl, rfl⟩
    simp only [roundBytes, fieldBytes, List.append_assoc]

/-! ## Layer openings -/

/-- The layout of a sibling. -/
def siblingBytes (sibling : GoldilocksMerkleSiblingReference) : Bytes :=
  LittleEndian.toBytes 4 sibling.level ++ (LittleEndian.toBytes 4 sibling.index ++
    sibling.digest.bytes)

theorem inverts_decodeSibling :
    Inverts decodeSibling (fun sibling => sibling.level < 2 ^ 32 ∧ sibling.index < 2 ^ 32)
      siblingBytes := by
  intro input sibling rest
  have hwidth : (256 : ℕ) ^ 4 = 2 ^ 32 := by norm_num
  simp only [decodeSibling, u32, take, run_bind_eq_ok, run_unsigned_eq_ok, run_exactly_eq_ok,
    run_lift_eq_ok, fixedBytes32_eq_ok, GoldilocksMerkleSiblingReference.postInit, bind_eq_ok,
    raiseIf_eq_ok, pure_eq_ok, hwidth, not_le]
  constructor
  · rintro ⟨level, _, ⟨hlevel, rfl⟩, index, _, ⟨hindex, rfl⟩, _, _, ⟨-, rfl⟩, digest, _, ⟨rfl, rfl⟩,
      ⟨-, -, -, -, rfl⟩, rfl⟩
    refine ⟨⟨hlevel, hindex⟩, ?_⟩
    simp only [siblingBytes, List.append_assoc]
  · rintro ⟨⟨hlevel, hindex⟩, rfl⟩
    refine ⟨_, _, ⟨hlevel, ?_⟩, _, _, ⟨hindex, rfl⟩, _, _, ⟨sibling.digest.length_eq, rfl⟩,
      sibling.digest, _, ⟨rfl, rfl⟩, ⟨(), hlevel, (), hindex, rfl⟩, rfl⟩
    simp only [siblingBytes, List.append_assoc]

/-- The layout of a layer opening, without its length. -/
def openingBytes (opening : GoldilocksMerkleMultiOpeningReference) : Bytes :=
  opening.bindingDigest.bytes ++ (LittleEndian.toBytes 8 opening.leafCount ++
    (LittleEndian.toBytes 4 opening.leafWidth ++
      (LittleEndian.toBytes 4 opening.indices.length ++
        (opening.indices.flatMap (LittleEndian.toBytes 8) ++
          (opening.rows.flatMap (·.flatMap fieldBytes) ++
            countedBytes siblingBytes opening.siblings)))))

variable (o : ConstructedOpening)

theorem fits_of_admitted :
    o.opening.leafCount < 2 ^ 64 ∧ o.opening.leafWidth ≤ 2 ^ 12 ∧
      (∀ index ∈ o.opening.indices, index < 2 ^ 64) ∧ o.opening.siblings.length ≤ 2 ^ 16 ∧
      ∀ sibling ∈ o.opening.siblings, sibling.level < 2 ^ 32 ∧ sibling.index < 2 ^ 32 := by
  obtain ⟨hcount, hindices⟩ := index_lt_of_admitted o.admitted
  refine ⟨by omega, o.admitted.leafWidth.2, fun index hindex => ?_, o.admitted.siblings,
    fun sibling hsibling => ?_⟩
  · exact (hindices index hindex).trans (by norm_num)
  · obtain ⟨hlevel, hindex⟩ := lt_of_mem_siblings o.admitted hsibling
    exact ⟨by omega, hindex⟩

theorem length_openingBytes_lt (h : o.opening.indices.length ≤ 2 ^ 16) :
    (openingBytes o.opening).length < 2 ^ 32 := by
  obtain ⟨-, hwidth, -, hsiblings, -⟩ := fits_of_admitted o
  have hindices : (o.opening.indices.flatMap (LittleEndian.toBytes 8)).length =
      8 * o.opening.indices.length :=
    LittleEndian.length_flatMap_of_length fun index _ => LittleEndian.length_toBytes 8 index
  have hrow : ∀ row ∈ o.opening.rows, (row.flatMap fieldBytes).length = 8 * o.opening.leafWidth := by
    intro row hrow
    rw [LittleEndian.length_flatMap_of_length fun value _ =>
      LittleEndian.length_toBytes 8 value.toNat, (o.isRow_of_mem hrow).1]
  have hrows := LittleEndian.length_flatMap_of_length hrow
  have hnodes : (o.opening.siblings.flatMap siblingBytes).length = 40 * o.opening.siblings.length :=
    LittleEndian.length_flatMap_of_length fun sibling _ => by simp [siblingBytes]
  simp only [openingBytes, countedBytes, List.length_append, Digest.length_eq,
    LittleEndian.length_toBytes, hindices, hrows, hnodes, o.length_rows]
  have hproduct : 8 * o.opening.leafWidth * o.opening.indices.length ≤ 8 * 2 ^ 12 * 2 ^ 16 :=
    Nat.mul_le_mul (Nat.mul_le_mul_left 8 hwidth) h
  omega

theorem encodeOpening_of_admitted (h : o.opening.indices.length ≤ 2 ^ 16) :
    encodeOpening o.opening = .ok (openingBytes o.opening) := by
  obtain ⟨hcount, hwidth, hindices, hsiblings, hnodes⟩ := fits_of_admitted o
  have hrow : ∀ row ∈ o.opening.rows, (do
      let values ← row.mapM toBytes8
      return values.flatten : Result Bytes) = .ok (row.flatMap fieldBytes) := by
    intro row hrow
    rw [mapM_eq_ok_map fun value hvalue =>
      toBytes8_of_canonical ((o.isRow_of_mem hrow).2 value hvalue)]
    rfl
  have hnode : ∀ sibling ∈ o.opening.siblings,
      encodeSibling sibling = .ok (siblingBytes sibling) := by
    intro sibling hsibling
    obtain ⟨hlevel, hindex⟩ := hnodes sibling hsibling
    simp only [encodeSibling, bind_eq_ok, packUnsigned_natCast_eq_ok, pure_eq_ok]
    exact ⟨_, ⟨hlevel, rfl⟩, _, ⟨hindex, rfl⟩, rfl⟩
  simp only [encodeOpening, bind_eq_ok, packUnsigned_natCast_eq_ok, pure_eq_ok]
  refine ⟨_, ⟨hcount, rfl⟩, _, ⟨by omega, rfl⟩, _, ⟨by omega, rfl⟩, _,
    mapM_eq_ok_map fun index hindex => packUnsigned_natCast_eq_ok.mpr ⟨hindices index hindex, rfl⟩,
    _, mapM_eq_ok_map hrow, _, encodeCounted_eq_ok (by omega) hnode, ?_⟩
  simp only [← List.flatMap_def]
  rfl

variable (lib : Bool)

theorem inverts_decodeOpening :
    Inverts (decodeOpening lib) (fun o => o.opening.indices.length ≤ 2 ^ 16)
      fun o => openingBytes o.opening := by
  intro input o rest
  simp only [decodeOpening, u64, u32, take, run_bind_eq_ok, run_unsigned_eq_ok, run_exactly_eq_ok,
    run_lift_eq_ok, raiseIf_eq_ok, fixedBytes32_eq_ok, constructOpening_eq_ok,
    (inverts_unsigned _ _).times _ _ _ _, (inverts_readField.times _).times _ _ _ _,
    inverts_decodeCounted inverts_decodeSibling (show 1 <<< 20 < 2 ^ 32 by decide) _ _ _ _,
    not_or, not_lt]
  constructor
  · rintro ⟨binding, _, ⟨-, rfl⟩, leafCount, _, ⟨-, rfl⟩, leafWidth, _, ⟨-, rfl⟩, count, _, ⟨-, rfl⟩,
      -, _, ⟨⟨hcount, -⟩, rfl⟩, indices, _, ⟨⟨rfl, -⟩, rfl⟩, rows, _, ⟨-, rfl⟩, siblings, _,
      ⟨-, rfl⟩, digest, _, ⟨rfl, rfl⟩, hopening, rfl⟩
    rw [hopening]
    refine ⟨by simpa using hcount, ?_⟩
    simp only [openingBytes, List.append_assoc]
  · rintro ⟨hlength, rfl⟩
    obtain ⟨hcount, hwidth, hindices, hsiblings, hnodes⟩ := fits_of_admitted o
    have hrows : ∀ row ∈ o.opening.rows,
        row.length = o.opening.leafWidth ∧ ∀ value ∈ row, Canonical value :=
      fun row hrow => o.isRow_of_mem hrow
    refine ⟨_, _, ⟨o.opening.bindingDigest.length_eq, ?_⟩, o.opening.leafCount, _,
      ⟨hcount, rfl⟩, o.opening.leafWidth, _, ⟨by omega, rfl⟩, o.opening.indices.length, _,
      ⟨by omega, rfl⟩, (), _, ⟨⟨by simpa using hlength, by simpa using hwidth⟩, rfl⟩,
      o.opening.indices, _, ⟨⟨rfl, hindices⟩, rfl⟩, o.opening.rows, _,
      ⟨⟨o.length_rows, hrows⟩, rfl⟩, o.opening.siblings, _,
      ⟨⟨hsiblings.trans (by decide), hnodes⟩, rfl⟩, o.opening.bindingDigest, _, ⟨rfl, rfl⟩, ?_, rfl⟩
    · simp only [openingBytes, List.append_assoc]
    · rw [← o.admitted.abi]

/-- The layout of a layer opening with its length. -/
def layerOpeningBytes (o : ConstructedOpening) : Bytes :=
  LittleEndian.toBytes 4 (openingBytes o.opening).length ++ openingBytes o.opening

theorem encodeLayerOpening_of_admitted (h : o.opening.indices.length ≤ 2 ^ 16) :
    encodeLayerOpening o = .ok (layerOpeningBytes o) := by
  simp only [encodeLayerOpening, bind_eq_ok, packUnsigned_natCast_eq_ok, pure_eq_ok]
  exact ⟨_, encodeOpening_of_admitted o h, _, ⟨length_openingBytes_lt o h, rfl⟩, rfl⟩

theorem inverts_decodeLayerOpening :
    Inverts (decodeLayerOpening lib) (fun o => o.opening.indices.length ≤ 2 ^ 16)
      layerOpeningBytes := by
  intro input o rest
  simp only [decodeLayerOpening, u32, take, run_bind_eq_ok, run_unsigned_eq_ok, run_exactly_eq_ok,
    run_lift_eq_ok, raiseIf_eq_ok, run_pure_eq_ok, not_not]
  constructor
  · rintro ⟨length, _, ⟨-, rfl⟩, data, _, ⟨rfl, rfl⟩, ⟨opening, left⟩, _, ⟨hrun, rfl⟩, -, _,
      ⟨hleft, rfl⟩, rfl, rfl⟩
    obtain ⟨hlength, rfl⟩ := (inverts_decodeOpening lib _ _ _).mp hrun
    obtain rfl : left = [] := hleft
    refine ⟨hlength, ?_⟩
    simp only [layerOpeningBytes, List.append_nil, List.append_assoc]
  · rintro ⟨hlength, rfl⟩
    have hrun : (decodeOpening lib).run (openingBytes o.opening) = .ok (o, []) :=
      (inverts_decodeOpening lib _ _ _).mpr ⟨hlength, (List.append_nil _).symm⟩
    refine ⟨_, _, ⟨length_openingBytes_lt o hlength, ?_⟩, _, rest, ⟨rfl, rfl⟩, (o, []), rest,
      ⟨hrun, rfl⟩, (), rest, ⟨rfl, rfl⟩, rfl, rfl⟩
    simp only [layerOpeningBytes, List.append_assoc]

/-! ## Proofs -/

/-- What the decoder asks of a proof beyond the constructors. -/
structure OnWire (proof : GoldilocksSuccinctFoldProofV3) : Prop where
  claimedSum : Canonical proof.claimedSum
  length_outerRounds : proof.outerRounds.length ≤ 64
  outerRounds : ∀ g ∈ proof.outerRounds, g.IsCanonical
  length_roundPolynomials : proof.opening.roundPolynomials.length ≤ 64
  roundPolynomials : ∀ g ∈ proof.opening.roundPolynomials, g.IsCanonical
  layerCommitments : ∀ root ∈ proof.opening.layerCommitments, root.length = 32
  length_layerOpenings : proof.opening.layerOpenings.length ≤ 65
  layerOpenings : ∀ o ∈ proof.opening.layerOpenings, o.opening.indices.length ≤ 2 ^ 16

/-- The layout of a proof. -/
def proofBytes (proof : GoldilocksSuccinctFoldProofV3) : Bytes :=
  wireMagic ++ (LittleEndian.toBytes 2 wireVersion ++ (fieldBytes proof.claimedSum ++
    (countedBytes roundBytes proof.outerRounds ++ (fieldBytes proof.opening.claimedValue ++
      (countedBytes roundBytes proof.opening.roundPolynomials ++
        (countedBytes id proof.opening.layerCommitments ++ (fieldBytes proof.opening.finalValue ++
          countedBytes layerOpeningBytes proof.opening.layerOpenings)))))))

variable {proof : GoldilocksSuccinctFoldProofV3}

theorem encode_eq_ok (h : OnWire proof) :
    encodeGoldilocksSuccinctFoldProofV3 proof = .ok (proofBytes proof) := by
  have hrounds := h.length_outerRounds
  have hpcs := h.length_roundPolynomials
  have hlayers := proof.opening.length_layerCommitments
  have hopenings := h.length_layerOpenings
  have hversion : packUnsigned 2 (wireVersion : ℕ) = .ok (LittleEndian.toBytes 2 wireVersion) :=
    packUnsigned_natCast_eq_ok.mpr ⟨by norm_num [wireVersion], rfl⟩
  simp only [encodeGoldilocksSuccinctFoldProofV3, bind_eq_ok, pure_eq_ok]
  exact ⟨_, hversion, _, toBytes8_of_canonical h.claimedSum, _,
    encodeCounted_eq_ok (by omega) fun g hg => encodeRound_of_canonical (h.outerRounds g hg), _,
    toBytes8_of_canonical proof.opening.canonical_claimedValue, _,
    encodeCounted_eq_ok (by omega) fun g hg => encodeRound_of_canonical (h.roundPolynomials g hg), _,
    encodeCounted_eq_ok (by omega) fun _ _ => rfl, _,
    toBytes8_of_canonical proof.opening.canonical_finalValue, _,
    encodeCounted_eq_ok (by omega) fun o ho =>
      encodeLayerOpening_of_admitted o (h.layerOpenings o ho), rfl⟩

theorem postInit_eq_ok {claimedValue finalValue : ℤ} {roundPolynomials : List Round}
    {layerCommitments : List Bytes} {layerOpenings : List ConstructedOpening}
    {opening : GoldilocksMultilinearOpeningProofV3} :
    GoldilocksMultilinearOpeningProofV3.postInit claimedValue roundPolynomials layerCommitments
        finalValue layerOpenings = .ok opening ↔
      opening.claimedValue = claimedValue ∧ opening.roundPolynomials = roundPolynomials ∧
        opening.layerCommitments = layerCommitments ∧ opening.finalValue = finalValue ∧
        opening.layerOpenings = layerOpenings := by
  unfold GoldilocksMultilinearOpeningProofV3.postInit
  constructor
  · intro h
    split_ifs at h
    obtain rfl := Except.ok.inj h
    exact ⟨rfl, rfl, rfl, rfl, rfl⟩
  · rintro ⟨rfl, rfl, rfl, rfl, rfl⟩
    rw [dif_neg (not_not.mpr opening.canonical_claimedValue),
      dif_neg (not_not.mpr opening.canonical_finalValue),
      dif_neg (not_not.mpr opening.length_layerCommitments)]

/-- The decoder returns a proof exactly from the bytes of its layout. -/
theorem run_decodeProof_eq_ok {payload : Bytes} {rest : Bytes} :
    (decodeProof lib).run payload = .ok (proof, rest) ↔
      OnWire proof ∧ payload = proofBytes proof ∧ rest = [] := by
  have h64 : 64 < 2 ^ 32 := by norm_num
  have h65 : 65 < 2 ^ 32 := by norm_num
  simp only [decodeProof, take, run_bind_eq_ok, run_unsigned_eq_ok, run_exactly_eq_ok,
    run_lift_eq_ok, raiseIf_eq_ok, run_pure_eq_ok, run_finished_eq_ok, inverts_readField _ _ _,
    inverts_decodeCounted inverts_decodeRound h64 _ _ _ _,
    inverts_decodeCounted (inverts_exactly truncated 32) h64 _ _ _ _,
    inverts_decodeCounted (inverts_decodeLayerOpening lib) h65 _ _ _ _, not_not]
  constructor
  · rintro ⟨magic, _, ⟨-, rfl⟩, -, _, ⟨rfl, rfl⟩, version, _, ⟨-, rfl⟩, -, _, ⟨rfl, rfl⟩, claimed, _,
      ⟨hclaimed, rfl⟩, outerRounds, _, ⟨⟨hrounds, houter⟩, rfl⟩, openingClaimed, _, ⟨-, rfl⟩,
      pcsRounds, _, ⟨⟨hpcs, hpcsRounds⟩, rfl⟩, roots, _, ⟨⟨-, hroots⟩, rfl⟩, finalValue, _, ⟨-, rfl⟩,
      openings, _, ⟨⟨hopenings, hlayers⟩, rfl⟩, -, _, ⟨rfl, rfl⟩, opening, _, ⟨hopening, rfl⟩, rfl,
      rfl⟩
    obtain ⟨rfl, rfl, rfl, rfl, rfl⟩ := postInit_eq_ok.mp hopening
    refine ⟨⟨hclaimed, hrounds, houter, hpcs, hpcsRounds, hroots, hopenings, hlayers⟩, ?_, rfl⟩
    simp only [proofBytes, List.append_nil]
  · rintro ⟨h, rfl, rfl⟩
    have hlayers : proof.opening.layerCommitments.length ≤ 64 := by
      rw [proof.opening.length_layerCommitments]
      exact h.length_roundPolynomials
    exact ⟨wireMagic, _, ⟨rfl, rfl⟩, (), _, ⟨rfl, rfl⟩, wireVersion, _,
      ⟨by norm_num [wireVersion], rfl⟩, (), _, ⟨rfl, rfl⟩, proof.claimedSum, _, ⟨h.claimedSum, rfl⟩,
      proof.outerRounds, _, ⟨⟨h.length_outerRounds, h.outerRounds⟩, rfl⟩,
      proof.opening.claimedValue, _, ⟨proof.opening.canonical_claimedValue, rfl⟩,
      proof.opening.roundPolynomials, _, ⟨⟨h.length_roundPolynomials, h.roundPolynomials⟩, rfl⟩,
      proof.opening.layerCommitments, _, ⟨⟨hlayers, h.layerCommitments⟩, rfl⟩,
      proof.opening.finalValue, _, ⟨proof.opening.canonical_finalValue, rfl⟩,
      proof.opening.layerOpenings, _,
      ⟨⟨h.length_layerOpenings, h.layerOpenings⟩, (List.append_nil _).symm⟩, (), _, ⟨rfl, rfl⟩,
      proof.opening, _, ⟨postInit_eq_ok.mpr ⟨rfl, rfl, rfl, rfl, rfl⟩, rfl⟩, rfl, rfl⟩

theorem decode_eq_ok {payload : Bytes} :
    decodeGoldilocksSuccinctFoldProofV3 lib payload = .ok proof ↔
      OnWire proof ∧ payload = proofBytes proof := by
  simp only [decodeGoldilocksSuccinctFoldProofV3, bind_eq_ok, pure_eq_ok]
  constructor
  · rintro ⟨⟨proof, rest⟩, hrun, rfl⟩
    obtain ⟨h, hpayload, -⟩ := (run_decodeProof_eq_ok lib).mp hrun
    exact ⟨h, hpayload⟩
  · rintro ⟨h, hpayload⟩
    exact ⟨(proof, []), (run_decodeProof_eq_ok lib).mpr ⟨h, hpayload, rfl⟩, rfl⟩

end Verathos.SuccinctFold
