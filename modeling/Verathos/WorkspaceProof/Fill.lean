import Verathos.Basic

/-!
# The deterministic workspace fill

A translation of the two versions of the workspace fill of `neurons/capacity_audit_workspace_proof.py`:
one element on unbounded integers (`workspaceI8ValueAfterMix`), and an array of elements on numpy
words (`workspaceI8ValuesAfterMix`).

* `toNat_splitmix64Np`: the mixer on words is the mixer on integers below `2 ^ 64`;
* `u8FromI8_sub`, `i8FromU8_xor`: the offset of 128 flips the sign bit, so it commutes with the
  rounds;
* `MixHolds`: the invariant of the rounds, kept by each of them (`MixHolds.step`);
* `workspaceFill_agrees`: both versions give the same elements.

A shift, a product or a sum of numpy words wraps around, as that of `UInt64` does.
-/

namespace Verathos.WorkspaceProof

/-! ## Constants -/

def passMix : ℕ := 0xD1B54A32D192ED03

def roundMix : ℕ := 0xABC98388FB8FAC03

def aMix : ℕ := 0x8CB92BA72F3D8DD7

def bMix : ℕ := 0x195D7C4F8E2D2D13

def mixRoundMix : ℕ := 0x9E3779B97F4A7C15

def mixAOffset : ℕ := 0xA5A5A5A5A5A5A5A5

def mixBOffset : ℕ := 0x5A5A5A5A5A5A5A5A

def mask64 : ℕ := (1 <<< 64) - 1

/-- An exception of the fill. -/
inductive FillError where
  | valueError (message : String)
  | zeroDivision
  | overflow
deriving DecidableEq

/-- `value & _MASK64`, for a value of either sign. -/
def masked (value : ℤ) : ℕ := (value % (2 ^ 64 : ℕ)).toNat

/-! ## One element -/

def splitmix64 (x : ℕ) : ℕ :=
  let x := (x + 0x9E3779B97F4A7C15) &&& mask64
  let x := ((x ^^^ (x >>> 30)) * 0xBF58476D1CE4E5B9) &&& mask64
  let x := ((x ^^^ (x >>> 27)) * 0x94D049BB133111EB) &&& mask64
  (x ^^^ (x >>> 31)) &&& mask64

/-- The exclusive or of the seed and of the terms of the pass and the round. -/
def fillBasis (workspaceSeed passIndex roundIndex : ℤ) : ℕ :=
  masked workspaceSeed ^^^ masked (passIndex * passMix) ^^^ masked (roundIndex * roundMix)

def workspaceI8Value (workspaceSeed passIndex roundIndex matrixId : ℤ) (row col matrixDim : ℕ) : ℤ :=
  let idx := row * matrixDim + col
  let x := fillBasis workspaceSeed passIndex roundIndex ^^^ (idx &&& mask64)
  let mix := if matrixId = 0 then aMix else bMix
  ((splitmix64 (x ^^^ mix) &&& 0xFF : ℕ) : ℤ) - 128

def u8FromI8 (value : ℤ) : ℕ := (value % 256).toNat

def i8FromU8 (value : ℕ) : ℤ :=
  let value := value &&& 0xFF
  if value ≥ 128 then (value : ℤ) - 256 else value

/-- A round of the mix: the bytes of A and B. -/
def mixRound (workspaceSeed passIndex roundIndex : ℤ) (idx : ℕ) (bytes : ℕ × ℕ) (mixIndex : ℕ) :
    ℕ × ℕ :=
  let basis := fillBasis workspaceSeed passIndex roundIndex ^^^
    ((mixIndex * mixRoundMix) &&& mask64)
  let ra := splitmix64 (basis ^^^ ((idx <<< 1) &&& mask64) ^^^ mixAOffset)
  let rb := splitmix64 (basis ^^^ ((idx <<< 2) &&& mask64) ^^^ mixBOffset)
  (bytes.1 ^^^ (ra &&& 0xFF), bytes.2 ^^^ (rb &&& 0xFF))

def workspaceI8ValueAfterMix (workspaceSeed passIndex roundIndex matrixId : ℤ)
    (row col matrixDim : ℕ) (memoryMixRounds : ℤ) : Except FillError ℤ :=
  if memoryMixRounds = 0 then
    .ok (workspaceI8Value workspaceSeed passIndex roundIndex matrixId row col matrixDim)
  else if memoryMixRounds < 0 then .error (.valueError "unsupported_memory_mix_rounds")
  else if matrixDim = 0 then .error .zeroDivision
  else
    let idx := row * matrixDim + col
    let ai := u8FromI8 (workspaceI8Value workspaceSeed passIndex roundIndex 0 (idx / matrixDim)
      (idx % matrixDim) matrixDim)
    let bi := u8FromI8 (workspaceI8Value workspaceSeed passIndex roundIndex 1 (idx / matrixDim)
      (idx % matrixDim) matrixDim)
    let bytes := (List.range memoryMixRounds.toNat).foldl
      (mixRound workspaceSeed passIndex roundIndex idx) (ai, bi)
    .ok (i8FromU8 (if matrixId = 0 then bytes.1 else bytes.2))

/-! ## An array of elements -/

/-- The argument `element_indices`. -/
inductive ElementIndices where
  | integers (values : List ℤ)
  | words (values : List UInt64)

def ElementIndices.asarray : ElementIndices → Except FillError (List UInt64)
  | integers values => values.mapM fun value =>
    if 0 ≤ value ∧ value < 2 ^ 64 then .ok (UInt64.ofNat value.toNat) else .error .overflow
  | words values => .ok values

/-- The inner `splitmix64`, of one element. -/
def splitmix64Np (values : UInt64) : UInt64 :=
  let values := values + 0x9E3779B97F4A7C15
  let values := (values ^^^ (values >>> 30)) * 0xBF58476D1CE4E5B9
  let values := (values ^^^ (values >>> 27)) * 0x94D049BB133111EB
  values ^^^ (values >>> 31)

/-- `(splitmix64(…) & np.uint64(0xFF)).astype(np.uint8)`, of one element. -/
def lowByte (value : UInt64) : UInt8 := (splitmix64Np value &&& 0xFF).toUInt8

/-- `lowByte` of every element. -/
def lowBytes (values : List UInt64) : List UInt8 := values.map lowByte

/-- A round of the mix on the arrays of A and B. -/
def mixRoundNp (base : UInt64) (indices : List UInt64) (arrays : List UInt8 × List UInt8)
    (mixIndex : ℕ) : List UInt8 × List UInt8 :=
  let mixBasis := base ^^^ UInt64.ofNat ((mixIndex * mixRoundMix) &&& mask64)
  let aRandom := indices.map fun index => mixBasis ^^^ (index <<< (1 : UInt64)) ^^^ UInt64.ofNat mixAOffset
  let bRandom := indices.map fun index => mixBasis ^^^ (index <<< (2 : UInt64)) ^^^ UInt64.ofNat mixBOffset
  (List.zipWith (· ^^^ ·) arrays.1 (lowBytes aRandom),
    List.zipWith (· ^^^ ·) arrays.2 (lowBytes bRandom))

/-- `(selected.astype(np.int16) - 128).astype(np.int8)`, of one element. -/
def signedNp (value : UInt8) : Int8 := (value.toUInt16.toInt16 - 128).toInt8

def workspaceI8ValuesAfterMix (workspaceSeed passIndex roundIndex matrixId : ℤ)
    (elementIndices : ElementIndices) (memoryMixRounds : ℤ) : Except FillError (List Int8) :=
  if matrixId ∉ [0, 1] then .error (.valueError "unsupported_workspace_matrix_id")
  else if memoryMixRounds < 0 then .error (.valueError "unsupported_memory_mix_rounds")
  else do
    let indices ← elementIndices.asarray
    let seed := UInt64.ofNat (masked workspaceSeed)
    let passTerm := UInt64.ofNat (masked (passIndex * passMix))
    let roundTerm := UInt64.ofNat (masked (roundIndex * roundMix))
    let base := seed ^^^ passTerm ^^^ roundTerm
    let aValues := lowBytes (indices.map fun index => base ^^^ index ^^^ UInt64.ofNat aMix)
    let bValues := lowBytes (indices.map fun index => base ^^^ index ^^^ UInt64.ofNat bMix)
    let arrays := (List.range memoryMixRounds.toNat).foldl (mixRoundNp base indices)
      (aValues, bValues)
    let selected := if matrixId = 0 then arrays.1 else arrays.2
    return selected.map signedNp

/-- The word `row * matrix_dim + col` that the callers compute for an element. -/
def elementIndex (matrixDim row col : ℕ) : UInt64 :=
  UInt64.ofNat row * UInt64.ofNat matrixDim + UInt64.ofNat col

/-! ## Words and integers below `2 ^ 64` -/

theorem and_mask64 (n : ℕ) : n &&& mask64 = n % 2 ^ 64 := by
  rw [mask64, Nat.one_shiftLeft]
  exact Nat.and_two_pow_sub_one_eq_mod n 64

theorem and_mask64_lt (n : ℕ) : n &&& mask64 < 2 ^ 64 :=
  and_mask64 n ▸ Nat.mod_lt _ (Nat.two_pow_pos 64)

theorem masked_lt (value : ℤ) : masked value < 2 ^ 64 := by
  rw [masked]
  omega

theorem toNat_ofNat_of_lt {n : ℕ} (h : n < 2 ^ 64) : (UInt64.ofNat n).toNat = n := by
  rw [UInt64.toNat_ofNat', Nat.mod_eq_of_lt h]

variable (value : UInt64)

theorem add_mask64 {n : ℕ} (h : n < 2 ^ 64) :
    (value.toNat + n) &&& mask64 = (value + UInt64.ofNat n).toNat := by
  rw [and_mask64, UInt64.toNat_add, toNat_ofNat_of_lt h]

theorem mul_mask64 {n : ℕ} (h : n < 2 ^ 64) :
    (value.toNat * n) &&& mask64 = (value * UInt64.ofNat n).toNat := by
  rw [and_mask64, UInt64.toNat_mul, toNat_ofNat_of_lt h]

theorem toNat_xor_shiftRight {k : ℕ} (h : k < 64) :
    (value ^^^ (value >>> UInt64.ofNat k)).toNat = value.toNat ^^^ (value.toNat >>> k) := by
  rw [UInt64.toNat_xor, UInt64.toNat_shiftRight, toNat_ofNat_of_lt (by omega), Nat.mod_eq_of_lt h]

theorem toNat_splitmix64Np : (splitmix64Np value).toNat = splitmix64 value.toNat := by
  rw [splitmix64, add_mask64 value (by decide), ← toNat_xor_shiftRight _ (by decide),
    mul_mask64 _ (by decide), ← toNat_xor_shiftRight _ (by decide), mul_mask64 _ (by decide),
    ← toNat_xor_shiftRight _ (by decide), and_mask64, Nat.mod_eq_of_lt (UInt64.toNat_lt _)]
  rfl

/-! ## The sign bit -/

theorem u8FromI8_sub {byte : ℕ} (h : byte < 256) : u8FromI8 ((byte : ℤ) - 128) = byte ^^^ 128 := by
  revert byte
  decide +kernel

theorem i8FromU8_xor {byte : ℕ} (h : byte < 256) : i8FromU8 (byte ^^^ 128) = (byte : ℤ) - 128 := by
  revert byte
  decide +kernel

/-- The byte that the versions store of one element: the scalar one has the sign bit flipped. -/
def flipped (value : UInt8) : ℕ := value.toNat ^^^ 128

theorem flipped_xor (value other : UInt8) :
    flipped (value ^^^ other) = flipped value ^^^ other.toNat := by
  rw [flipped, flipped, UInt8.toNat_xor, Nat.xor_assoc, Nat.xor_assoc, Nat.xor_comm 128]

theorem toInt_signedNp (value : UInt8) : (signedNp value).toInt = i8FromU8 (flipped value) := by
  rw [flipped, i8FromU8_xor value.toNat_lt]
  have hall : ∀ n < 256, (signedNp (UInt8.ofNat n)).toInt = (n : ℤ) - 128 := by decide +kernel
  have hvalue := hall value.toNat value.toNat_lt
  rwa [UInt8.ofNat_toNat] at hvalue

/-! ## The rounds -/

theorem and_255_lt (n : ℕ) : n &&& 0xFF < 256 :=
  Nat.and_lt_two_pow n (by decide : 0xFF < 2 ^ 8)

theorem toNat_lowByte : (lowByte value).toNat = splitmix64 value.toNat &&& 0xFF := by
  rw [lowByte, UInt64.toNat_toUInt8, UInt64.toNat_and, toNat_splitmix64Np]
  exact Nat.mod_eq_of_lt (and_255_lt _)

theorem toNat_ofNat_shiftLeft (idx : ℕ) {k : ℕ} (h : k < 64) :
    (UInt64.ofNat idx <<< UInt64.ofNat k).toNat = (idx <<< k) &&& mask64 := by
  rw [UInt64.toNat_shiftLeft, UInt64.toNat_ofNat', toNat_ofNat_of_lt (by omega),
    Nat.mod_eq_of_lt h, and_mask64, Nat.shiftLeft_eq, Nat.shiftLeft_eq, Nat.mod_mul_mod]

variable {workspaceSeed passIndex roundIndex : ℤ} {base : UInt64} {elements : List ℕ}
  {arrays : List UInt8 × List UInt8} {bytes : ℕ → ℕ × ℕ}

/-- The arrays hold the bytes that the scalar version has for the elements. -/
def MixHolds (elements : List ℕ) (arrays : List UInt8 × List UInt8) (bytes : ℕ → ℕ × ℕ) : Prop :=
  arrays.1.map flipped = elements.map (fun idx => (bytes idx).1) ∧
    arrays.2.map flipped = elements.map fun idx => (bytes idx).2

theorem map_flipped_xor {values : List UInt8} {scalars : ℕ → ℕ} {random : ℕ → UInt64}
    (h : values.map flipped = elements.map scalars) :
    (List.zipWith (· ^^^ ·) values (lowBytes (elements.map random))).map flipped =
      elements.map fun idx => scalars idx ^^^ (splitmix64 (random idx).toNat &&& 0xFF) :=
  calc (List.zipWith (· ^^^ ·) values (lowBytes (elements.map random))).map flipped
      = List.zipWith (fun scalar idx => scalar ^^^ (lowByte (random idx)).toNat)
          (values.map flipped) elements := by
        rw [List.map_zipWith, lowBytes, List.map_map, List.zipWith_map_right,
          List.zipWith_map_left]
        simp only [flipped_xor, Function.comp_apply]
    _ = elements.map fun idx => scalars idx ^^^ (splitmix64 (random idx).toNat &&& 0xFF) := by
        rw [h, List.zipWith_map_left, List.zipWith_self]
        simp only [toNat_lowByte]

theorem MixHolds.step (hbase : base.toNat = fillBasis workspaceSeed passIndex roundIndex)
    (h : MixHolds elements arrays bytes) (mixIndex : ℕ) :
    MixHolds elements (mixRoundNp base (elements.map UInt64.ofNat) arrays mixIndex)
      fun idx => mixRound workspaceSeed passIndex roundIndex idx (bytes idx) mixIndex := by
  -- the word that is mixed for an element, of either array
  have hword (idx k offset : ℕ) (hk : k < 64) (hoffset : offset < 2 ^ 64) :
      (base ^^^ UInt64.ofNat ((mixIndex * mixRoundMix) &&& mask64) ^^^
          (UInt64.ofNat idx <<< UInt64.ofNat k) ^^^ UInt64.ofNat offset).toNat =
        fillBasis workspaceSeed passIndex roundIndex ^^^ ((mixIndex * mixRoundMix) &&& mask64) ^^^
          ((idx <<< k) &&& mask64) ^^^ offset := by
    rw [UInt64.toNat_xor, UInt64.toNat_xor, UInt64.toNat_xor, hbase,
      toNat_ofNat_of_lt (and_mask64_lt _), toNat_ofNat_of_lt hoffset, toNat_ofNat_shiftLeft idx hk]
  rw [mixRoundNp, List.map_map, List.map_map]
  constructor
  · refine (map_flipped_xor h.1).trans (List.map_congr_left fun idx _ => ?_)
    exact congrArg (fun word => (bytes idx).1 ^^^ (splitmix64 word &&& 0xFF))
      (hword idx 1 mixAOffset (by decide) (by decide))
  · refine (map_flipped_xor h.2).trans (List.map_congr_left fun idx _ => ?_)
    exact congrArg (fun word => (bytes idx).2 ^^^ (splitmix64 word &&& 0xFF))
      (hword idx 2 mixBOffset (by decide) (by decide))

theorem MixHolds.rounds (hbase : base.toNat = fillBasis workspaceSeed passIndex roundIndex)
    (h : MixHolds elements arrays bytes) (count : ℕ) :
    MixHolds elements
      ((List.range count).foldl (mixRoundNp base (elements.map UInt64.ofNat)) arrays)
      fun idx => (List.range count).foldl (mixRound workspaceSeed passIndex roundIndex idx)
        (bytes idx) := by
  induction count with
  | zero => exact h
  | succ count ih =>
    simp only [List.range_succ, List.foldl_append, List.foldl_cons, List.foldl_nil]
    exact ih.step hbase count

/-! ## The two versions -/

/-- The bytes of A and B that the scalar version starts with. -/
def startBytes (workspaceSeed passIndex roundIndex : ℤ) (matrixDim idx : ℕ) : ℕ × ℕ :=
  (u8FromI8 (workspaceI8Value workspaceSeed passIndex roundIndex 0 (idx / matrixDim)
      (idx % matrixDim) matrixDim),
    u8FromI8 (workspaceI8Value workspaceSeed passIndex roundIndex 1 (idx / matrixDim)
      (idx % matrixDim) matrixDim))

/-- The bytes of A and B that the scalar version ends with. -/
def mixedBytes (workspaceSeed passIndex roundIndex : ℤ) (matrixDim memoryMixRounds idx : ℕ) :
    ℕ × ℕ :=
  (List.range memoryMixRounds).foldl (mixRound workspaceSeed passIndex roundIndex idx)
    (startBytes workspaceSeed passIndex roundIndex matrixDim idx)

theorem flipped_lowByte (hbase : base.toNat = fillBasis workspaceSeed passIndex roundIndex)
    {matrixId : ℤ} {mix : ℕ} (hmix : (if matrixId = 0 then aMix else bMix) = mix)
    (hlt : mix < 2 ^ 64) (matrixDim idx : ℕ) :
    flipped (lowByte (base ^^^ UInt64.ofNat idx ^^^ UInt64.ofNat mix)) =
      u8FromI8 (workspaceI8Value workspaceSeed passIndex roundIndex matrixId (idx / matrixDim)
        (idx % matrixDim) matrixDim) := by
  have hindex : (UInt64.ofNat idx).toNat = idx &&& mask64 := by
    rw [UInt64.toNat_ofNat', and_mask64]
  have hword : (base ^^^ UInt64.ofNat idx ^^^ UInt64.ofNat mix).toNat =
      fillBasis workspaceSeed passIndex roundIndex ^^^ (idx &&& mask64) ^^^ mix := by
    simp only [UInt64.toNat_xor, hbase, hindex, toNat_ofNat_of_lt hlt]
  rw [flipped, toNat_lowByte, hword, ← u8FromI8_sub (and_255_lt _), workspaceI8Value,
    Nat.div_add_mod', hmix]

theorem map_flipped_lowBytes (f : UInt64 → UInt64) (elements : List ℕ) :
    (lowBytes ((elements.map UInt64.ofNat).map f)).map flipped =
      elements.map fun idx => flipped (lowByte (f (UInt64.ofNat idx))) := by
  simp only [lowBytes, List.map_map, Function.comp_def]

theorem mixHolds_start (hbase : base.toNat = fillBasis workspaceSeed passIndex roundIndex)
    (matrixDim : ℕ) (elements : List ℕ) :
    MixHolds elements
      (lowBytes ((elements.map UInt64.ofNat).map fun index => base ^^^ index ^^^ UInt64.ofNat aMix),
        lowBytes ((elements.map UInt64.ofNat).map fun index =>
          base ^^^ index ^^^ UInt64.ofNat bMix))
      (startBytes workspaceSeed passIndex roundIndex matrixDim) := by
  have hstart (matrixId : ℤ) (mix : ℕ) (hmix : (if matrixId = 0 then aMix else bMix) = mix)
      (hlt : mix < 2 ^ 64) :
      (lowBytes ((elements.map UInt64.ofNat).map fun index =>
          base ^^^ index ^^^ UInt64.ofNat mix)).map flipped =
        elements.map fun idx => u8FromI8 (workspaceI8Value workspaceSeed passIndex roundIndex
          matrixId (idx / matrixDim) (idx % matrixDim) matrixDim) := by
    rw [map_flipped_lowBytes]
    exact List.map_congr_left fun idx _ => flipped_lowByte hbase hmix hlt matrixDim idx
  simp only [MixHolds, startBytes]
  exact ⟨hstart 0 aMix (if_pos rfl) (by decide), hstart 1 bMix (if_neg one_ne_zero) (by decide)⟩

theorem i8FromU8_u8FromI8 (workspaceSeed passIndex roundIndex matrixId : ℤ)
    (row col matrixDim : ℕ) :
    i8FromU8 (u8FromI8 (workspaceI8Value workspaceSeed passIndex roundIndex matrixId row col
      matrixDim)) = workspaceI8Value workspaceSeed passIndex roundIndex matrixId row col
      matrixDim := by
  rw [workspaceI8Value, u8FromI8_sub (and_255_lt _), i8FromU8_xor (and_255_lt _)]

theorem workspaceI8ValueAfterMix_eq {matrixDim : ℕ} (hdim : 0 < matrixDim)
    (workspaceSeed passIndex roundIndex matrixId : ℤ) (row col memoryMixRounds : ℕ) :
    workspaceI8ValueAfterMix workspaceSeed passIndex roundIndex matrixId row col matrixDim
        memoryMixRounds =
      .ok (i8FromU8 (if matrixId = 0
        then (mixedBytes workspaceSeed passIndex roundIndex matrixDim memoryMixRounds
          (row * matrixDim + col)).1
        else (mixedBytes workspaceSeed passIndex roundIndex matrixDim memoryMixRounds
          (row * matrixDim + col)).2)) := by
  cases memoryMixRounds with
  | zero =>
    -- the element of either matrix is found again at its index
    have helement (matrixId' : ℤ) (hsame : matrixId = 0 ↔ matrixId' = 0) :
        workspaceI8Value workspaceSeed passIndex roundIndex matrixId row col matrixDim =
          i8FromU8 (u8FromI8 (workspaceI8Value workspaceSeed passIndex roundIndex matrixId'
            ((row * matrixDim + col) / matrixDim) ((row * matrixDim + col) % matrixDim)
            matrixDim)) := by
      rw [i8FromU8_u8FromI8, workspaceI8Value, workspaceI8Value, Nat.div_add_mod']
      simp only [hsame]
    rw [workspaceI8ValueAfterMix, if_pos Nat.cast_zero]
    simp only [mixedBytes, List.range_zero, List.foldl_nil, startBytes]
    split_ifs with hmatrix
    · rw [helement 0 (iff_of_true hmatrix rfl)]
    · rw [helement 1 (iff_of_false hmatrix one_ne_zero)]
  | succ count =>
    have hcount : ((count + 1 : ℕ) : ℤ) ≠ 0 := by omega
    have hsign : ¬ ((count + 1 : ℕ) : ℤ) < 0 := by omega
    rw [workspaceI8ValueAfterMix, if_neg hcount, if_neg hsign, if_neg hdim.ne',
      Int.toNat_natCast]
    simp only [mixedBytes, startBytes]

theorem asarray_words (elements : List ℕ) :
    (ElementIndices.words (elements.map UInt64.ofNat)).asarray =
      .ok (elements.map UInt64.ofNat) := rfl

theorem asarray_integers {elements : List ℕ} (h : ∀ idx ∈ elements, idx < 2 ^ 64) :
    (ElementIndices.integers (elements.map Nat.cast)).asarray =
      .ok (elements.map UInt64.ofNat) := by
  rw [ElementIndices.asarray, List.mapM_map]
  refine mapM_eq_ok_map fun idx hidx => ?_
  have hlt := h idx hidx
  rw [Function.comp_apply, if_pos (by omega), Int.toNat_natCast]

theorem workspaceI8ValuesAfterMix_congr {indices indices' : ElementIndices}
    (h : indices.asarray = indices'.asarray)
    (workspaceSeed passIndex roundIndex matrixId memoryMixRounds : ℤ) :
    workspaceI8ValuesAfterMix workspaceSeed passIndex roundIndex matrixId indices
        memoryMixRounds =
      workspaceI8ValuesAfterMix workspaceSeed passIndex roundIndex matrixId indices'
        memoryMixRounds := by
  rw [workspaceI8ValuesAfterMix, workspaceI8ValuesAfterMix, h]

theorem workspaceI8ValuesAfterMix_eq {matrixId : ℤ} (hmatrix : matrixId ∈ ([0, 1] : List ℤ))
    (workspaceSeed passIndex roundIndex : ℤ) (matrixDim memoryMixRounds : ℕ)
    {elementIndices : ElementIndices} {elements : List ℕ}
    (hindices : elementIndices.asarray = .ok (elements.map UInt64.ofNat)) :
    ∃ values, workspaceI8ValuesAfterMix workspaceSeed passIndex roundIndex matrixId elementIndices
        memoryMixRounds = .ok values ∧
      values.map Int8.toInt = elements.map fun idx => i8FromU8 (if matrixId = 0
        then (mixedBytes workspaceSeed passIndex roundIndex matrixDim memoryMixRounds idx).1
        else (mixedBytes workspaceSeed passIndex roundIndex matrixDim memoryMixRounds idx).2) := by
  have hsign : ¬ (memoryMixRounds : ℤ) < 0 := by omega
  set base := UInt64.ofNat (masked workspaceSeed) ^^^ UInt64.ofNat (masked (passIndex * passMix)) ^^^
    UInt64.ofNat (masked (roundIndex * roundMix)) with hword
  have hbase : base.toNat = fillBasis workspaceSeed passIndex roundIndex := by
    rw [hword, UInt64.toNat_xor, UInt64.toNat_xor, toNat_ofNat_of_lt (masked_lt _),
      toNat_ofNat_of_lt (masked_lt _), toNat_ofNat_of_lt (masked_lt _), fillBasis]
  obtain ⟨hfirst, hsecond⟩ :=
    (mixHolds_start hbase matrixDim elements).rounds hbase memoryMixRounds
  set arrays := (List.range memoryMixRounds).foldl (mixRoundNp base (elements.map UInt64.ofNat))
    (lowBytes ((elements.map UInt64.ofNat).map fun index => base ^^^ index ^^^ UInt64.ofNat aMix),
      lowBytes ((elements.map UInt64.ofNat).map fun index => base ^^^ index ^^^ UInt64.ofNat bMix))
    with harrays
  have hrun : workspaceI8ValuesAfterMix workspaceSeed passIndex roundIndex matrixId elementIndices
      memoryMixRounds =
        .ok ((if matrixId = 0 then arrays.1 else arrays.2).map signedNp) := by
    rw [workspaceI8ValuesAfterMix, if_neg (not_not_intro hmatrix), if_neg hsign, hindices,
      Int.toNat_natCast]
    rfl
  have hsigned {values : List UInt8} {scalars : ℕ → ℕ}
      (h : values.map flipped = elements.map scalars) :
      (values.map signedNp).map Int8.toInt = elements.map fun idx => i8FromU8 (scalars idx) :=
    calc (values.map signedNp).map Int8.toInt
        = (values.map flipped).map i8FromU8 := by
          rw [List.map_map, List.map_map]
          exact List.map_congr_left fun value _ => toInt_signedNp value
      _ = elements.map fun idx => i8FromU8 (scalars idx) := by
          rw [h, List.map_map]
          rfl
  refine ⟨_, hrun, ?_⟩
  split_ifs
  · exact hsigned hfirst
  · exact hsigned hsecond

theorem elementIndex_eq (matrixDim row col : ℕ) :
    elementIndex matrixDim row col = UInt64.ofNat (row * matrixDim + col) := by
  rw [elementIndex, UInt64.ofNat_add, UInt64.ofNat_mul]

/-- The vectorized fill gives the elements of the scalar one, at words and at integers; without a
round they are those of `workspaceI8Value`, and a negative number of rounds is refused by both. A
matrix that has an element has a positive dimension. -/
theorem workspaceFill_agrees {matrixId : ℤ} (hmatrix : matrixId ∈ ([0, 1] : List ℤ))
    {matrixDim : ℕ} (hdim : 0 < matrixDim) (workspaceSeed passIndex roundIndex : ℤ)
    (elements : List (ℕ × ℕ)) :
    (∀ memoryMixRounds : ℕ, ∃ values,
      workspaceI8ValuesAfterMix workspaceSeed passIndex roundIndex matrixId
          (.words (elements.map fun element => elementIndex matrixDim element.1 element.2))
          memoryMixRounds = .ok values ∧
      ((∀ element ∈ elements, element.1 * matrixDim + element.2 < 2 ^ 64) →
        workspaceI8ValuesAfterMix workspaceSeed passIndex roundIndex matrixId
          (.integers (elements.map fun element =>
            ((element.1 * matrixDim + element.2 : ℕ) : ℤ))) memoryMixRounds = .ok values) ∧
      (elements.mapM fun element => workspaceI8ValueAfterMix workspaceSeed passIndex roundIndex
        matrixId element.1 element.2 matrixDim memoryMixRounds) = .ok (values.map Int8.toInt) ∧
      (memoryMixRounds = 0 → values.map Int8.toInt = elements.map fun element =>
        workspaceI8Value workspaceSeed passIndex roundIndex matrixId element.1 element.2
          matrixDim)) ∧
    ∀ memoryMixRounds : ℤ, memoryMixRounds < 0 →
      (∀ elementIndices, workspaceI8ValuesAfterMix workspaceSeed passIndex roundIndex matrixId
        elementIndices memoryMixRounds = .error (.valueError "unsupported_memory_mix_rounds")) ∧
      ∀ element ∈ elements, workspaceI8ValueAfterMix workspaceSeed passIndex roundIndex matrixId
        element.1 element.2 matrixDim memoryMixRounds =
          .error (.valueError "unsupported_memory_mix_rounds") := by
  constructor
  · intro memoryMixRounds
    set indices := elements.map fun element => element.1 * matrixDim + element.2 with hindices
    have hwords : elements.map (fun element => elementIndex matrixDim element.1 element.2) =
        indices.map UInt64.ofNat := by
      rw [hindices, List.map_map]
      exact List.map_congr_left fun element _ => elementIndex_eq ..
    obtain ⟨values, hvalues, hmap⟩ := workspaceI8ValuesAfterMix_eq hmatrix workspaceSeed passIndex
      roundIndex matrixDim memoryMixRounds (asarray_words indices)
    rw [← hwords] at hvalues
    have hscalar : (elements.mapM fun element => workspaceI8ValueAfterMix workspaceSeed passIndex
        roundIndex matrixId element.1 element.2 matrixDim memoryMixRounds) =
          .ok (values.map Int8.toInt) := by
      rw [hmap, hindices, List.map_map]
      exact mapM_eq_ok_map fun element _ => workspaceI8ValueAfterMix_eq hdim ..
    refine ⟨values, hvalues, fun hlt => ?_, hscalar, ?_⟩
    · have hintegers : (elements.map fun element =>
          ((element.1 * matrixDim + element.2 : ℕ) : ℤ)) = indices.map Nat.cast := by
        rw [hindices, List.map_map]
        rfl
      have hfit : ∀ idx ∈ indices, idx < 2 ^ 64 := List.forall_mem_map.mpr hlt
      rw [hintegers, ← hvalues, hwords]
      exact workspaceI8ValuesAfterMix_congr
        ((asarray_integers hfit).trans (asarray_words indices).symm) ..
    · rintro rfl
      have hzero : (elements.mapM fun element => workspaceI8ValueAfterMix workspaceSeed passIndex
          roundIndex matrixId element.1 element.2 matrixDim (0 : ℕ)) = .ok (elements.map
            fun element => workspaceI8Value workspaceSeed passIndex roundIndex matrixId element.1
              element.2 matrixDim) :=
        mapM_eq_ok_map fun element _ => if_pos Nat.cast_zero
      exact Except.ok.inj (hscalar.symm.trans hzero)
  · intro memoryMixRounds hneg
    refine ⟨fun elementIndices => ?_, fun element _ => ?_⟩
    · rw [workspaceI8ValuesAfterMix, if_neg (not_not_intro hmatrix), if_pos hneg]
    · rw [workspaceI8ValueAfterMix, if_neg hneg.ne, if_pos hneg]

/-- `workspaceFill_agrees` at the first and the last element of a matrix of dimension 3. -/
theorem workspaceFill_agrees_corners :
    ∃ values,
      workspaceI8ValuesAfterMix (2 ^ 64 - 1) 5 2 1
          (.words [elementIndex 3 0 0, elementIndex 3 2 2]) 4 = .ok values ∧
      ([(0, 0), (2, 2)].mapM fun element : ℕ × ℕ => workspaceI8ValueAfterMix (2 ^ 64 - 1) 5 2 1
        element.1 element.2 3 4) = .ok (values.map Int8.toInt) := by
  obtain ⟨values, hvalues, -, hscalar, -⟩ :=
    (workspaceFill_agrees (by decide : (1 : ℤ) ∈ ([0, 1] : List ℤ)) (by decide : 0 < 3)
      (2 ^ 64 - 1) 5 2 [(0, 0), (2, 2)]).1 4
  exact ⟨values, hvalues, hscalar⟩

end Verathos.WorkspaceProof
