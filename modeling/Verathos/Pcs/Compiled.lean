import Verathos.Pcs.Defs

/-!
# The compiled opening verifier

A translation of the field arithmetic and of `verify_opening_full` of `c_multiopen.c`, of its
`ctypes` wrapper in `c_multiopen.py`, and of `_try_compiled_opening_verify`, which prepares its
arguments.

Unsigned words are natural numbers, reduced modulo `2 ^ 64` or `2 ^ 128` where the C code
truncates. The fixed-size arrays of the C code are lists with a capacity: a write past the end is
the outcome `Fault.overrun`, which no C semantics covers. The message buffers hold messages of
constant length and are not bounded here.
-/

namespace Verathos.Pcs.Compiled

open Merkle

/-! ## Words -/

def glP : ℕ := goldilocksModulus

def glcInv2 : ℕ := 0x7FFFFFFF80000001

def glcAdd (a b : ℕ) : ℕ :=
  let s := a + b
  (if s ≥ glP then s - glP else s) % 2 ^ 64

def glcSub (a b : ℕ) : ℕ :=
  if a ≥ b then a - b else (a + glP + 2 ^ 128 - b) % 2 ^ 128 % 2 ^ 64

/-- `while (r >= GL_P) r -= GL_P`. -/
def reduceLoop (r : ℕ) : ℕ :=
  if _h : r ≥ glP then reduceLoop (r - glP) else r
termination_by r
decreasing_by
  have : 0 < glP := by norm_num [glP, goldilocksModulus]
  omega

def glcMul (a b : ℕ) : ℕ :=
  let x := a * b % 2 ^ 128
  let lo := x % 2 ^ 64
  let hi := x >>> 64 % 2 ^ 64
  let hiHi := hi >>> 32
  let hiLo := hi &&& 0xFFFFFFFF
  let t := if lo ≥ hiHi then lo - hiHi else (lo + glP - hiHi) % 2 ^ 64
  reduceLoop (t + hiLo * 0xFFFFFFFF) % 2 ^ 64

/-- The loop of `glc_pow`. -/
def glcPowLoop (result base exp : ℕ) : ℕ :=
  if _h : exp = 0 then result
  else
    glcPowLoop (if exp &&& 1 = 1 then glcMul result base else result) (glcMul base base) (exp >>> 1)
termination_by exp
decreasing_by
  rw [Nat.shiftRight_one]
  omega

def glcPow (base exp : ℕ) : ℕ := glcPowLoop 1 base exp

/-! ## Outcomes and arrays -/

/-- A call that does not return 0. -/
inductive Fault where
  | code (code : ℕ)
  | overrun
deriving DecidableEq

/-- The outcome of C code. -/
abbrev CResult := Except Fault

/-- `if (condition) return code;`. -/
def returnIf (condition : Prop) [Decidable condition] (code : ℕ) : CResult Unit :=
  if condition then .error (.code code) else .ok ()

/-- A write that reaches past the end of an array. -/
def overrunIf (condition : Prop) [Decidable condition] : CResult Unit :=
  if condition then .error .overrun else .ok ()

/-- Append to an array with a capacity. -/
def push {α : Type} (capacity : ℕ) (array : List α) (value : α) : CResult (List α) :=
  if array.length < capacity then .ok (array ++ [value]) else .error .overrun

/-- `array[start ..< start + count]`. -/
def slice {α : Type} (array : List α) (start count : ℕ) : List α := (array.drop start).take count

/-- The 32 bytes at an offset. -/
def digestAt (bytes : Bytes) (offset : ℕ) : Digest :=
  ⟨(slice bytes offset 32 ++ List.replicate 32 0).take 32, by simp⟩

/-- The search loop of `bsearch_idx` between `lo` and `hi`, where `hi` is excluded. -/
def bsearchLoop (arr : List ℕ) (key lo hi : ℕ) : Option ℕ :=
  if _h : lo < hi then
    let mid := (lo + (hi - 1)) / 2
    if arr.getD mid 0 = key then some mid
    else if arr.getD mid 0 < key then bsearchLoop arr key (mid + 1) hi
    else bsearchLoop arr key lo mid
  else none
termination_by hi - lo
decreasing_by
  · omega
  · omega

/-- `bsearch_idx`; the return value -1 is `none`. -/
def bsearchIdx (arr : List ℕ) (key : ℕ) : Option ℕ := bsearchLoop arr key 0 arr.length

/-- The inner `while` of the insertion sort, on the reversed prefix. -/
def insertKey (key : ℕ) : List ℕ → List ℕ
  | [] => [key]
  | last :: rest => if last > key then last :: insertKey key rest else key :: last :: rest

/-- The insertion sort of `exp_idx`. -/
def insertionSort (keys : List ℕ) : List ℕ :=
  keys.foldl (fun sorted key => (insertKey key sorted.reverse).reverse) []

section Verify

variable (sha256 : Bytes → Digest)

/-- The counter loop of `derive_field`. -/
def deriveFieldLoop (candidate : ℕ → ℕ) : ℕ → ℕ → CResult ℕ
  | 0, _ => .error (.code 10)
  | remaining + 1, counter =>
    if candidate counter < glP then .ok (candidate counter)
    else deriveFieldLoop candidate remaining (counter + 1)

def deriveField (dom : Bytes) (transcript : Digest) (label : Bytes) (index : ℕ) : CResult ℕ :=
  deriveFieldLoop
    (fun counter => digestWord (sha256 (dom ++ transcript.bytes ++ label ++ packI index ++
      packI counter)))
    (2 ^ 16) 0

/-- The arguments of `verify_opening_full`. -/
structure Arguments where
  transcriptSeed : Digest
  claimed : ℕ
  finalValue : ℕ
  n : ℕ
  point : List ℕ
  rounds : List ℕ
  /-- The commitment and the layer roots, `32 * (n + 1)` bytes. -/
  roots : Bytes
  dom : Bytes
  qdom : Bytes
  baseSize : ℕ
  layerShift : List ℕ
  layerGen : List ℕ
  nQueries : ℕ
  /-- The offsets of the layers in `allIdx` and `allVal`. -/
  layOff : List ℕ
  allIdx : List ℕ
  allVal : List ℕ
  sibOff : List ℕ
  allSibLv : List ℕ
  allSibIx : List ℕ
  allSibDig : Bytes
  leafPrefixes : Bytes
  nodePrefixes : Bytes
  rootPrefixes : Bytes

/-- The little-endian bytes of a word. -/
def wordBytes (word : ℕ) : Bytes := LittleEndian.toBytes 8 word

/-- The recombination of the round values at the challenge. -/
def recombine (g0 g1 g2 z : ℕ) : ℕ :=
  let zm1 := glcSub z 1
  let zm2 := glcSub z 2
  let t0 := glcMul (glcMul g0 (glcMul zm1 zm2)) glcInv2
  let t1 := glcMul g1 (glcMul z zm2)
  let t2 := glcMul (glcMul g2 (glcMul z zm1)) glcInv2
  glcSub (glcAdd t0 t2) t1

variable (args : Arguments)

/-- The round loop, with `remaining` rounds to go: the last running value, the array
`challenges[64]` and the transcript. -/
def roundLoop : ℕ → ℕ → ℕ → List ℕ → Digest → CResult (ℕ × List ℕ × Digest)
  | 0, _, running, challenges, t => .ok (running, challenges, t)
  | remaining + 1, r, running, challenges, t => do
    let g0 := args.rounds.getD (3 * r) 0
    let g1 := args.rounds.getD (3 * r + 1) 0
    let g2 := args.rounds.getD (3 * r + 2) 0
    returnIf (g0 ≥ glP ∨ g1 ≥ glP ∨ g2 ≥ glP) 21
    returnIf (glcAdd g0 g1 ≠ running) 22
    let t := sha256 (t.bytes ++ wordBytes g0 ++ wordBytes g1 ++ wordBytes g2)
    let z ← deriveField sha256 args.dom t foldLabel r
    let challenges ← push 64 challenges z
    let t' := sha256 (t.bytes ++ slice args.roots (32 * (r + 1)) 32)
    roundLoop remaining (r + 1) (recombine g0 g1 g2 z) challenges t'

/-- One step of the coupling product. -/
def eqpStep (challenges : List ℕ) (eqp r : ℕ) : ℕ :=
  let c := challenges.getD r 0
  let pv := args.point.getD r 0
  glcMul eqp (glcAdd (glcMul (glcSub 1 c) (glcSub 1 pv)) (glcMul c pv))

/-- The query positions, in the array `positions[64]`. -/
def positionLoop (qseed : Digest) : ℕ → ℕ → List ℕ → CResult (List ℕ)
  | 0, _, positions => .ok positions
  | remaining + 1, q, positions => do
    let cand := digestWord (sha256 (args.qdom ++ qseed.bytes ++ packI q))
    let positions ← push 64 positions (cand % (args.baseSize / 2))
    positionLoop qseed remaining (q + 1) positions

/-- `if (!found) exp_idx[m++] = v;`. -/
def pushUnless (found : Prop) [Decidable found] (expIdx : List ℕ) (v : ℕ) : CResult (List ℕ) :=
  if found then .ok expIdx else push 128 expIdx v

/-- The expected indices of a layer, in the array `exp_idx[128]`, before sorting. Both members of
a pair are looked up before either is written. -/
def expectedIdx (size : ℕ) (isFinal : Bool) : List ℕ → List ℕ → CResult (List ℕ)
  | [], expIdx => .ok expIdx
  | position :: positions, expIdx => do
    if isFinal then
      let expIdx ← pushUnless (position % size ∈ expIdx) expIdx (position % size)
      expectedIdx size isFinal positions expIdx
    else
      let v1 := position % (size / 2)
      let v2 := v1 + size / 2
      let expIdx' ← pushUnless (v1 ∈ expIdx) expIdx v1
      let expIdx'' ← pushUnless (v2 ∈ expIdx) expIdx' v2
      expectedIdx size isFinal positions expIdx''

/-- The number of leaves that a layer opens. -/
def nLeaves (li : ℕ) : ℕ := args.layOff.getD (li + 1) 0 - args.layOff.getD li 0

/-- The number of siblings that a layer carries. -/
def nSib (li : ℕ) : ℕ := args.sibOff.getD (li + 1) 0 - args.sibOff.getD li 0

/-- `idx`, the opened indices of a layer. -/
def layerIdx (li : ℕ) : List ℕ := slice args.allIdx (args.layOff.getD li 0) (nLeaves args li)

/-- `val`, the opened values of a layer. -/
def layerVal (li : ℕ) : List ℕ := slice args.allVal (args.layOff.getD li 0) (nLeaves args li)

/-- `plv` and `pix`, the sibling coordinates of a layer. -/
def layerCoordinates (li : ℕ) : List (ℕ × ℕ) :=
  (slice args.allSibLv (args.sibOff.getD li 0) (nSib args li)).zip
    (slice args.allSibIx (args.sibOff.getD li 0) (nSib args li))

/-- The sibling digests of a layer. -/
def layerDigests (li : ℕ) : List Digest :=
  (List.range (nSib args li)).map fun i =>
    digestAt args.allSibDig (32 * args.sibOff.getD li 0 + 32 * i)

/-- The check of one layer: indices, values, sibling schedule and root. The schedule is written to
`scratch2`, whose parts have 4096 slots. -/
def checkLayer (positions : List ℕ) (li : ℕ) : CResult Unit := do
  let size := args.baseSize >>> li
  let expIdx ← expectedIdx size (li = args.n) positions []
  let expIdx := insertionSort expIdx
  returnIf (nLeaves args li ≠ expIdx.length) 30
  let idx := layerIdx args li
  let val := layerVal args li
  returnIf (idx ≠ expIdx) 31
  returnIf (∃ v ∈ val, v ≥ glP) 32
  let coordinates := Merkle.Compiled.siblingCoordinatesLoop size 0 idx
  overrunIf (coordinates.length > 4096 ∨ idx.length > 4096)
  returnIf (coordinates.length ≠ nSib args li) 33
  returnIf (layerCoordinates args li ≠ coordinates) 34
  let siblings := (coordinates.zip (layerDigests args li)).map fun ((level, index), digest) =>
    (level, index, digest)
  match Merkle.Compiled.reconstructMultiopenW1 sha256 (slice args.leafPrefixes (90 * li) 90)
      (slice args.nodePrefixes (90 * li) 90) size idx val siblings with
  | .error _ => throw (.code 35)
  | .ok rawRoot =>
    let commit := sha256 (slice args.rootPrefixes (90 * li) 90 ++ rawRoot.bytes)
    returnIf (commit.bytes ≠ slice args.roots (32 * li) 32) 36

/-- The fold equation of one layer at one position. -/
def checkFold (challenges : List ℕ) (li position : ℕ) : CResult Unit := do
  let size := args.baseSize >>> li
  let c := challenges.getD li 0
  let fp := position % (size / 2)
  match bsearchIdx (layerIdx args li) fp, bsearchIdx (layerIdx args li) (fp + size / 2) with
  | some ip, some iN =>
    let vp := (layerVal args li).getD ip 0
    let vn := (layerVal args li).getD iN 0
    let x := glcMul (args.layerShift.getD li 0) (glcPow (args.layerGen.getD li 0) fp)
    let even := glcMul (glcAdd vp vn) glcInv2
    let odd := glcMul (glcMul (glcSub vp vn) glcInv2) (glcPow x (glP - 2))
    let expected := glcAdd (glcMul (glcSub 1 c) even) (glcMul c odd)
    match bsearchIdx (layerIdx args (li + 1)) fp with
    | some ic => returnIf (expected ≠ (layerVal args (li + 1)).getD ic 0) 42
    | none => throw (.code 41)
  | _, _ => throw (.code 40)

def verifyOpeningFull : CResult Unit := do
  returnIf (args.n > 64) 20
  let (running, challenges, t) ←
    roundLoop sha256 args args.n 0 args.claimed [] args.transcriptSeed
  let eqp := (List.range args.n).foldl (eqpStep args challenges) 1
  returnIf (running ≠ glcMul args.finalValue eqp) 23
  let qseed := sha256 (t.bytes ++ asciiBytes "queries")
  returnIf (args.nQueries > 64) 24
  let positions ← positionLoop sha256 args qseed args.nQueries 0 []
  (List.range (args.n + 1)).forM (checkLayer sha256 args positions)
  (List.range args.n).forM fun li => positions.forM (checkFold args challenges li)
  returnIf (∃ v ∈ layerVal args args.n, v ≠ args.finalValue) 43

end Verify

/-! ## The wrapper -/

/-- One entry of `layers`, as `_try_compiled_opening_verify` prepares it. -/
structure PreparedLayer where
  indices : List ℕ
  values : List ℤ
  siblingLevels : List ℕ
  siblingIndices : List ℕ
  siblingDigests : Bytes
  leafPrefix : Bytes
  nodePrefix : Bytes
  rootPrefix : Bytes

/-- The offsets `[0]`, extended by the length after every layer. -/
def offsets (lengths : List ℕ) : List ℕ := lengths.scanl (· + ·) 0

def cUint64 (value : ℤ) : ℕ := (value % 2 ^ 64).toNat

/-- `c_multiopen.verify_opening_full` with the library loaded. -/
def verifyOpeningFullWrapper (sha256 : Bytes → Digest) (transcriptSeed : Digest)
    (claimed finalValue : ℤ) (point : List ℤ) (rounds : List Round) (roots dom qdom : Bytes)
    (baseSize : ℕ) (layerShift layerGen : List ℤ) (nQueries : ℕ) (layers : List PreparedLayer) :
    Result (CResult Unit) := do
  let flatRounds ← Merkle.Compiled.arrayQ (rounds.flatMap fun g => [g.1, g.2.1, g.2.2])
  let pointWords ← Merkle.Compiled.arrayQ point
  let shiftWords ← Merkle.Compiled.arrayQ layerShift
  let genWords ← Merkle.Compiled.arrayQ layerGen
  let allVal ← Merkle.Compiled.arrayQ (layers.flatMap (·.values))
  return verifyOpeningFull sha256
    { transcriptSeed, claimed := cUint64 claimed, finalValue := cUint64 finalValue,
      n := rounds.length, point := pointWords, rounds := flatRounds, roots, dom, qdom, baseSize,
      layerShift := shiftWords, layerGen := genWords, nQueries,
      layOff := offsets (layers.map (·.indices.length)),
      allIdx := layers.flatMap (·.indices), allVal,
      sibOff := offsets (layers.map (·.siblingLevels.length)),
      allSibLv := layers.flatMap (·.siblingLevels), allSibIx := layers.flatMap (·.siblingIndices),
      allSibDig := layers.flatMap (·.siblingDigests),
      leafPrefixes := layers.flatMap (·.leafPrefix),
      nodePrefixes := layers.flatMap (·.nodePrefix),
      rootPrefixes := layers.flatMap (·.rootPrefix) }

end Verathos.Pcs.Compiled

namespace Verathos.Pcs

open Merkle Compiled

section Verify

variable (sha256 : Bytes → Digest) (statement : GoldilocksMultilinearPcsStatementV3)

/-- The preparation of one layer in `_try_compiled_opening_verify`. -/
def prepareLayer (constructed : ConstructedOpening) (layerIndex : ℕ) : Result PreparedLayer := do
  let opening := constructed.opening
  let size := statement.codewordSize >>> layerIndex
  let binding := statement.layerBindingDigest sha256 layerIndex
  let header := binding.bytes ++ packI size ++ packI 1
  raiseIf (opening.bindingDigest ≠ binding ∨ opening.leafCount ≠ size ∨ opening.leafWidth ≠ 1)
    (.proofV3VerificationError "mlpcs layer opening metadata is unexpected")
  let values ← exceptMalformed (opening.rows.mapM (getItem · 0))
  return {
    indices := opening.indices, values,
    siblingLevels := opening.siblings.map (·.level),
    siblingIndices := opening.siblings.map (·.index),
    siblingDigests := opening.siblings.flatMap (·.digest.bytes),
    leafPrefix := leafDomain ++ header, nodePrefix := nodeDomain ++ header,
    rootPrefix := rootDomain ++ header }

/-- `_try_compiled_opening_verify`: `true` on success, `false` where the source returns `None`
because the library is not loaded. -/
def tryCompiledOpeningVerify (lib : Bool) (proof : GoldilocksMultilinearOpeningProofV3)
    (commitment : Bytes) (point : List ℤ) (transcriptSeed : Digest) : Result Bool := do
  let n := statement.variableCount
  raiseIf (proof.layerOpenings.length ≠ n + 1 ∨ proof.layerCommitments.length ≠ n)
    (.proofV3VerificationError "mlpcs layer opening count is wrong")
  let root ← fixedBytes32 commitment "mlpcs commitment"
  let layerRoots ← proof.layerCommitments.mapM (fixedBytes32 · "mlpcs layer commitment")
  let roots := root.bytes ++ layerRoots.flatMap (·.bytes)
  let baseSize := statement.codewordSize
  let layerShift ← (List.range n).mapM (domainShift sha256 statement)
  let layerGen ← (List.range n).mapM fun i => goldilocksPrincipalRootOfUnity (baseSize >>> i)
  let layers ← proof.layerOpenings.zipIdx.mapM fun (opening, layerIndex) =>
    prepareLayer sha256 statement opening layerIndex
  let finalValue ← field proof.finalValue "mlpcs final value"
  if lib then
    let result ← verifyOpeningFullWrapper sha256 transcriptSeed proof.claimedValue finalValue point
      proof.roundPolynomials roots challengeDomain queryDomain baseSize layerShift layerGen
      statement.queryCount layers
    match result with
    | .ok () => return true
    | .error _ => throw (.proofV3VerificationError "mlpcs compiled verification failed")
  else return false

/-- `verify_goldilocks_multilinear_opening_v3`. The argument `lib` says whether the compiled
library is loaded; without it the Python loop decides. -/
def verifyGoldilocksMultilinearOpeningV3 (lib : Bool) (proof : GoldilocksMultilinearOpeningProofV3)
    (commitment : Bytes) (point : List ℤ) (expectedValue : ℤ) (validatorNonce : Bytes) :
    Result Unit :=
  exceptMalformed do
    let (point, transcript) ←
      verifyShared sha256 statement proof commitment point expectedValue validatorNonce
    let compiled ← tryCompiledOpeningVerify sha256 statement lib proof commitment point transcript
    if compiled then return ()
    verifyPython sha256 statement lib proof commitment point transcript

end Verify

end Verathos.Pcs
