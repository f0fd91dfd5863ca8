import Verathos.Merkle.Defs

/-!
# The projection fold

A translation of `lean_projection_fold.py`: the four random folds of the registered weights that
check one disclosed row of a projection.

The commitments of `pcs_v2` and the hash functions are collected in `Platform`; the modulus of the
Pallas scalars comes from the same package.
-/

namespace Verathos.ProjectionFold

open Merkle (packI)

/-- What the module uses of other packages. -/
structure Platform where
  sha256 : Bytes → Digest
  shake256 : Bytes → ℕ → Bytes
  length_shake256 : ∀ message length, (shake256 message length).length = length
  Commitment : Type
  decEq : DecidableEq Commitment
  commit : List ℤ → Result Commitment
  combineRegisteredCatalogU63 : Digest → List ℤ → ℕ → Result Commitment
  pallasScalarModulus : ℕ

instance (p : Platform) : DecidableEq p.Commitment := p.decEq

def leanProjectionFoldCountV3 : ℕ := 4

def leanProjectionCoefficientBitsV3 : ℕ := 31

def transcriptDomain : Bytes :=
  asciiBytes "VERATHOS/PROOF_V3/LEAN_PROJECTION_FOLD/U31X4/V1/SHAKE256"

def fixed32 (value : Bytes) (name : String) (nonzero : Bool) : Result Digest :=
  if h : value.length = 32 then
    if nonzero ∧ ¬ ∃ byte ∈ value, byte ≠ 0 then
      .error (.proofV3Error (name ++ " must be exactly 32 bytes"))
    else .ok ⟨value, h⟩
  else .error (.proofV3Error (name ++ " must be exactly 32 bytes"))

def signedI8Row (values : List ℤ) (length : ℕ) (name : String) : Result (List ℤ) := do
  raiseIf (values.length ≠ length ∨ ∃ value ∈ values, value < -128 ∨ 127 < value)
    (.proofV3Error (name ++ " is not a canonical signed-i8 row"))
  return values

def signedI64Row (values : List ℤ) (length : ℕ) (name : String) : Result (List ℤ) := do
  raiseIf (values.length ≠ length ∨ ∃ value ∈ values, value < -2 ^ 63 ∨ 2 ^ 63 ≤ value)
    (.proofV3Error (name ++ " is not a canonical signed-i64 row"))
  return values

/-- `LeanProjectionStatementV3`, with what its constructor checks. -/
structure LeanProjectionStatementV3 where
  validatorBindingDigest : Digest
  operationDigest : Digest
  inputDim : ℕ
  paddedInputDim : ℕ
  outputDim : ℕ
  binding_ne_zero : validatorBindingDigest ≠ Digest.zero
  operation_ne_zero : operationDigest ≠ Digest.zero
  inputDim_pos : 0 < inputDim
  outputDim_pos : 0 < outputDim
  paddedInputDim_pow : paddedInputDim &&& (paddedInputDim - 1) = 0
  inputDim_le : inputDim ≤ paddedInputDim
  outputDim_lt : outputDim < 2 ^ 32
  paddedInputDim_lt : paddedInputDim < 2 ^ 32

def LeanProjectionStatementV3.digest (statement : LeanProjectionStatementV3)
    (sha256 : Bytes → Digest) : Digest :=
  sha256 (transcriptDomain ++ asciiBytes "/STATEMENT/" ++ statement.validatorBindingDigest.bytes ++
    statement.operationDigest.bytes ++ packI statement.inputDim ++
    packI statement.paddedInputDim ++ packI statement.outputDim)

/-- `LeanProjectionFoldV3`, with what its constructor checks. -/
structure LeanProjectionFoldV3 where
  foldedWeights : List (List ℤ)
  length_eq : foldedWeights.length = leanProjectionFoldCountV3
  width_eq : ∀ row ∈ foldedWeights, row.length = foldedWeights.headI.length
  signed : ∀ row ∈ foldedWeights, ∀ value ∈ row, -2 ^ 63 ≤ value ∧ value < 2 ^ 63

def LeanProjectionFoldV3.postInit (foldedWeights : List (List ℤ)) :
    Result LeanProjectionFoldV3 :=
  if hlength : foldedWeights.length = leanProjectionFoldCountV3 then
    if hwidth : ∀ row ∈ foldedWeights, row.length = foldedWeights.headI.length then
      if hsigned : ∀ row ∈ foldedWeights, ∀ value ∈ row, -2 ^ 63 ≤ value ∧ value < 2 ^ 63 then
        .ok ⟨foldedWeights, hlength, hwidth, hsigned⟩
      else .error (.proofV3Error "lean projection folded weight exceeds signed i64")
    else .error (.proofV3Error "lean projection folded weights are ragged")
  else .error (.proofV3Error "lean projection fold count is wrong")

/-- `zip(xs, ys, strict=True)`. -/
def zipStrict {α β : Type} (xs : List α) (ys : List β) : Result (List (α × β)) := do
  raiseIf (xs.length ≠ ys.length) (.builtin "ValueError")
  return xs.zip ys

/-- The sum of the columns, each times its coefficient, at one place. -/
def combineAt (columns : List (List ℤ)) (coefficients : List ℤ) (inner : ℕ) : ℤ :=
  (coefficients.zipWith (fun coefficient column => coefficient * column.getD inner 0)
    columns).sum

/-- The sum of the columns, each times its coefficient. -/
def combination (columns : List (List ℤ)) (coefficients : List ℤ) (width : ℕ) : List ℤ :=
  (List.range width).map (combineAt columns coefficients)

section

variable (p : Platform)

/-- The transcript that the coefficients are derived from. -/
def transcript (statement : LeanProjectionStatementV3) (nonce : Digest) (x output : List ℤ) :
    Bytes :=
  transcriptDomain ++ (statement.digest p.sha256).bytes ++ nonce.bytes ++
    x.map (fun value => UInt8.ofNat (value % 256).toNat) ++
    output.flatMap (LittleEndian.toBytesSigned 8)

/-- A coefficient: a little-endian word of the raw bytes, masked. -/
def coefficientWord (raw : Bytes) (index : ℕ) : ℤ :=
  (LittleEndian.toNat ((raw.drop (4 * index)).take 4) &&&
    ((1 <<< leanProjectionCoefficientBitsV3) - 1) : ℕ)

/-- The raw bytes in four rows of coefficients. -/
def coefficientRows (statement : LeanProjectionStatementV3) (raw : Bytes) : List (List ℤ) :=
  (List.range leanProjectionFoldCountV3).map fun fold =>
    (List.range statement.outputDim).map fun j =>
      coefficientWord raw (fold * statement.outputDim + j)

def deriveLeanProjectionCoefficientsV3 (statement : LeanProjectionStatementV3)
    (validatorNonce : Bytes) (inputRowI8 surrogateOutputI64 : List ℤ) :
    Result (List (List ℤ)) := do
  let nonce ← fixed32 validatorNonce "lean projection validator nonce" true
  let x ← signedI8Row inputRowI8 statement.inputDim "lean projection input"
  let output ← signedI64Row surrogateOutputI64 statement.outputDim
    "lean projection surrogate output"
  let count := leanProjectionFoldCountV3 * statement.outputDim
  let raw := p.shake256 (transcript p statement nonce x output) (count * 4)
  return coefficientRows statement raw

def buildLeanProjectionFoldReferenceV3 (statement : LeanProjectionStatementV3)
    (validatorNonce : Bytes) (inputRowI8 surrogateOutputI64 : List ℤ)
    (weightColumnsI8 : List (List ℤ)) : Result LeanProjectionFoldV3 := do
  let columns ← weightColumnsI8.zipIdx.mapM fun column =>
    signedI8Row column.1 statement.paddedInputDim
      ("lean projection weight column " ++ toString column.2)
  raiseIf (columns.length ≠ statement.outputDim)
    (.proofV3Error "lean projection weight column count is wrong")
  let coefficients ← deriveLeanProjectionCoefficientsV3 p statement validatorNonce inputRowI8
    surrogateOutputI64
  let folds ← coefficients.mapM fun foldCoefficients => do
    let row := combination columns foldCoefficients statement.paddedInputDim
    let _ ← signedI64Row row statement.paddedInputDim "lean projection folded weight"
    return row
  LeanProjectionFoldV3.postInit folds

/-- The check of one fold. -/
def verifyFold (statement : LeanProjectionStatementV3) (catalog : Digest)
    (xPadded output : List ℤ) (foldIndex : ℕ) (row rowCoefficients : List ℤ) : Result Unit := do
  let expectedCommitment ←
    p.combineRegisteredCatalogU63 catalog rowCoefficients statement.outputDim
  let actualCommitment ← p.commit row
  raiseIf (actualCommitment ≠ expectedCommitment)
    (.proofV3VerificationError ("lean projection fold " ++ toString foldIndex ++
      " is not a fold of the authenticated weights"))
  let leftPairs ← zipStrict xPadded row
  let left := (leftPairs.map fun pair => pair.1 * pair.2).sum % p.pallasScalarModulus
  let rightPairs ← zipStrict output rowCoefficients
  let right := (rightPairs.map fun pair => pair.1 * pair.2).sum % p.pallasScalarModulus
  raiseIf (left ≠ right)
    (.proofV3VerificationError ("lean projection fold " ++ toString foldIndex ++
      " does not bind the complete output row"))

def verifyLeanProjectionFoldV3 (statement : LeanProjectionStatementV3) (fold : LeanProjectionFoldV3)
    (validatorNonce : Bytes) (inputRowI8 surrogateOutputI64 : List ℤ) (catalogId : Bytes) :
    Result Unit :=
  exceptListed ["OverflowError", "TypeError", "ValueError"]
      "lean projection fold is malformed" do
    let catalog ← fixed32 catalogId "lean projection registered catalog id" true
    let x ← signedI8Row inputRowI8 statement.inputDim "lean projection input"
    let output ← signedI64Row surrogateOutputI64 statement.outputDim
      "lean projection surrogate output"
    raiseIf (∃ row ∈ fold.foldedWeights, row.length ≠ statement.paddedInputDim)
      (.proofV3VerificationError "lean projection folded weight width is wrong")
    let coefficients ← deriveLeanProjectionCoefficientsV3 p statement validatorNonce x output
    let xPadded := x ++ List.replicate (statement.paddedInputDim - statement.inputDim) 0
    let pairs ← zipStrict fold.foldedWeights coefficients
    pairs.zipIdx.forM fun item =>
      verifyFold p statement catalog xPadded output item.2 item.1.1 item.1.2

end

end Verathos.ProjectionFold
