import Verathos.Goldilocks.Numpy
import Verathos.Logup.Defs

/-!
# Batch openings

A translation of the reference path of `prove_goldilocks_batch_opening_v3` and of
`verify_goldilocks_batch_opening_v3` in `goldilocks_succinct_batch_opening.py`, with the table of
`_eq_table` of `goldilocks_succinct_logup_argument_reference.py`. The replay of the claims, which
the verifier calls, is in `Verathos.Logup.Defs`.

SHA-256 is a parameter. The argument `lib` says whether the compiled library is loaded, and `numpy`
whether numpy can be imported.
-/

namespace Verathos.BatchOpening

open Logup Merkle Pcs

/-! ## The equality table -/

/-- The numpy loop of `_eq_table`. -/
def eqTableNp (point : List ℤ) : List UInt64 :=
  point.foldl (fun table (r : ℤ) =>
    table.map (fun w => Numpy.glMulNp w (UInt64.ofNat ((1 - r) % goldilocksModulus).toNat)) ++
      table.map fun w => Numpy.glMulNp w (UInt64.ofNat (r % goldilocksModulus).toNat)) [1]

/-- The Python loop of `_eq_table`. -/
def eqTableLoop (point : List ℤ) : List ℤ :=
  point.foldl (fun table (r : ℤ) =>
    let oneMinus := (1 - r) % goldilocksModulus
    table.map (fun w => w * oneMinus % goldilocksModulus) ++
      table.map fun w => w * r % goldilocksModulus) [1]

def eqTable (numpy : Bool) (point : List ℤ) : List ℤ :=
  if numpy ∧ 10 ≤ point.length then (eqTableNp point).map fun w => (w.toNat : ℤ)
  else eqTableLoop point

/-! ## The prover -/

/-- `g_table`. -/
def claimsTable (numpy : Bool) (coefficients : List ℤ) (claims : List GoldilocksBatchOpeningClaimV3)
    (variableCount : ℕ) : List ℤ :=
  (coefficients.zip claims).foldl (fun table (coefficient, claim) =>
    List.zipWith (fun g eqValue => (g + coefficient * eqValue) % goldilocksModulus) table
      (eqTable numpy claim.point)) (List.replicate (1 <<< variableCount) 0)

/-- `evals4[z]` after the cells of one index. -/
def evalStep (workV workG : List ℤ) (half i : ℕ) (z eval : ℤ) : ℤ :=
  let vLo := workV.getD i 0
  let vHi := workV.getD (half + i) 0
  let gLo := workG.getD i 0
  let gHi := workG.getD (half + i) 0
  let vv := (vLo + z * (vHi - vLo)) % goldilocksModulus
  let gg := (gLo + z * (gHi - gLo)) % goldilocksModulus
  (eval + vv * gg) % goldilocksModulus

/-- `evals4` of a round. -/
def roundEvals (workV workG : List ℤ) : Row :=
  let half := workV.length / 2
  (List.range half).foldl (fun row i =>
    ⟨evalStep workV workG half i 0 row.e0, evalStep workV workG half i 1 row.e1,
      evalStep workV workG half i 2 row.e2, evalStep workV workG half i 3 row.e3⟩) ⟨0, 0, 0, 0⟩

/-- The upper half of a vector folded onto the lower one, as a round does with `work_v` and
`work_g`. -/
def foldHalves (work : List ℤ) (half : ℕ) (challenge : ℤ) : List ℤ :=
  (List.range half).map fun i =>
    (work.getD i 0 + challenge * (work.getD (half + i) 0 - work.getD i 0)) % goldilocksModulus

section Hash

variable (sha256 : Bytes → Digest)

/-- The round loop of `_claims_phase`, after `count` rounds: the rounds, the challenges and the last
values. -/
def claimsLoop (count : ℕ) (workV workG : List ℤ) (transcript : Digest) :
    Result (List Row × List ℤ × List ℤ) :=
  if _h : 1 < workV.length then do
    let evals := roundEvals workV workG
    let transcript := sha256 (transcript.bytes ++ evals.bytes)
    let challenge ← derive sha256 transcript (asciiBytes "batchopen") (count + 1)
    let half := workV.length / 2
    let (rounds, challenges, last) ← claimsLoop (count + 1) (foldHalves workV half challenge)
      (foldHalves workG half challenge) transcript
    return (evals :: rounds, challenge :: challenges, last)
  else return ([], [], workV)
termination_by workV.length
decreasing_by
  rw [foldHalves, List.length_map, List.length_range]
  omega

/-- `_claims_phase` without device values: the rounds, the terminal point and the terminal value. -/
def claimsPhase (pcsStatement : GoldilocksMultilinearPcsStatementV3) (numpy : Bool)
    (commitment : Bytes) (values : List ℤ) (claims : List GoldilocksBatchOpeningClaimV3)
    (validatorNonce : Bytes) : Result (List Row × List ℤ × ℤ) := do
  validateClaims pcsStatement claims
  let transcript ← batchSeed sha256 pcsStatement commitment claims validatorNonce
  let coefficients ← (List.range claims.length).mapM
    (derive sha256 transcript (asciiBytes "batchcoef"))
  let gTable := claimsTable numpy coefficients claims pcsStatement.variableCount
  -- the first round reads past the end of `g_table` when there are more values
  raiseIf (2 * (values.length / 2) > gTable.length) (.builtin "IndexError")
  let (rounds, challenges, last) ← claimsLoop sha256 0 (values.map (· % goldilocksModulus)) gTable
    transcript
  let claimed ← getItem last 0
  return (rounds, challenges.reverse, claimed % goldilocksModulus)

structure GoldilocksBatchOpeningProofV3 where
  roundPolynomials : List Row
  opening : GoldilocksMultilinearOpeningProofV3

/-- `prove_goldilocks_batch_opening_v3` without device values. -/
def proveGoldilocksBatchOpeningV3 (pcsStatement : GoldilocksMultilinearPcsStatementV3)
    (lib numpy : Bool) (tree : GoldilocksMerkleTreeReference) (values : List ℤ)
    (claims : List GoldilocksBatchOpeningClaimV3) (validatorNonce : Bytes) :
    Result GoldilocksBatchOpeningProofV3 := do
  let (rounds, point, _) ← claimsPhase sha256 pcsStatement numpy tree.commitment.bytes values claims
    validatorNonce
  let opening ← openGoldilocksMultilinearV3 sha256 pcsStatement lib tree values point validatorNonce
  return ⟨rounds, opening⟩

/-! ## The verifier -/

def verifyGoldilocksBatchOpeningV3 (pcsStatement : GoldilocksMultilinearPcsStatementV3)
    (lib : Bool) (proof : GoldilocksBatchOpeningProofV3) (commitment : Bytes)
    (claims : List GoldilocksBatchOpeningClaimV3) (validatorNonce : Bytes) : Result Unit :=
  exceptListed ["IndexError", "KeyError", "TypeError", "ValueError"]
    "batch opening proof is malformed" do
      let (point, claimed) ← replayClaims sha256 pcsStatement lib proof.roundPolynomials commitment
        claims validatorNonce
      raiseIf (proof.opening.claimedValue % goldilocksModulus ≠ claimed)
        (.proofV3VerificationError "batch opening terminal coupling fails")
      verifyGoldilocksMultilinearOpeningV3 sha256 pcsStatement lib proof.opening commitment point
        proof.opening.claimedValue validatorNonce

end Hash

end Verathos.BatchOpening
