import Verathos.Pcs.Compiled

/-!
# Round replay of the succinct arguments

A translation of the sumcheck replay that the LogUp argument and the batch opening share:

* `derive`, `eqEval`, `lagrange0123` and `replayRounds` of
  `goldilocks_succinct_logup_argument_reference.py`;
* `replayClaims` of `goldilocks_succinct_batch_opening.py`, with its seed and claim checks;
* `replay_rounds4` of `c_multiopen.c` and its `ctypes` wrapper in `c_multiopen.py`.

The rounds have degree 3: a row holds the values of the round polynomial at 0, 1, 2 and 3. The
entries of a row are any Python integers; how they are read is what the replays differ in.
-/

namespace Verathos.Logup

open Merkle ModularPower Pcs

/-- One row of `round_polynomials`: a tuple of four integers. -/
structure Row where
  e0 : ℤ
  e1 : ℤ
  e2 : ℤ
  e3 : ℤ
deriving DecidableEq

namespace Row

/-- The entries in order. -/
def toList (row : Row) : List ℤ := [row.e0, row.e1, row.e2, row.e3]

/-- `tuple(f(v) for v in row)`. -/
def map (f : ℤ → ℤ) (row : Row) : Row := ⟨f row.e0, f row.e1, f row.e2, f row.e3⟩

/-- `b"".join(v.to_bytes(8, "little") for v in row)`. -/
def bytes (row : Row) : Bytes :=
  fieldBytes row.e0 ++ fieldBytes row.e1 ++ fieldBytes row.e2 ++ fieldBytes row.e3

end Row

/-! ## The compiled replay -/

namespace Compiled

open Pcs.Compiled

variable (sha256 : Bytes → Digest)

/-- The recombination of the four round values at the challenge, with `inv6 = glc_pow(6, p - 2)`. -/
def recombine4 (g0 g1 g2 g3 z : ℕ) : ℕ :=
  let inv6 := glcPow 6 (glP - 2)
  let zm1 := glcSub z 1
  let zm2 := glcSub z 2
  let zm3 := glcSub z 3
  let t0 := glcMul (glcMul g0 (glcMul (glcMul zm1 zm2) zm3)) (glcSub 0 inv6)
  let t1 := glcMul (glcMul g1 (glcMul (glcMul z zm2) zm3)) glcInv2
  let t2 := glcMul (glcMul g2 (glcMul (glcMul z zm1) zm3)) (glcSub 0 glcInv2)
  let t3 := glcMul (glcMul g3 (glcMul (glcMul z zm1) zm2)) inv6
  glcAdd (glcAdd t0 t1) (glcAdd t2 t3)

/-- The round loop of `replay_rounds4`, with `remaining` rounds to go: the challenges written, the
last running value and the transcript. -/
def replayLoop4 (rounds : List ℕ) (dom label : Bytes) (absorbTag : Bool) (indexBase : ℕ) :
    ℕ → ℕ → ℕ → Digest → CResult (List ℕ × ℕ × Digest)
  | 0, _, running, t => .ok ([], running, t)
  | remaining + 1, r, running, t => do
    let g0 := rounds.getD (4 * r) 0
    let g1 := rounds.getD (4 * r + 1) 0
    let g2 := rounds.getD (4 * r + 2) 0
    let g3 := rounds.getD (4 * r + 3) 0
    returnIf (g0 ≥ glP ∨ g1 ≥ glP ∨ g2 ≥ glP ∨ g3 ≥ glP) 50
    returnIf (glcAdd g0 g1 ≠ running) 51
    let t := sha256 (t.bytes ++ (if absorbTag then label else []) ++
      (wordBytes g0 ++ wordBytes g1 ++ wordBytes g2 ++ wordBytes g3))
    let z ← deriveField sha256 dom t label ((indexBase + r) % 2 ^ 32)
    let (challenges, running, t) ← replayLoop4 rounds dom label absorbTag indexBase remaining
      (r + 1) (recombine4 g0 g1 g2 g3 z) t
    return (z :: challenges, running, t)

/-- The number of iterations of `for (int r = 0; r < n; r++)` when `ctypes` passes the Python
integer `n` for the C `int`: the low 32 bits, read as a signed number. -/
def intIterations (n : ℕ) : ℕ := if n % 2 ^ 32 < 2 ^ 31 then n % 2 ^ 32 else 0

/-- `array.array("Q", [v % (1 << 64) for row in rounds for v in row])`. -/
def flatRounds (rounds : List Row) : List ℕ :=
  rounds.flatMap fun row => row.toList.map fun v => (v % 2 ^ 64).toNat

/-- The wrapper `replay_rounds4`: `none` without the library, else the return code or the
challenges, the running value and the transcript. The array `chal` starts with zeros. -/
def replayRounds4 (lib : Bool) (transcriptSeed : Digest) (claimed : ℤ) (rounds : List Row)
    (dom label : Bytes) (absorbTag : Bool) (indexBase : ℕ) :
    Option (CResult (List ℕ × ℕ × Digest)) :=
  if lib then
    let n := rounds.length
    some do
      let (written, running, t) ← replayLoop4 sha256 (flatRounds rounds) dom label absorbTag
        indexBase (intIterations n) 0 (claimed % 2 ^ 64).toNat transcriptSeed
      return ((List.range n).map (written.getD · 0), running, t)
  else none

end Compiled

/-! ## The Python replay -/

def challengeDomain : Bytes :=
  asciiBytes "VERATHOS/PROOF_V3/GOLDILOCKS_SUCCINCT_LOGUP/V1/CHALLENGE"

section Replay

variable (sha256 : Bytes → Digest)

def derive (seed : Digest) (label : Bytes) (index : ℕ) : Result ℤ := do
  raiseIf (index ≥ 2 ^ 32) (.builtin "struct.error")
  rejectionSample
    (fun counter => digestWord (sha256 (challengeDomain ++ seed.bytes ++ label ++ packI index ++
      packI counter)))
    (· < goldilocksModulus) (.proofV3Error "unable to derive a succinct-logup challenge")
    (2 ^ 16) 0

def eqEval (pointA pointB : List ℤ) : Result ℤ := do
  raiseIf (pointA.length ≠ pointB.length) (.builtin "ValueError")
  return (pointA.zip pointB).foldl (fun result (a, b) =>
    result * (((1 - a) * (1 - b) + a * b) % goldilocksModulus) % goldilocksModulus) 1

/-- `_lagrange_0123`: the cubic through the four values, at `z`. -/
def lagrange0123 (evals : Row) (z : ℤ) : Result ℤ := do
  let inv6 ← goldilocksInv 6
  let inv2 ← goldilocksInv 2
  let p : ℤ := goldilocksModulus
  let zm1 := (z - 1) % p
  let zm2 := (z - 2) % p
  let zm3 := (z - 3) % p
  let term0 := evals.e0 * (zm1 * zm2 % p * zm3 % p)
  let term0 := term0 % p * (p - inv6) % p
  let term1 := evals.e1 * (z * zm2 % p * zm3 % p)
  let term1 := term1 % p * inv2 % p
  let term2 := evals.e2 * (z * zm1 % p * zm3 % p)
  let term2 := term2 % p * (p - inv2) % p
  let term3 := evals.e3 * (z * zm1 % p * zm2 % p)
  let term3 := term3 % p * inv6 % p
  return (term0 + term1 + term2 + term3) % p

/-- The round loop of both Python replays: `read` turns a row into the values it stands for,
`absorbed` is hashed between the transcript and the values, and `mismatch` is raised when a round
does not match the running sum. The loop returns the challenges, the last running value and the
transcript. -/
def replayLoop (read : Row → Result Row) (absorbed label : Bytes) (mismatch : PyError) :
    List Row → ℕ → ℤ → Digest → Result (List ℤ × ℤ × Digest)
  | [], _, running, transcript => .ok ([], running, transcript)
  | row :: rows, count, running, transcript => do
    let evals ← read row
    raiseIf ((evals.e0 + evals.e1) % goldilocksModulus ≠ running) mismatch
    let transcript := sha256 (transcript.bytes ++ absorbed ++ evals.bytes)
    let challenge ← derive sha256 transcript label (count + 1)
    let running ← lagrange0123 evals challenge
    let (challenges, running, transcript) ←
      replayLoop read absorbed label mismatch rows (count + 1) running transcript
    return (challenge :: challenges, running, transcript)

/-- `tuple(_field(v, "round evaluation") for v in evals)`. -/
def readField (row : Row) : Result Row := do
  let e0 ← field row.e0 "round evaluation"
  let e1 ← field row.e1 "round evaluation"
  let e2 ← field row.e2 "round evaluation"
  let e3 ← field row.e3 "round evaluation"
  return ⟨e0, e1, e2, e3⟩

/-- `tuple(v % GOLDILOCKS_MODULUS for v in evals)`. -/
def readReduced (row : Row) : Result Row := .ok (row.map (· % goldilocksModulus))

/-- `_replay_rounds`: the last running value, the challenges and the transcript. The argument `lib`
says whether the compiled library is loaded. -/
def replayRounds (lib : Bool) (roundPolynomials : List Row) (claimed : ℤ) (transcript : Digest)
    (tag : Bytes) : Result (ℤ × List ℤ × Digest) :=
  match Compiled.replayRounds4 sha256 lib transcript (claimed % goldilocksModulus) roundPolynomials
      challengeDomain tag true 1 with
  | some (.ok (challenges, running, t)) =>
    .ok (running, challenges.map Nat.cast, t)
  | some (.error _) => .error (.proofV3VerificationError "succinct-logup round replay fails")
  | none => do
    let (challenges, running, transcript) ← replayLoop sha256 readField tag tag
      (.proofV3VerificationError "succinct-logup round does not match the running sum")
      roundPolynomials 0 (claimed % goldilocksModulus) transcript
    return (running, challenges, transcript)

/-- The tags under which the LogUp verifier replays its four sub-arguments. -/
def replayTags : List Bytes :=
  [asciiBytes "dsum", asciiBytes "esum", asciiBytes "dwf", asciiBytes "etf"]

/-! ## Batch opening claims -/

def batchDomain : Bytes := asciiBytes "VERATHOS/PROOF_V3/GOLDILOCKS_BATCH_OPENING/V1"

structure GoldilocksBatchOpeningClaimV3 where
  point : List ℤ
  value : ℤ

/-- `_seed`. -/
def batchSeed (pcsStatement : GoldilocksMultilinearPcsStatementV3) (commitment : Bytes)
    (claims : List GoldilocksBatchOpeningClaimV3) (validatorNonce : Bytes) : Result Digest := do
  let commitment ← fixedBytes32 commitment "commitment"
  let validatorNonce ← fixedBytes32 validatorNonce "validator_nonce"
  return sha256 (batchDomain ++ pcsStatement.validatorBindingDigest.bytes ++
    LittleEndian.toBytes 4 pcsStatement.variableCount ++ commitment.bytes ++
    (claims.flatMap fun claim =>
      (claim.point.flatMap fun coordinate => fieldBytes (coordinate % goldilocksModulus)) ++
        fieldBytes (claim.value % goldilocksModulus)) ++
    validatorNonce.bytes)

def validateClaims (pcsStatement : GoldilocksMultilinearPcsStatementV3)
    (claims : List GoldilocksBatchOpeningClaimV3) : Result Unit := do
  raiseIf (claims = []) (.proofV3Error "batch opening needs at least one claim")
  raiseIf (∃ claim ∈ claims, claim.point.length ≠ pcsStatement.variableCount)
    (.proofV3Error "batch opening claim shape is wrong")

/-- The round stage of `_replay_claims`: the challenges and the last running value. -/
def replayClaimRounds (lib : Bool) (roundPolynomials : List Row) (running : ℤ)
    (transcript : Digest) : Result (List ℤ × ℤ) :=
  match Compiled.replayRounds4 sha256 lib transcript running roundPolynomials challengeDomain
      (asciiBytes "batchopen") false 1 with
  | some (.ok (challenges, running, _)) => .ok (challenges.map Nat.cast, running)
  | some (.error _) => .error (.proofV3VerificationError "batch opening round replay fails")
  | none => do
    let (challenges, running, _) ← replayLoop sha256 readReduced [] (asciiBytes "batchopen")
      (.proofV3VerificationError "batch opening round does not match the running sum")
      roundPolynomials 0 running transcript
    return (challenges, running)

/-- The running sum of the claims, `sum_i c_i * y_i`. -/
def claimSum (coefficients : List ℤ) (claims : List GoldilocksBatchOpeningClaimV3) : ℤ :=
  (coefficients.zip claims).foldl (fun running (coefficient, claim) =>
    (running + coefficient * (claim.value % goldilocksModulus)) % goldilocksModulus) 0

/-- `g_at_point`: the combination `sum_i c_i * eq(point, p_i)`. -/
def eqCombination (coefficients : List ℤ) (claims : List GoldilocksBatchOpeningClaimV3)
    (point : List ℤ) : Result ℤ :=
  (coefficients.zip claims).foldlM (fun g (coefficient, claim) => do
    let eq ← eqEval point (claim.point.map (· % goldilocksModulus))
    return (g + coefficient * eq) % goldilocksModulus) 0

/-- The terminal relation of `_replay_claims`: the point and the claimed value. -/
def terminalClaim (coefficients : List ℤ) (claims : List GoldilocksBatchOpeningClaimV3)
    (challenges : List ℤ) (running : ℤ) : Result (List ℤ × ℤ) := do
  let point := challenges.reverse
  let gAtPoint ← eqCombination coefficients claims point
  raiseIf (gAtPoint = 0)
    (.proofV3VerificationError "batch opening eq combination degenerates")
  return (point, running * powMod gAtPoint (goldilocksModulus - 2) goldilocksModulus %
    goldilocksModulus)

/-- `_replay_claims`: the terminal point and the claimed value. The argument `lib` says whether the
compiled library is loaded. -/
def replayClaims (pcsStatement : GoldilocksMultilinearPcsStatementV3) (lib : Bool)
    (roundPolynomials : List Row) (commitment : Bytes)
    (claims : List GoldilocksBatchOpeningClaimV3) (validatorNonce : Bytes) :
    Result (List ℤ × ℤ) := do
  validateClaims pcsStatement claims
  raiseIf (roundPolynomials.length ≠ pcsStatement.variableCount)
    (.proofV3VerificationError "batch opening arity is wrong")
  let transcript ← batchSeed sha256 pcsStatement commitment claims validatorNonce
  let coefficients ← (List.range claims.length).mapM
    (derive sha256 transcript (asciiBytes "batchcoef"))
  let (challenges, running) ← replayClaimRounds sha256 lib roundPolynomials
    (claimSum coefficients claims) transcript
  terminalClaim coefficients claims challenges running

end Replay

end Verathos.Logup
