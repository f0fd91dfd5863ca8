import Verathos.Logup.Statement

/-!
# The terminal argmax

A translation of `goldilocks_terminal_argmax.py`: the columns that the prover commits for the logits
of one position, and the relation that the verifier checks between them.

The commitment to a column is a parameter, since it is made on the CPU or on a GPU. `Backend`
collects it with what `column_pcs_statement_v3` reads of its surroundings.
-/

namespace Verathos.TerminalArgmax

open Merkle Pcs

/-! ## Columns -/

def columnDomain : Bytes := asciiBytes "VERATHOS/PROOF_V3/GOLDILOCKS_TILE_COLUMN/V1"

/-- What commits a column. -/
structure Backend where
  sha256 : Bytes → Digest
  cosetProfile : CosetProfile
  queryCount : ℕ
  Tree : Type
  commit : GoldilocksMultilinearPcsStatementV3 → List ℤ → Result Tree

structure SuccinctColumnV3 (Tree : Type) where
  tag : String
  pcsStatement : GoldilocksMultilinearPcsStatementV3
  tree : Tree
  values : List ℤ
  groupTag : Option String := none
  blockPoint : List ℕ := []

section

variable (backend : Backend)

/-- The binding digest of a column. -/
def columnBinding (tileDigest : Digest) (tag : String) : Digest :=
  backend.sha256 (columnDomain ++ tileDigest.bytes ++ asciiBytes tag)

def columnPcsStatementV3 (tileDigest : Digest) (tag : String) (variableCount : ℕ) :
    Result GoldilocksMultilinearPcsStatementV3 :=
  GoldilocksMultilinearPcsStatementV3.postInit (columnBinding backend tileDigest tag).bytes
    variableCount backend.cosetProfile backend.queryCount

def commitSuccinctColumnV3 (tileDigest : Digest) (tag : String) (values : List ℤ)
    (canonicalInput : Bool) : Result (SuccinctColumnV3 backend.Tree) := do
  let n := values.length
  let variableCount := n.size - 1
  raiseIf (1 <<< variableCount ≠ n) (.proofV3Error "tile column length must be a power of two")
  let statement ← columnPcsStatementV3 backend tileDigest tag variableCount
  let canonical := if canonicalInput then values else values.map (· % goldilocksModulus)
  let tree ← backend.commit statement canonical
  return { tag := tag, pcsStatement := statement, tree := tree, values := canonical }

/-- `commit_succinct_column_group_v3`. The members come back in order. -/
def commitSuccinctColumnGroupV3 (tileDigest : Digest) (groupTag : String)
    (ordered : List (String × List ℤ)) :
    Result (SuccinctColumnV3 backend.Tree × List (SuccinctColumnV3 backend.Tree)) := do
  raiseIf (ordered = []) (.proofV3Error "column group needs at least one column")
  let n := (ordered.headI).2.length
  let variableCount := n.size - 1
  raiseIf (1 <<< variableCount ≠ n) (.proofV3Error "group column length must be a power of two")
  let blockBits := (ordered.length - 1).size
  raiseIf (∃ column ∈ ordered, column.2.length ≠ n)
    (.proofV3Error "group columns must share one cube size")
  let concat := (ordered.flatMap Prod.snd) ++
    List.replicate (((1 <<< blockBits) - ordered.length) * n) 0
  let group ← commitSuccinctColumnV3 backend tileDigest groupTag concat true
  let members ← ordered.zipIdx.mapM fun member => do
    let statement ← columnPcsStatementV3 backend tileDigest member.1.1 variableCount
    return { tag := member.1.1, pcsStatement := statement, tree := group.tree,
             values := member.1.2, groupTag := some groupTag,
             blockPoint := (List.range blockBits).map fun j => (member.2 >>> j) &&& 1 }
  return (group, members)

end

/-! ## Geometry -/

def maxTerminalArgmaxLimbsV3 : ℕ := 8

def logitsTag : String := "terminal/argmax/logits"

def limbGroupTag : String := "terminal/argmax/limbs"

def limbTag (index : ℕ) : String := limbGroupTag ++ "/" ++ toString index

def pow2 (value : ℕ) : ℕ := 1 <<< max 1 (value - 1).size

def limbCount (hiddenDim : ℕ) : Result ℕ := do
  let maximum := 2 * hiddenDim * 127 * 127 + 1
  let count := max 1 ((maximum.size + 7) / 8)
  raiseIf (count > maxTerminalArgmaxLimbsV3)
    (.proofV3Error "terminal argmax difference exceeds the supported exact range")
  return count

/-! ## The prover -/

/-- What `_commit_columns` returns. -/
structure Columns (Tree : Type) where
  logitsColumn : SuccinctColumnV3 Tree
  limbGroup : SuccinctColumnV3 Tree
  limbColumns : List (SuccinctColumnV3 Tree)
  limbValues : List (List ℤ)

/-- The difference of the observed token and the token of an index, one less for lower indices. -/
def difference (logits : List ℤ) (observedToken index : ℕ) : ℤ :=
  logits.getD observedToken 0 - logits.getD index 0 - if index < observedToken then 1 else 0

def differences (logits : List ℤ) (observedToken : ℕ) : List ℤ :=
  (List.range logits.length).map (difference logits observedToken)

/-- `padded_logits`, reduced. -/
def fieldLogits (logits : List ℤ) (observedToken : ℕ) : List ℤ :=
  (logits ++ List.replicate (pow2 logits.length - logits.length)
    (logits.getD observedToken 0)).map (· % goldilocksModulus)

def paddedDifferences (logits : List ℤ) (observedToken : ℕ) : List ℤ :=
  differences logits observedToken ++ List.replicate (pow2 logits.length - logits.length) 0

def limbValues (logits : List ℤ) (observedToken limbCount : ℕ) : List (List ℤ) :=
  (List.range limbCount).map fun limb =>
    (paddedDifferences logits observedToken).map fun value => value / 2 ^ (8 * limb) % 256

def commitColumns (backend : Backend) (tileDigest : Digest) (logits : List ℤ)
    (observedToken limbCount : ℕ) : Result (Columns backend.Tree) := do
  raiseIf (∃ value ∈ differences logits observedToken, value < 0)
    (.proofV3Error "observed token is not the tie-stable full-vocabulary argmax")
  raiseIf (∃ value ∈ differences logits observedToken, 2 ^ (8 * limbCount) ≤ value)
    (.proofV3Error "terminal argmax difference exceeds the signed geometry bound")
  let logitsColumn ← commitSuccinctColumnV3 backend tileDigest logitsTag
    (fieldLogits logits observedToken) false
  let values := limbValues logits observedToken limbCount
  let (limbGroup, limbColumns) ← commitSuccinctColumnGroupV3 backend tileDigest limbGroupTag
    (values.zipIdx.map fun limb => (limbTag limb.2, limb.1))
  return { logitsColumn := logitsColumn, limbGroup := limbGroup, limbColumns := limbColumns,
           limbValues := values }

/-! ## The verifier -/

def tie (vocab observedToken : ℕ) : List ℤ :=
  (List.range (pow2 vocab)).map fun index => if index < observedToken then 1 else 0

def decomposed (limbs : List ℤ) : ℤ :=
  (limbs.zipIdx.map fun limb => limb.1 * 2 ^ (8 * limb.2)).sum % goldilocksModulus

def expected (winnerLogit logitsValue tieValue : ℤ) : ℤ :=
  (winnerLogit - logitsValue - tieValue) % goldilocksModulus

/-- The check of `verify_goldilocks_terminal_argmax_v3` on the values of the columns. -/
def relation (limbs : List ℤ) (winnerLogit logitsValue tieValue : ℤ) : Prop :=
  decomposed limbs = expected winnerLogit logitsValue tieValue

end Verathos.TerminalArgmax
