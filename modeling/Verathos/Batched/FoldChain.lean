import Verathos.Batched.Rounds
import Verathos.Pcs.Acceptance

/-!
# The fold chain of a batch

The claim's side of a batch: `Column` is a committed vector with its statement, its point and the
final value that the proof sends for it. With a coefficient for every column and the round
challenges, `layerWord` is the chain of words that the layers of a truthful proof commit: the fold of
the layer above and of the columns that join there. `layerVector` is the same chain on
coefficients.

`layerWord_eq` says that every word is the codeword of its vector, and `layerVector_last` that the
last vector is the combination of the fully bound columns.
-/

namespace Verathos.Batched

open Pcs Multilinear ModularPower

/-- One column of a batch: the committed vector, where it is opened, and the final value that the
proof sends for it. -/
structure Column where
  tag : String
  statement : GoldilocksMultilinearPcsStatementV3
  point : List ℤ
  values : List ℤ
  /-- The final value of the column's share of the proof. -/
  finalValue : ℤ
  cosetProfile_eq : statement.cosetProfile = .chain
  length_point : point.length = statement.variableCount
  canonical_point : CanonicalVector point
  length_values : values.length = 2 ^ statement.variableCount
  canonical_finalValue : Canonical finalValue

namespace Column

variable (master : ℤ) (top : GoldilocksMultilinearPcsStatementV3) (column : Column)

/-- The round in which the column joins a batch with this largest column. -/
def join : ℕ := top.variableCount - column.statement.variableCount

/-- The base shift of the column, from the master shift of the chain. -/
def shift : ℤ :=
  powMod master (1 <<< (chainCapVariables - column.statement.variableCount)) goldilocksModulus

/-- The codeword of the column: its vector as a polynomial, on its own coset. -/
def codeword (i : ℕ) : F :=
  evalPoly (2 ^ column.statement.variableCount) (fieldAt column.values)
    (layerPoint column.statement (column.shift master) 0 i)

theorem baseShift_eq_ok {sha256 : Bytes → Digest} (hmaster : chainMasterShift sha256 = .ok master) :
    column.statement.baseShift sha256 = .ok (column.shift master) := by
  simp only [GoldilocksMultilinearPcsStatementV3.baseShift, column.cosetProfile_eq, chainBaseShift,
    bind_eq_ok, pure_eq_ok]
  exact ⟨master, hmaster, rfl⟩

end Column

theorem variableCount_le_chainCapVariables (statement : GoldilocksMultilinearPcsStatementV3) :
    statement.variableCount ≤ chainCapVariables := by
  have h := variableCount_add_two_le statement
  have hcap : chainCapVariables = 28 := by decide +kernel
  omega

/-- The coset of a column is the layer coset of every larger column, at the layer where it
joins. -/
theorem layerPoint_join (master : ℤ) {top column : Column}
    (hle : column.statement.variableCount ≤ top.statement.variableCount) (i : ℕ) :
    layerPoint column.statement (column.shift master) 0 i =
      layerPoint top.statement (top.shift master) (column.join top.statement) i := by
  have hcap := variableCount_le_chainCapVariables top.statement
  have hroot : top.statement.variableCount + 2 - column.join top.statement =
      column.statement.variableCount + 2 - 0 := by
    rw [Column.join]
    omega
  have hexponent : chainCapVariables - top.statement.variableCount + column.join top.statement =
      chainCapVariables - column.statement.variableCount := by
    rw [Column.join]
    omega
  simp only [layerPoint, hroot, Column.shift, intCast_powMod, Nat.one_shiftLeft, pow_zero, pow_one]
  rw [← pow_mul, ← pow_add, hexponent]

/-! ## Words and vectors -/

section Chain

variable (master : ℤ) (top : Column) (terms : List (F × Column)) (challenges : List ℤ)

/-- The combination of the columns that join at a layer, at one position. -/
def joinedWord (l i : ℕ) : F :=
  (terms.map fun term =>
    if term.2.join top.statement = l then term.1 * term.2.codeword master i else 0).sum

/-- The word of a layer: the fold of the layer above together with the columns that join there.
There is no layer above the committed columns. -/
def layerWord : ℕ → ℕ → F
  | 0, _ => 0
  | l + 1, i =>
    let half := 2 ^ (top.statement.variableCount + 1 - l)
    let valuePos := layerWord l i + joinedWord master top terms l i
    let valueNeg := layerWord l (i + half) + joinedWord master top terms l (i + half)
    let challenge : F := (challenges.getD l 0 : ℤ)
    (1 - challenge) * ((valuePos + valueNeg) * inv2) +
      challenge * ((valuePos - valueNeg) * inv2 *
        (layerPoint top.statement (top.shift master) l i)⁻¹)

/-- The combination of the vectors of the columns that join at a layer. -/
def joinedVector (l i : ℕ) : F :=
  (terms.map fun term =>
    if term.2.join top.statement = l then term.1 * fieldAt term.2.values i else 0).sum

/-- The vector of a layer. -/
def layerVector : ℕ → ℕ → F
  | 0 => fun _ => 0
  | l + 1 => fold ((challenges.getD l 0 : ℤ) : F) fun i =>
      layerVector l i + joinedVector top terms l i

variable {master top terms challenges}

theorem joinedWord_eq (hle : ∀ term ∈ terms,
      term.2.statement.variableCount ≤ top.statement.variableCount) (l i : ℕ) :
    joinedWord master top terms l i =
      evalPoly (2 ^ (top.statement.variableCount - l)) (joinedVector top terms l)
        (layerPoint top.statement (top.shift master) l i) := by
  change _ = evalPoly _ (fun j => (terms.map fun term =>
    if term.2.join top.statement = l then term.1 * fieldAt term.2.values j else 0).sum) _
  rw [evalPoly_list_sum, joinedWord]
  refine congrArg List.sum (List.map_congr_left fun term hterm => ?_)
  split_ifs with hjoin
  · have hcount : term.2.statement.variableCount = top.statement.variableCount - l := by
      have := hle term hterm
      rw [← hjoin, Column.join]
      omega
    rw [evalPoly_smul, Column.codeword, layerPoint_join master (hle term hterm), hjoin, hcount]
  · rw [evalPoly_zero]

theorem layerWord_eq (hshift : ((top.shift master : ℤ) : F) ≠ 0) (hle : ∀ term ∈ terms,
      term.2.statement.variableCount ≤ top.statement.variableCount) {l : ℕ}
    (hl : l ≤ top.statement.variableCount) (i : ℕ) :
    layerWord master top terms challenges l i =
      evalPoly (2 ^ (top.statement.variableCount - l)) (layerVector top terms challenges l)
        (layerPoint top.statement (top.shift master) l i) := by
  induction l generalizing i with
  | zero => exact (evalPoly_zero _ _).symm
  | succ l ih =>
    -- the parent is a codeword too, so the pair determines the folded polynomial
    have hparent : ∀ i, layerWord master top terms challenges l i +
        joinedWord master top terms l i =
          evalPoly (2 * 2 ^ (top.statement.variableCount - (l + 1)))
            (fun j => layerVector top terms challenges l j + joinedVector top terms l j)
            (layerPoint top.statement (top.shift master) l i) := by
      intro i
      rw [← pow_succ', show top.statement.variableCount - (l + 1) + 1 =
        top.statement.variableCount - l by omega, evalPoly_add, ih (by omega), joinedWord_eq hle]
    rw [layerWord]
    simp only [hparent]
    rw [layerPoint_add_half top.statement _ (show l ≤ top.statement.variableCount by omega),
      evalPoly_fold two_mul_inv2
        (mul_inv_cancel₀ (layerPoint_ne_zero top.statement hshift l i)),
      layerPoint_sq top.statement _ (by omega)]
    rfl

/-- A layer vector is the combination of the columns that have joined, bound to the challenges
since. -/
theorem layerVector_eq (hlength : challenges.length = top.statement.variableCount) {l : ℕ}
    (hl : l ≤ top.statement.variableCount) (i : ℕ) :
    layerVector top terms challenges l i =
      (terms.map fun term => if term.2.join top.statement < l then
        term.1 * foldAll (toField ((challenges.take l).drop (term.2.join top.statement)))
          (fieldAt term.2.values) i else 0).sum := by
  induction l generalizing i with
  | zero => simp [layerVector]
  | succ l ih =>
    have hget : challenges[l]? = some (challenges.getD l 0) := by
      rw [List.getD_eq_getElem _ _ (by omega)]
      exact List.getElem?_eq_getElem _
    set c := challenges.getD l 0 with hc
    have htake : challenges.take (l + 1) = challenges.take l ++ [c] := by
      obtain ⟨hlt, heq⟩ := List.getElem?_eq_some_iff.mp hget
      rw [List.take_succ_eq_append_getElem hlt, heq]
    have htakeLength : (challenges.take l).length = l := by
      rw [List.length_take]
      omega
    -- both parts of the parent are sums over the columns
    have hsum : (fun i => layerVector top terms challenges l i + joinedVector top terms l i) =
        fun i => (terms.map fun term => if term.2.join top.statement < l + 1 then
          term.1 * foldAll (toField ((challenges.take l).drop (term.2.join top.statement)))
            (fieldAt term.2.values) i else 0).sum := by
      funext i
      rw [ih (by omega), joinedVector, ← List.sum_map_add]
      refine congrArg List.sum (List.map_congr_left fun term _ => ?_)
      rcases lt_trichotomy (term.2.join top.statement) l with hlt | heq | hgt
      · rw [if_pos hlt, if_neg hlt.ne, if_pos (by omega), add_zero]
      · rw [if_neg (by omega), if_pos heq, if_pos (by omega), heq,
          List.drop_of_length_le htakeLength.le, zero_add]
        rfl
      · rw [if_neg (by omega), if_neg (by omega), if_neg (by omega), add_zero]
    rw [layerVector, hsum, fold_list_sum]
    refine congrArg List.sum (List.map_congr_left fun term _ => ?_)
    by_cases hjoin : term.2.join top.statement < l + 1
    · simp only [if_pos hjoin]
      rw [htake, List.drop_append_of_le_length (by omega), toField_append, foldAll_append,
        fold_smul]
      rfl
    · simp only [if_neg hjoin]
      simp [fold]

theorem layerVector_last (hlength : challenges.length = top.statement.variableCount)
    (hle : ∀ term ∈ terms, term.2.statement.variableCount ≤ top.statement.variableCount) :
    layerVector top terms challenges top.statement.variableCount 0 =
      (terms.map fun term => term.1 *
        foldAll (toField (challenges.drop (term.2.join top.statement)))
          (fieldAt term.2.values) 0).sum := by
  rw [layerVector_eq hlength le_rfl, List.take_of_length_le hlength.le]
  refine congrArg List.sum (List.map_congr_left fun term hterm => ?_)
  rw [if_pos]
  have := term.2.statement.one_le_variableCount
  have := hle term hterm
  rw [Column.join]
  omega

theorem layerWord_last (hshift : ((top.shift master : ℤ) : F) ≠ 0)
    (hlength : challenges.length = top.statement.variableCount)
    (hle : ∀ term ∈ terms, term.2.statement.variableCount ≤ top.statement.variableCount) (i : ℕ) :
    layerWord master top terms challenges top.statement.variableCount i =
      (terms.map fun term => term.1 *
        foldAll (toField (challenges.drop (term.2.join top.statement)))
          (fieldAt term.2.values) 0).sum := by
  rw [layerWord_eq hshift hle le_rfl, Nat.sub_self, pow_zero, evalPoly, Finset.sum_range_one,
    pow_zero, mul_one, layerVector_last hlength hle]

end Chain

end Verathos.Batched
