import Verathos.Batched.Queries
import Verathos.Pcs.Completeness

/-!
# Forged openings

When the errors of the final values cancel, the verifier accepts wrong claims. Every column runs a
shifted sumcheck (`Multilinear.shiftedRounds`) that ends in the final value of the batch, and the
layers are the true fold chain, committed and opened honestly.

* `wordOpened` is the honest opening of a word; unlike the CPU tree, it has every size that an
  opening may have.
* `columnChecked_forged` and `not_luckyRound_forged` are the forged sumchecks.
-/

namespace Verathos.Batched

open Merkle Pcs Multilinear

/-! ## Openings of words -/

section Words

variable {sha256 : Bytes → Digest} {bindingDigest : Digest} {h : ℕ} {word : ℕ → F}
  {indices : List ℕ}

theorem getD_wordTable {i : ℕ} (hi : i < 2 ^ h) : (wordTable h word).getD i [] = [ofField (word i)] := by
  rw [List.getD_eq_getElem _ _ (by simpa [wordTable] using hi)]
  simp [wordTable]

theorem admitted_wordOpening (sha256 : Bytes → Digest) (bindingDigest : Digest) (word : ℕ → F)
    (hh : h ≤ 30) (hindices : IndicesAdmitted (2 ^ h) indices)
    (hfew : indices.length ≤ 2 * maxQueryCount) :
    (honestOpening sha256 bindingDigest h 1 (wordTable h word) indices).Admitted where
  abi := rfl
  leafCount := ⟨h, hh, rfl⟩
  leafWidth := ⟨le_rfl, by norm_num [honestOpening, maxLeafWidth]⟩
  indices := hindices
  rows := by
    refine ⟨by simpa [honestOpening] using hindices.ne_nil, by simp [honestOpening], 1,
      by simp [honestOpening], le_rfl, by norm_num [maxLeafWidth], ?_, ?_⟩
    · intro row hrow
      obtain ⟨i, hi, rfl⟩ := List.mem_map.mp hrow
      rw [getD_wordTable (hindices.lt i hi)]
      exact ⟨rfl, by simpa using canonical_ofField (word i)⟩
    · simp only [honestOpening, List.length_map, mul_one]
      exact hfew.trans (by decide)
  siblings := by
    have hcount := Multiproof.length_schedule_le_mul h 0 indices.toFinset
    have hcard : indices.toFinset.card ≤ 2 * maxQueryCount :=
      (List.toFinset_card_le indices).trans hfew
    have hmul : h * indices.toFinset.card ≤ 30 * (2 * maxQueryCount) := Nat.mul_le_mul hh hcard
    simp only [honestOpening, List.length_map]
    exact hcount.trans (hmul.trans (by decide))
  coordinates := by
    rw [coordinates_honestOpening, honestOpening, height_two_pow]

/-- The honest opening of a word, as an object with the invariant of its constructor. -/
def wordOpened (sha256 : Bytes → Digest) (bindingDigest : Digest) (word : ℕ → F) (hh : h ≤ 30)
    (hindices : IndicesAdmitted (2 ^ h) indices) (hfew : indices.length ≤ 2 * maxQueryCount) :
    ConstructedOpening :=
  ⟨honestOpening sha256 bindingDigest h 1 (wordTable h word) indices,
    admitted_wordOpening sha256 bindingDigest word hh hindices hfew⟩

variable {hh : h ≤ 30} {hindices : IndicesAdmitted (2 ^ h) indices}
  {hfew : indices.length ≤ 2 * maxQueryCount}

theorem openedValue_wordOpened {i : ℕ} (hi : i ∈ indices) :
    openedValue (wordOpened sha256 bindingDigest word hh hindices hfew) i = ofField (word i) := by
  have hrow : (wordOpened sha256 bindingDigest word hh hindices hfew).opening.openedRow i =
      (wordTable h word).getD i [] :=
    Multiproof.assoc_map (fun i => (wordTable h word).getD i []) [] hi
  rw [openedValue, hrow, getD_wordTable (hindices.lt i hi)]
  rfl

theorem commits_wordOpened :
    Commits sha256 bindingDigest h word (wordCommitment sha256 bindingDigest h word).bytes
      (wordOpened sha256 bindingDigest word hh hindices hfew) :=
  ⟨rfl, fun i hi => by
    have hi' : i ∈ indices := hi
    rw [openedValue_wordOpened hi', intCast_ofField]⟩

theorem verify_wordOpened (lib : Bool) {size : ℕ} (hsize : size = 2 ^ h) :
    Accepts (verifyGoldilocksMerkleMultiopeningReference sha256 lib
      (wordCommitment sha256 bindingDigest h word).bytes
      (wordOpened sha256 bindingDigest word hh hindices hfew).opening bindingDigest.bytes size 1
      indices) := by
  subst hsize
  refine ((wordOpened sha256 bindingDigest word hh hindices hfew).verify_accepts_iff sha256 lib _ _ _
    _ _).mpr ⟨rfl, rfl, rfl, rfl, ?_, fun _ => by norm_num [wordOpened, honestOpening]⟩
  rw [wordOpened, rawRoot_honestOpening sha256 bindingDigest hindices]
  rfl

end Words

theorem length_layerQueryIndices_le (positions : List ℕ) (size : ℕ) (isFinal : Bool) :
    (layerQueryIndices positions size isFinal).length ≤ 2 * positions.length := by
  rw [layerQueryIndices, Finset.length_sort, layerQuerySet]
  split_ifs
  · refine (List.toFinset_card_le _).trans ?_
    rw [List.length_map]
    omega
  · refine (List.toFinset_card_le _).trans (le_of_eq ?_)
    simp [List.length_flatMap, mul_comm]

/-! ## The forged sumchecks -/

namespace Batch

variable (batch : Batch)

/-- By how much the chain of a column has to end off the honest value. -/
def chainShift (column : Column) : F := batch.finalError column * batch.coupling column

local instance atLeastTwo : Nat.AtLeastTwo 2 := ⟨le_rfl⟩

/-- The claim of the forged sumcheck. -/
def forgedClaim (column : Column) : ℤ :=
  ofField (mle (toField column.point) (fieldAt column.values) +
    2 ^ column.statement.variableCount * batch.chainShift column)

/-- The rounds of the forged sumcheck. -/
def forgedRounds (column : Column) : List Round :=
  (shiftedRounds (toField (batch.columnChallenges column)) (fieldAt column.values)
    (eqWeight (toField column.point)) (batch.chainShift column)).map Round.ofField

variable {batch} {column : Column}

theorem length_toField_columnChallenges (hcolumn : column ∈ batch.columns) :
    (toField (batch.columnChallenges column)).length = column.statement.variableCount := by
  rw [length_toField, batch.length_columnChallenges hcolumn, column.length_point]

theorem columnChecked_forged (hcolumn : column ∈ batch.columns)
    {wire : GoldilocksBatchedComponentOpeningV3}
    (hrounds : wire.roundPolynomials = batch.forgedRounds column)
    (hfinal : wire.finalValue = column.finalValue) :
    ColumnChecked batch column wire (batch.forgedClaim column) := by
  have hlength := length_toField_columnChallenges hcolumn
  refine ⟨?_, canonical_ofField _, ?_⟩
  · rw [hrounds, forgedRounds, List.length_map, length_shiftedRounds, hlength]
  · have hchain := chain_shiftedRounds two_mul_inv2 (toField (batch.columnChallenges column))
      (fieldAt column.values) (eqWeight (toField column.point)) (batch.chainShift column)
    have hstart : mle (toField column.point) (fieldAt column.values) =
        Multilinear.inner (toField (batch.columnChallenges column)).length (fieldAt column.values)
          (eqWeight (toField column.point)) := by
      rw [mle, length_toField, hlength, column.length_point]
    have hcanonical := roundChain_of_chain
      (by rw [length_shiftedRounds, length_toField]) hchain
    rw [hlength] at hcanonical hstart
    rw [← hstart] at hcanonical
    rw [hrounds]
    refine ⟨_, hcanonical, canonical_ofField _, ?_⟩
    -- the shift turns the true end of the chain into the final value that is sent
    rw [intCast_ofField, hfinal, chainShift, ← batch.coupling_eq_foldAll hcolumn, finalError]
    ring

theorem not_luckyRound_forged (hcolumn : column ∈ batch.columns) (j : ℕ) :
    ¬ LuckyRound column (batch.forgedRounds column) (batch.columnChallenges column) j := by
  rintro ⟨g, c, hg, hc, ⟨z, hne⟩, hagree⟩
  have hlength := length_toField_columnChallenges hcolumn
  have hcount := batch.length_columnChallenges hcolumn
  have hj : j < column.point.length := hcount ▸ (List.getElem?_eq_some_iff.mp hc).1
  obtain ⟨-, hspec⟩ := @honestRoundAt_spec _ (batch.columnChallenges column) _
    (by rw [column.length_values, column.length_point]) hcount _ hj
  have hj' : j < (toField (batch.columnChallenges column)).length := by
    rwa [hlength, ← column.length_point]
  rw [forgedRounds, List.getElem?_map, getElem?_shiftedRounds hj', Option.map_some,
    Option.some.injEq, hlength, ← column.length_point, ← hspec] at hg
  -- the round is off the honest one by a constant at every point
  have hquad : ∀ z : ℤ, ((recombine g z : ℤ) : F) = (recombine (honestRoundAt column.values
      column.point (batch.columnChallenges column) j) z : ℤ) +
        2 ^ (column.point.length - 1 - j) * batch.chainShift column := by
    intro z
    rw [← hg, intCast_recombine, Round.toField_ofField, quad_add, quad_const two_mul_inv2,
      intCast_recombine]
  have hzero : 2 ^ (column.point.length - 1 - j) * batch.chainShift column = 0 := by
    have h := hquad c
    rw [hagree] at h
    exact add_eq_left.mp h.symm
  refine hne ((canonical_emod _).ext (canonical_emod _) ?_)
  have h := hquad z
  rw [hzero, add_zero] at h
  exact h

theorem forgedClaim_ne (h : batch.chainShift column ≠ 0) :
    batch.forgedClaim column ≠ multilinearExtension column.values column.point := by
  intro heq
  have hcast := congrArg (Int.cast : ℤ → F) heq
  rw [forgedClaim, intCast_ofField, intCast_multilinearExtension] at hcast
  exact mul_ne_zero (pow_ne_zero _ two_ne_zero_F) h (add_eq_left.mp hcast)

end Batch

end Verathos.Batched
