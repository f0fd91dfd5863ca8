import Verathos.Batched.FoldChain
import Verathos.Merkle.Completeness

/-!
# Batches and their transcripts

A `Batch` is what the claim of the batched opening is about: the columns, the final values sent for
them, the coefficient of the combination and the round challenges. A `Transcript` is everything else
that a run of the verifier reads. `Batch.IsAccepted` says that the verifier accepts a transcript of
the batch whose layers are the true fold chain, and `Batch.Binds` that every such transcript binds
every claim, unless some round is lucky.

`IsAccepted.terminal` says what acceptance means without the error paths.
-/

namespace Verathos.Batched

open Merkle Pcs Multilinear ModularPower

/-! ## Committed words -/

/-- A word of field elements as a table with one value a row. -/
def wordTable (h : ℕ) (word : ℕ → F) : List (List ℤ) :=
  (List.range (2 ^ h)).map fun i => [ofField (word i)]

/-- The root of the tree over a word. -/
def wordCommitment (sha256 : Bytes → Digest) (bindingDigest : Digest) (h : ℕ) (word : ℕ → F) :
    Digest :=
  (honestTree sha256 bindingDigest h 1 (wordTable h word)).commitment

/-- A root and an opening are those of a word. -/
structure Commits (sha256 : Bytes → Digest) (bindingDigest : Digest) (h : ℕ) (word : ℕ → F)
    (root : Bytes) (o : ConstructedOpening) : Prop where
  root_eq : root = (wordCommitment sha256 bindingDigest h word).bytes
  opened : ∀ i ∈ o.opening.indices, (openedValue o i : F) = word i

/-- The statement of the column that the verifier is given. -/
def Column.component (sha256 : Bytes → Digest) (master : ℤ) (column : Column) (claimed : ℤ) :
    BatchedComponentStatementV3 where
  tag := column.tag
  statement := column.statement
  commitment := (wordCommitment sha256 (column.statement.layerBindingDigest sha256 0)
    (column.statement.variableCount + 2) (column.codeword master)).bytes
  point := column.point
  claimedValue := claimed

/-! ## Batches -/

/-- The columns in the order of the verifier. -/
def columnOrder (columns : List Column) : List Column :=
  columns.insertionSort (KeyLe (·.statement) (·.tag))

/-- A batch: columns with the final values sent for them, the coefficient of the combination and
the round challenges. -/
structure Batch where
  columns : List Column
  rho : ℤ
  challenges : List ℤ
  columns_ne_nil : columns ≠ []
  tags_nodup : (columns.map (·.tag)).Nodup
  queryCount_eq : ∀ column ∈ columns, ∀ other ∈ columns,
    column.statement.queryCount = other.statement.queryCount
  /-- There is a challenge for every variable of the largest column. -/
  length_challenges : ∀ top ∈ (columnOrder columns).head?,
    challenges.length = top.statement.variableCount

theorem columnOrder_ne_nil {columns : List Column} (h : columns ≠ []) :
    columnOrder columns ≠ [] := by
  rw [Ne, ← List.length_eq_zero_iff, columnOrder, List.length_insertionSort,
    List.length_eq_zero_iff]
  exact h

namespace Batch

variable (batch : Batch)

/-- The columns in the order of the verifier. -/
def order : List Column := columnOrder batch.columns

/-- The first, largest column. -/
def top : Column := batch.order.head (columnOrder_ne_nil batch.columns_ne_nil)

/-- The columns with their coefficients. -/
def terms : List (F × Column) :=
  batch.order.zipIdx.map fun (column, k) => ((batch.rho : F) ^ k, column)

/-- The challenges of the rounds that a column takes. -/
def columnChallenges (column : Column) : List ℤ :=
  batch.challenges.drop (column.join batch.top.statement)

/-- How far the final value that is sent for a column is off the column itself, with all variables
bound to the challenges. -/
def finalError (column : Column) : F :=
  column.finalValue - foldAll (toField (batch.columnChallenges column)) (fieldAt column.values) 0

/-- The product of the equality terms of a column, by which the verifier multiplies its final
value. -/
def coupling (column : Column) : F :=
  (((toField (batch.columnChallenges column)).zip (toField column.point)).map
    fun x => eqTerm x.1 x.2).prod

/-- The errors of the final values cancel in the combination, and one of them is not lost in the
coupling. -/
def Cancels : Prop :=
  (batch.terms.map fun term => term.1 * batch.finalError term.2).sum = 0 ∧
    ∃ column ∈ batch.columns, batch.finalError column * batch.coupling column ≠ 0

variable {column : Column}

theorem mem_order : column ∈ batch.order ↔ column ∈ batch.columns :=
  List.mem_insertionSort _

theorem head?_order : batch.order.head? = some batch.top := List.head?_eq_some_head _

theorem getElem?_order_zero : batch.order[0]? = some batch.top := by
  rw [← List.head?_eq_getElem?, head?_order]

theorem length_challenges_eq : batch.challenges.length = batch.top.statement.variableCount :=
  batch.length_challenges batch.top batch.head?_order

theorem variableCount_le_top (h : column ∈ batch.columns) :
    column.statement.variableCount ≤ batch.top.statement.variableCount := by
  have htotal : Std.Total (KeyLe Column.statement Column.tag) := ⟨fun a b => by
    rcases lt_trichotomy a.statement.variableCount b.statement.variableCount with hlt | heq | hgt
    · exact Or.inr (Or.inl hlt)
    · rcases le_total a.tag b.tag with hle | hle
      · exact Or.inl (Or.inr ⟨heq, hle⟩)
      · exact Or.inr (Or.inr ⟨heq.symm, hle⟩)
    · exact Or.inl (Or.inl hgt)⟩
  have htrans : IsTrans Column (KeyLe Column.statement Column.tag) := ⟨fun a b c hab hbc => by
    rcases hab with hab | ⟨hab, htag⟩
    · rcases hbc with hbc | ⟨hbc, -⟩
      · exact Or.inl (by omega)
      · exact Or.inl (by omega)
    · rcases hbc with hbc | ⟨hbc, htag'⟩
      · exact Or.inl (by omega)
      · exact Or.inr ⟨by omega, htag.trans htag'⟩⟩
  have hsorted := List.pairwise_insertionSort (KeyLe Column.statement Column.tag) batch.columns
  have hsplit : batch.columns.insertionSort (KeyLe Column.statement Column.tag) =
      batch.top :: batch.order.tail := (List.cons_head_tail _).symm
  have hmem := batch.mem_order.mpr h
  rw [order, columnOrder, hsplit] at hmem
  rw [hsplit] at hsorted
  rcases List.mem_cons.mp hmem with rfl | hmem
  · exact le_rfl
  · rcases List.rel_of_pairwise_cons hsorted hmem with hlt | ⟨heq, -⟩
    · exact hlt.le
    · exact heq.ge

theorem join_add (h : column ∈ batch.columns) :
    column.join batch.top.statement + column.statement.variableCount =
      batch.challenges.length := by
  have := batch.variableCount_le_top h
  rw [Column.join, batch.length_challenges_eq]
  omega

theorem length_columnChallenges (h : column ∈ batch.columns) :
    (batch.columnChallenges column).length = column.point.length := by
  have := batch.join_add h
  rw [columnChallenges, List.length_drop, column.length_point]
  omega

theorem coupling_eq_foldAll (h : column ∈ batch.columns) :
    batch.coupling column =
      foldAll (toField (batch.columnChallenges column)) (eqWeight (toField column.point)) 0 := by
  rw [coupling, foldAll_eqWeight]
  rw [length_toField, length_toField, batch.length_columnChallenges h]

theorem variableCount_le_of_mem_terms {term : F × Column} (h : term ∈ batch.terms) :
    term.2.statement.variableCount ≤ batch.top.statement.variableCount := by
  obtain ⟨⟨column, k⟩, hmem, rfl⟩ := List.mem_map.mp h
  exact batch.variableCount_le_top (batch.mem_order.mp (List.fst_mem_of_mem_zipIdx hmem))

/-- The statements that the verifier is given. -/
def components (sha256 : Bytes → Digest) (master : ℤ) (claimed : Column → ℤ) :
    List BatchedComponentStatementV3 :=
  batch.columns.map fun column => column.component sha256 master (claimed column)

/-- The statements in the order of the verifier. -/
def orderedComponents (sha256 : Bytes → Digest) (master : ℤ) (claimed : Column → ℤ) :
    List BatchedComponentStatementV3 :=
  batch.order.map fun column => column.component sha256 master (claimed column)

theorem sortedOrder_components (sha256 : Bytes → Digest) (master : ℤ) (claimed : Column → ℤ) :
    sortedOrder (·.statement) (·.tag) (batch.components sha256 master claimed) =
      .ok (batch.orderedComponents sha256 master claimed) := by
  have hmap : (batch.components sha256 master claimed).insertionSort
      (KeyLe (·.statement) (·.tag)) = batch.orderedComponents sha256 master claimed :=
    (List.map_insertionSort (r := KeyLe Column.statement Column.tag)
      (s := KeyLe BatchedComponentStatementV3.statement BatchedComponentStatementV3.tag) _ _
      fun a _ b _ => Iff.rfl).symm
  have htags : ((batch.orderedComponents sha256 master claimed).map (·.tag)).Nodup := by
    rw [orderedComponents, List.map_map]
    change (batch.order.map Column.tag).Nodup
    exact (((List.perm_insertionSort _ batch.columns).map Column.tag).nodup_iff).mpr batch.tags_nodup
  simp only [sortedOrder, bind_eq_ok, raiseIf_eq_ok, pure_eq_ok, not_not, hmap]
  exact ⟨(), htags, trivial⟩

end Batch

/-! ## Transcripts -/

/-- A run of the verifier: the derivation of field elements, the claims, the proof and the nonce. -/
structure Transcript where
  derive : Derive
  /-- Whether the compiled helper of the Merkle openings is loaded. -/
  lib : Bool
  claimed : Column → ℤ
  proof : GoldilocksBatchedOpeningProofV3
  validatorNonce : Bytes
  checked : Sumchecks

/-- Round `j` of a column sends a quadratic that is not the honest one but agrees with it at the
challenge of the round. -/
def LuckyRound (column : Column) (rounds : List Round) (challenges : List ℤ) (j : ℕ) : Prop :=
  ∃ g c, rounds[j]? = some g ∧ challenges[j]? = some c ∧
    (∃ z, recombine g z ≠ recombine (honestRoundAt column.values column.point challenges j) z) ∧
    recombine g c = recombine (honestRoundAt column.values column.point challenges j) c

/-- The committed layers are the true fold chain of the batch. -/
def Batch.TrueLayers (batch : Batch) (sha256 : Bytes → Digest) (master : ℤ) (seed : Digest)
    (proof : GoldilocksBatchedOpeningProofV3) : Prop :=
  ∀ l root o, proof.layerCommitments[l]? = some root → proof.layerOpenings[l]? = some o →
    Commits sha256 (batchLayerBinding sha256 seed (l + 1))
      (batch.top.statement.variableCount + 2 - (l + 1))
      (layerWord master batch.top batch.terms batch.challenges (l + 1)) root o

/-- The verifier accepts a transcript of the batch in which every committed layer is the true fold:
the derived coefficient and challenges and the final values are those of the batch. -/
structure Batch.IsAccepted (batch : Batch) (sha256 : Bytes → Digest) (master : ℤ)
    (run : Transcript) : Prop where
  accepts : Accepts (verifyGoldilocksBatchedOpeningV3 sha256 run.derive run.lib run.proof
    (batch.components sha256 master run.claimed) run.validatorNonce)
  sumchecks : verifySumchecks sha256 run.derive run.proof
    (batch.components sha256 master run.claimed) run.validatorNonce = .ok run.checked
  rho_eq : run.checked.rho = batch.rho
  challenges_eq : run.checked.challenges = batch.challenges
  finalValues_eq : run.proof.components.map (·.finalValue) = batch.order.map (·.finalValue)
  layers : batch.TrueLayers sha256 master run.checked.seed run.proof

/-- Every claim of the transcript is right. -/
def Batch.ClaimsHold (batch : Batch) (run : Transcript) : Prop :=
  ∀ column ∈ batch.columns, run.claimed column = multilinearExtension column.values column.point

/-- Some column of the transcript has a lucky round. -/
def Batch.SomeLucky (batch : Batch) (run : Transcript) : Prop :=
  ∃ column wire j, (column, wire) ∈ batch.order.zip run.proof.components ∧
    LuckyRound column wire.roundPolynomials (batch.columnChallenges column) j

/-- The batched opening binds every claim of the batch. -/
def Batch.Binds (batch : Batch) (sha256 : Bytes → Digest) (master : ℤ) : Prop :=
  ∀ run, batch.IsAccepted sha256 master run → batch.ClaimsHold run ∨ batch.SomeLucky run

/-! ## What the sumchecks accept -/

section Sumchecks

variable {sha256 : Bytes → Digest} {master : ℤ}

theorem getElem?_powersFrom (rho : ℤ) {count k : ℕ} (hk : k < count) (acc : ℤ) :
    ∃ power, (powersFrom rho count acc)[k]? = some power ∧ (power : F) = acc * rho ^ k := by
  induction count generalizing k acc with
  | zero => exact absurd hk (Nat.not_lt_zero k)
  | succ count ih =>
    cases k with
    | zero => exact ⟨acc, rfl, by rw [pow_zero, mul_one]⟩
    | succ k =>
      obtain ⟨power, hpower, hvalue⟩ := ih (Nat.lt_of_succ_lt_succ hk) (acc * rho % goldilocksModulus)
      refine ⟨power, hpower, ?_⟩
      rw [hvalue, intCast_emod, Int.cast_mul, pow_succ']
      ring

@[simp]
theorem length_powersFrom (rho : ℤ) (count : ℕ) (acc : ℤ) :
    (powersFrom rho count acc).length = count := by
  induction count generalizing acc with
  | zero => rfl
  | succ count ih => rw [powersFrom, List.length_cons, ih]

/-- The lanes that the verifier makes of a batch. -/
def Batch.lanes (batch : Batch) (sha256 : Bytes → Digest) (master : ℤ) (claimed : Column → ℤ)
    (wires : List GoldilocksBatchedComponentOpeningV3) : List Lane :=
  lanesOf batch.top.statement.variableCount batch.rho
    (batch.orderedComponents sha256 master claimed) wires

theorem Batch.getElem?_lanes (batch : Batch) (claimed : Column → ℤ)
    {wires : List GoldilocksBatchedComponentOpeningV3} {k : ℕ} {column : Column}
    {wire : GoldilocksBatchedComponentOpeningV3} (hcolumn : batch.order[k]? = some column)
    (hwire : wires[k]? = some wire) :
    ∃ power, (batch.lanes sha256 master claimed wires)[k]? =
        some ⟨column.component sha256 master (claimed column), wire,
          column.join batch.top.statement, power⟩ ∧
      (power : F) = (batch.rho : F) ^ k := by
  have hk : k < (batch.orderedComponents sha256 master claimed).length := by
    rw [orderedComponents, List.length_map]
    exact (List.getElem?_eq_some_iff.mp hcolumn).1
  obtain ⟨power, hpower, hvalue⟩ := getElem?_powersFrom batch.rho hk 1
  refine ⟨power, ?_, by rw [hvalue, Int.cast_one, one_mul]⟩
  have hcomponent : (batch.orderedComponents sha256 master claimed)[k]? =
      some (column.component sha256 master (claimed column)) := by
    rw [orderedComponents, List.getElem?_map, hcolumn, Option.map_some]
  have hzip : ((batch.orderedComponents sha256 master claimed).zip (wires.zip
      (powersFrom batch.rho (batch.orderedComponents sha256 master claimed).length 1)))[k]? =
      some (column.component sha256 master (claimed column), wire, power) :=
    List.getElem?_zip_eq_some.mpr ⟨hcomponent, List.getElem?_zip_eq_some.mpr ⟨hwire, hpower⟩⟩
  rw [lanes, lanesOf, List.getElem?_map, hzip]
  rfl

end Sumchecks

end Verathos.Batched
