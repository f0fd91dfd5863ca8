import Verathos.Lib.PartialFractions
import Verathos.Logup.Defs

/-!
# LogUp membership

The statement of the succinct LogUp argument, `GoldilocksSuccinctLogupStatementV3` of
`goldilocks_succinct_logup_argument_reference.py`, and what its identity says about the witness.

The verifier couples four columns: the witness `W`, the multiplicities `M` over the padded table, and
the inverse columns `D` and `E` (`InverseColumns`). Off the poles this is the rational identity
`∑ 1 / (β + w) = ∑ m / (β + t)` (`inverseColumns_iff`). The sum on the right runs over the padded
table, so the identity puts the witness into the padded table (`mem_paddedTable_of_identity`), and
`tableSound_iff` says for which statements that is the table itself.
-/

namespace Verathos.Logup

open Merkle Pcs PartialFractions

/-! ## Statements -/

def padPow2Len (length : ℕ) : ℕ := 2 ^ max 1 (length - 1).size

theorem le_padPow2Len (length : ℕ) : length ≤ padPow2Len length := by
  have hsize : length - 1 < 2 ^ (length - 1).size := Nat.lt_size_self _
  have hpow : 2 ^ (length - 1).size ≤ padPow2Len length :=
    Nat.pow_le_pow_right (by norm_num) (le_max_right _ _)
  omega

/-- `GoldilocksSuccinctLogupStatementV3`. The fields after `witnessBindingOverride` are what
`__post_init__` checks. -/
structure GoldilocksSuccinctLogupStatementV3 where
  validatorBindingDigest : Digest
  table : List ℤ
  witnessVariableCount : ℕ
  witnessBindingOverride : Option Digest
  binding_ne_zero : validatorBindingDigest ≠ Digest.zero
  table_ne_nil : table ≠ []
  canonical_table : CanonicalVector table
  one_le_witnessVariableCount : 1 ≤ witnessVariableCount

namespace GoldilocksSuccinctLogupStatementV3

variable (statement : GoldilocksSuccinctLogupStatementV3)

def witnessSize : ℕ := 2 ^ statement.witnessVariableCount

def tableSize : ℕ := padPow2Len statement.table.length

def tableVariableCount : ℕ := statement.tableSize.size - 1

def paddedTable : List ℤ :=
  statement.table ++ List.replicate (statement.tableSize - statement.table.length) 0

theorem length_paddedTable : statement.paddedTable.length = statement.tableSize := by
  rw [paddedTable, List.length_append, List.length_replicate]
  exact Nat.add_sub_cancel' (le_padPow2Len _)

theorem canonical_paddedTable : CanonicalVector statement.paddedTable := by
  intro v hv
  rcases List.mem_append.mp hv with hv | hv
  · exact statement.canonical_table v hv
  · rw [List.eq_of_mem_replicate hv]
    decide

theorem mem_paddedTable {v : ℤ} :
    v ∈ statement.paddedTable ↔
      v ∈ statement.table ∨ statement.table.length ≠ statement.tableSize ∧ v = 0 := by
  have hle : statement.table.length ≤ statement.tableSize := le_padPow2Len _
  rw [paddedTable, List.mem_append, List.mem_replicate]
  exact or_congr_right (and_congr_left fun _ => by omega)

end GoldilocksSuccinctLogupStatementV3

/-! ## Columns -/

/-- A committed column: a vector of canonical field elements. -/
structure Column (size : ℕ) where
  values : List ℤ
  length_eq : values.length = size
  canonical : CanonicalVector values

section Identity

variable {statement : GoldilocksSuccinctLogupStatementV3} {β : F}
  {w : Column statement.witnessSize} {m : Column statement.tableSize}

variable (statement β w m) in
/-- What the four sub-arguments of the verifier enforce on the inverse columns `D` and `E` and the
coupling sum `S`. -/
structure InverseColumns (d e : List F) (s : F) : Prop where
  dsum : d.sum = s
  esum : e.sum = s
  dwf : List.Forall₂ (fun x v => x * (β + ((v : ℤ) : F)) = 1) d w.values
  etf : List.Forall₂ (fun x (mt : ℤ × ℤ) => x * (β + (mt.2 : F)) = mt.1) e
    (m.values.zip statement.paddedTable)

variable (statement β w m) in
/-- The LogUp identity at `β`. -/
def Identity : Prop :=
  (w.values.map fun v : ℤ => 1 / (β + (v : F))).sum =
    (List.zipWith (fun multiplicity t : ℤ => (multiplicity : F) / (β + (t : F))) m.values
      statement.paddedTable).sum

variable (statement β w) in
/-- No denominator of the identity vanishes at `β`. -/
def NoPole : Prop :=
  (∀ v ∈ w.values, β + (v : F) ≠ 0) ∧ ∀ t ∈ statement.paddedTable, β + (t : F) ≠ 0

theorem forall₂_mul_eq_iff {α : Type} (x y : α → F) {items : List α}
    (h : ∀ item ∈ items, y item ≠ 0) (column : List F) :
    List.Forall₂ (fun c item => c * y item = x item) column items ↔
      column = items.map fun item => x item / y item := by
  induction items generalizing column with
  | nil => simp [List.forall₂_nil_right_iff]
  | cons item items ih =>
    obtain ⟨hitem, hrest⟩ := List.forall_mem_cons.mp h
    rw [List.forall₂_cons_right_iff]
    simp only [ih hrest, ← eq_div_iff hitem, List.map_cons]
    constructor
    · rintro ⟨_, _, rfl, rfl, rfl⟩
      rfl
    · rintro rfl
      exact ⟨_, _, rfl, rfl, rfl⟩

theorem inverseColumns_iff (hpole : NoPole statement β w) :
    (∃ d e s, InverseColumns statement β w m d e s) ↔ Identity statement β w m := by
  have hd := forall₂_mul_eq_iff (fun _ => 1) (fun v : ℤ => β + (v : F)) hpole.1
  have hpoles : ∀ mt ∈ m.values.zip statement.paddedTable, β + (mt.2 : F) ≠ 0 := fun mt hmt =>
    hpole.2 _ (List.of_mem_zip hmt).2
  have he := forall₂_mul_eq_iff (fun mt : ℤ × ℤ => (mt.1 : F)) (fun mt : ℤ × ℤ => β + (mt.2 : F))
    hpoles
  have hzip : List.zipWith (fun multiplicity t : ℤ => (multiplicity : F) / (β + (t : F))) m.values
      statement.paddedTable = (m.values.zip statement.paddedTable).map
        fun mt => (mt.1 : F) / (β + (mt.2 : F)) := by
    rw [List.zip, List.map_zipWith]
  rw [Identity, hzip]
  constructor
  · rintro ⟨d, e, s, hcolumns⟩
    rw [← (hd d).mp hcolumns.dwf, ← (he e).mp hcolumns.etf, hcolumns.dsum, hcolumns.esum]
  · intro hidentity
    exact ⟨_, _, _, rfl, hidentity.symm, (hd _).mpr rfl, (he _).mpr rfl⟩

/-- The terms of the identity, both sides on the left. -/
def identityTerms (w m padded : List ℤ) : List (F × F) :=
  ((w.map Int.cast).map fun x => (1, x)) ++
    (((m.map Int.cast).zip (padded.map Int.cast)).map fun term => (-term.1, term.2))

theorem identity_iff_poleSum :
    Identity statement β w m ↔
      poleSum β (identityTerms w.values m.values statement.paddedTable) = 0 := by
  rw [identityTerms, poleSum_append, poleSum_neg, ← sub_eq_add_neg, sub_eq_zero, Identity, poleSum,
    poleSum, List.map_map, List.map_map, List.zip_map, List.map_map, List.zip, List.map_zipWith]
  rfl

theorem mem_paddedTable_of_identity {B : Finset F}
    (hcard : statement.witnessSize + statement.tableSize < B.card)
    (hpole : ∀ β ∈ B, NoPole statement β w) (hidentity : ∀ β ∈ B, Identity statement β w m)
    {v : ℤ} (hv : v ∈ w.values) : v ∈ statement.paddedTable := by
  by_contra hnot
  set terms := identityTerms w.values m.values statement.paddedTable with hterms
  have hlength : terms.length = statement.witnessSize + statement.tableSize := by
    simp [hterms, identityTerms, w.length_eq, m.length_eq, statement.length_paddedTable]
  have hpoles : ∀ β ∈ B, ∀ term ∈ terms, β + term.2 ≠ 0 := by
    intro β hβ term hterm
    rcases List.mem_append.mp hterm with hterm | hterm
    · obtain ⟨x, hx, rfl⟩ := List.mem_map.mp hterm
      obtain ⟨u, hu, rfl⟩ := List.mem_map.mp hx
      exact (hpole β hβ).1 u hu
    · obtain ⟨x, hx, rfl⟩ := List.mem_map.mp hterm
      obtain ⟨u, hu, hux⟩ := List.mem_map.mp (List.of_mem_zip hx).2
      rw [← hux]
      exact (hpole β hβ).2 u hu
  have hresidue := residue_eq_zero (hlength.trans_lt hcard) hpoles
    (fun β hβ => identity_iff_poleSum.mp (hidentity β hβ)) (v : F)
  -- no table entry is at `v`, so the residue counts the occurrences of `v` in the witness
  have htable : residue (v : F) (((m.values.map Int.cast).zip (statement.paddedTable.map
      Int.cast)).map fun term => (-term.1, term.2)) = 0 := by
    refine residue_of_not_mem fun term hterm h => hnot ?_
    obtain ⟨x, hx, rfl⟩ := List.mem_map.mp hterm
    obtain ⟨u, hu, hux⟩ := List.mem_map.mp (List.of_mem_zip hx).2
    have huv := (statement.canonical_paddedTable u hu).ext (w.canonical v hv) (hux.trans h)
    rw [← huv]
    exact hu
  rw [hterms, identityTerms, residue_append, htable, add_zero, residue_map_one] at hresidue
  have hpos : 0 < (w.values.map (Int.cast : ℤ → F)).count (v : F) :=
    List.count_pos_iff.mpr (List.mem_map_of_mem hv)
  have hlt : (w.values.map (Int.cast : ℤ → F)).count (v : F) < goldilocksModulus := by
    calc (w.values.map (Int.cast : ℤ → F)).count (v : F)
        ≤ (w.values.map (Int.cast : ℤ → F)).length := List.count_le_length
      _ = statement.witnessSize := by rw [List.length_map, w.length_eq]
      _ < B.card := by omega
      _ ≤ Fintype.card F := Finset.card_le_univ B
      _ = goldilocksModulus := ZMod.card _
  rw [ZMod.natCast_eq_zero_iff] at hresidue
  exact Nat.not_dvd_of_pos_of_lt hpos hlt hresidue

end Identity

/-! ## The table -/

/-- LogUp soundness for a statement: a witness whose identity holds at more points than it has terms
lies in the table of the statement. -/
def TableSound (statement : GoldilocksSuccinctLogupStatementV3) : Prop :=
  ∀ (w : Column statement.witnessSize) (m : Column statement.tableSize),
    (∃ B : Finset F, statement.witnessSize + statement.tableSize < B.card ∧
      ∀ β ∈ B, NoPole statement β w ∧ Identity statement β w m) →
    ∀ v ∈ w.values, v ∈ statement.table

/-- The witness of zeros. -/
def zeroWitness (statement : GoldilocksSuccinctLogupStatementV3) : Column statement.witnessSize where
  values := List.replicate statement.witnessSize 0
  length_eq := List.length_replicate
  canonical := fun v hv => by
    rw [List.eq_of_mem_replicate hv]
    decide

/-- The multiplicities that count the whole witness in the first padding slot. -/
def paddingMultiplicities (statement : GoldilocksSuccinctLogupStatementV3)
    (hpad : statement.table.length < statement.tableSize)
    (hsize : statement.witnessSize < goldilocksModulus) : Column statement.tableSize where
  values := List.replicate statement.table.length 0 ++ (statement.witnessSize : ℤ) ::
    List.replicate (statement.tableSize - statement.table.length - 1) 0
  length_eq := by
    simp
    omega
  canonical := fun v hv => by
    rcases List.mem_append.mp hv with hv | hv
    · rw [List.eq_of_mem_replicate hv]
      decide
    · rcases List.mem_cons.mp hv with rfl | hv
      · exact ⟨Int.natCast_nonneg _, Int.ofNat_lt.mpr hsize⟩
      · rw [List.eq_of_mem_replicate hv]
        decide

theorem sum_zipWith_replicate_zero (β : F) (n : ℕ) (table : List ℤ) :
    (List.zipWith (fun multiplicity t : ℤ => (multiplicity : F) / (β + (t : F)))
      (List.replicate n 0) table).sum = 0 := by
  refine List.sum_eq_zero fun x hx => ?_
  obtain ⟨i, hi, rfl⟩ := List.mem_iff_getElem.mp hx
  simp

theorem identity_paddingMultiplicities {statement : GoldilocksSuccinctLogupStatementV3}
    (hpad : statement.table.length < statement.tableSize)
    (hsize : statement.witnessSize < goldilocksModulus) (β : F) :
    Identity statement β (zeroWitness statement) (paddingMultiplicities statement hpad hsize) := by
  obtain ⟨k, hk⟩ := Nat.exists_eq_add_of_lt hpad
  have hpadding : statement.tableSize - statement.table.length = k + 1 := by omega
  change ((List.replicate statement.witnessSize 0).map fun v : ℤ => 1 / (β + (v : F))).sum =
    (List.zipWith (fun multiplicity t : ℤ => (multiplicity : F) / (β + (t : F)))
      (List.replicate statement.table.length 0 ++ (statement.witnessSize : ℤ) ::
        List.replicate (statement.tableSize - statement.table.length - 1) 0)
      (statement.table ++ List.replicate (statement.tableSize - statement.table.length) 0)).sum
  rw [hpadding, List.replicate_succ, List.zipWith_append (by simp), List.sum_append,
    sum_zipWith_replicate_zero, List.zipWith_cons_cons, List.sum_cons, sum_zipWith_replicate_zero]
  simp [div_eq_mul_inv]

/-- The points at which a denominator of the table vanishes. -/
def tablePoles (statement : GoldilocksSuccinctLogupStatementV3) : Finset F :=
  statement.paddedTable.toFinset.image fun t : ℤ => -(t : F)

theorem not_mem_tablePoles {statement : GoldilocksSuccinctLogupStatementV3} {β : F} :
    β ∉ tablePoles statement ↔ ∀ t ∈ statement.paddedTable, β + (t : F) ≠ 0 := by
  simp only [tablePoles, Finset.mem_image, List.mem_toFinset, not_exists, not_and, Ne,
    neg_eq_iff_add_eq_zero, add_comm β]

theorem card_tablePoles (statement : GoldilocksSuccinctLogupStatementV3) :
    (tablePoles statement).card = statement.paddedTable.toFinset.card := by
  refine Finset.card_image_of_injOn fun a ha b hb h => ?_
  have ha' := statement.canonical_paddedTable a (List.mem_toFinset.mp ha)
  have hb' := statement.canonical_paddedTable b (List.mem_toFinset.mp hb)
  exact ha'.ext hb' (neg_injective h)

theorem card_compl_tablePoles (statement : GoldilocksSuccinctLogupStatementV3) :
    (tablePoles statement)ᶜ.card = goldilocksModulus - statement.paddedTable.toFinset.card := by
  rw [Finset.card_compl, ZMod.card, card_tablePoles]

theorem not_tableSound {statement : GoldilocksSuccinctLogupStatementV3} (hzero : 0 ∉ statement.table)
    (hlength : statement.table.length ≠ statement.tableSize)
    (hpoints : statement.witnessSize + statement.tableSize + statement.paddedTable.toFinset.card <
      goldilocksModulus) : ¬ TableSound statement := by
  intro hsound
  have hpad : statement.table.length < statement.tableSize :=
    lt_of_le_of_ne (le_padPow2Len _) hlength
  have hcard := card_compl_tablePoles statement
  have hmem : ∀ β ∈ (tablePoles statement)ᶜ, ∀ t ∈ statement.paddedTable, β + (t : F) ≠ 0 :=
    fun β hβ => not_mem_tablePoles.mp (Finset.mem_compl.mp hβ)
  have hpadded : (0 : ℤ) ∈ statement.paddedTable :=
    statement.mem_paddedTable.mpr (.inr ⟨hlength, rfl⟩)
  refine hzero (hsound (zeroWitness statement) (paddingMultiplicities statement hpad (by omega))
    ⟨(tablePoles statement)ᶜ, by omega, fun β hβ => ⟨⟨?_, hmem β hβ⟩,
      identity_paddingMultiplicities hpad (by omega) β⟩⟩ 0 ?_)
  · intro v hv
    rw [List.eq_of_mem_replicate hv]
    exact hmem β hβ 0 hpadded
  · exact List.mem_replicate.mpr ⟨(Nat.two_pow_pos _).ne', rfl⟩

/-- The statements for which the identity implies membership in the table: the table holds 0, or it
has no padding, or the field has too few points off the padded table for the identity to hold at
more points than it has terms. -/
theorem tableSound_iff (statement : GoldilocksSuccinctLogupStatementV3) :
    TableSound statement ↔
      0 ∈ statement.table ∨ statement.table.length = statement.tableSize ∨
        goldilocksModulus ≤
          statement.witnessSize + statement.tableSize + statement.paddedTable.toFinset.card := by
  constructor
  · intro hsound
    by_contra hcond
    rw [not_or, not_or, not_le] at hcond
    obtain ⟨hzero, hlength, hpoints⟩ := hcond
    exact not_tableSound hzero hlength hpoints hsound
  · rintro hcond w m ⟨B, hcard, hB⟩ v hv
    have hpadded := mem_paddedTable_of_identity hcard (fun β hβ => (hB β hβ).1)
      (fun β hβ => (hB β hβ).2) hv
    rcases statement.mem_paddedTable.mp hpadded with htable | ⟨hlength, rfl⟩
    · exact htable
    · rcases hcond with hzero | hfull | hpoints
      · exact hzero
      · exact absurd hfull hlength
      · -- there are not enough points off the poles
        have hsubset : B ⊆ (tablePoles statement)ᶜ := fun β hβ =>
          Finset.mem_compl.mpr (not_mem_tablePoles.mpr (hB β hβ).1.2)
        have hB := Finset.card_le_card hsubset
        rw [card_compl_tablePoles] at hB
        omega

/-- A table of three entries. -/
def threeEntryStatement : GoldilocksSuccinctLogupStatementV3 where
  validatorBindingDigest := Digest.one
  table := [1, 2, 3]
  witnessVariableCount := 1
  witnessBindingOverride := none
  binding_ne_zero := Digest.one_ne_zero
  table_ne_nil := by decide
  canonical_table := by simp [CanonicalVector, Canonical, goldilocksModulus]
  one_le_witnessVariableCount := one_le_one_nat

/-- A table of three entries is padded with a zero, and the identity lets the witness `(0, 0)`
through. -/
theorem not_tableSound_threeEntryStatement : ¬ TableSound threeEntryStatement :=
  not_tableSound (by decide) (by decide) (by decide +kernel)

end Verathos.Logup
