import Verathos.Lib.ByteReader
import Verathos.Merkle.Completeness
import Verathos.Pcs.Defs

/-!
# The compact wire codec

A translation of `_pack_opening`, `_unpack_opening` and `_transform` of `wire_codec.py`, and the
exact condition under which an opening survives the round trip.

* `packOpening` writes an opening field by field with `struct.pack`, which raises when a value does
  not fit its field. Of every opened row it writes the first element.
* `unpackOpening` reads the fields back and runs the constructors. The offset of the source is the
  input that is left from it on.
* `Packable` is what an opening must satisfy beyond its constructors: canonical words in the rounds,
  counts within sixteen bits, layer commitments of 32 bytes and rows of one element.

The pickle of the scaffolding around the openings is the standard library's and is not modelled;
`transform` is the walk over the scaffolding that replaces the openings.
-/

namespace Verathos.Wire

open Merkle Pcs ByteReader

/-! ## Fixed-width fields -/

/-- The exception of `struct.pack` and `struct.unpack_from`. -/
def structError : PyError := .builtin "struct.error"

/-- One unsigned field of `struct.pack("<…", value)`; `B`, `H`, `I` and `Q` have one, two, four and
eight bytes. -/
def packUnsigned (width : ℕ) (value : ℤ) : Result Bytes := do
  raiseIf (value < 0 ∨ 256 ^ width ≤ value) structError
  return LittleEndian.toBytes width value.toNat

/-- One unsigned field of `struct.unpack_from("<…", data, off)`. -/
def unpackUnsigned (width : ℕ) : Reader PyError ℕ := unsigned structError width

variable {bytes : Bytes}

variable {width : ℕ} {value : ℤ}

@[simp]
theorem packUnsigned_eq_ok :
    packUnsigned width value = .ok bytes ↔
      (0 ≤ value ∧ value < 256 ^ width) ∧ bytes = LittleEndian.toBytes width value.toNat := by
  simp only [packUnsigned, bind_eq_ok, raiseIf_eq_ok, pure_eq_ok, not_or, not_lt, not_le,
    exists_const]
  rw [@eq_comm _ bytes]

theorem packUnsigned_natCast_eq_ok {n : ℕ} :
    packUnsigned width n = .ok bytes ↔ n < 256 ^ width ∧ bytes = LittleEndian.toBytes width n := by
  rw [packUnsigned_eq_ok, Int.toNat_natCast]
  have hcast : (n : ℤ) < 256 ^ width ↔ n < 256 ^ width := by
    exact_mod_cast Iff.rfl
  rw [hcast, and_iff_right (Int.natCast_nonneg n)]

theorem reads_unpackUnsigned (h : 0 ≤ value ∧ value < 256 ^ width) :
    Reads (unpackUnsigned width) (LittleEndian.toBytes width value.toNat) value.toNat := by
  refine reads_unsigned _ ?_
  zify
  rw [Int.toNat_of_nonneg h.1]
  exact h.2

/-! ## Packing -/

/-- The fields of one sibling, `"<BI"` and the digest. -/
def packSibling (node : GoldilocksMerkleSiblingReference) : Result Bytes := do
  let level ← packUnsigned 1 node.level
  let index ← packUnsigned 4 node.index
  return level ++ index ++ node.digest.bytes

/-- `struct.pack("<Q", row[0])`. -/
def packRow (row : List ℤ) : Result Bytes := do
  let value ← getItem row 0
  packUnsigned 8 value

/-- The fields of one layer opening, `"<32sQIHH"` and its indices, rows and siblings. -/
def packLayer (lo : GoldilocksMerkleMultiOpeningReference) : Result Bytes := do
  let leafCount ← packUnsigned 8 lo.leafCount
  let indexCount ← packUnsigned 4 lo.indices.length
  let leafWidth ← packUnsigned 2 lo.leafWidth
  let siblingCount ← packUnsigned 2 lo.siblings.length
  let indices ← lo.indices.mapM fun (index : ℕ) => packUnsigned 4 index
  let rows ← lo.rows.mapM packRow
  let siblings ← lo.siblings.mapM packSibling
  return lo.bindingDigest.bytes ++ (leafCount ++ (indexCount ++ (leafWidth ++ (siblingCount ++
    (indices.flatten ++ (rows.flatten ++ siblings.flatten))))))

/-- `struct.pack("<QQQ", g0, g1, g2)`. -/
def packRound (g : Round) : Result Bytes := do
  let g0 ← packUnsigned 8 g.1
  let g1 ← packUnsigned 8 g.2.1
  let g2 ← packUnsigned 8 g.2.2
  return g0 ++ (g1 ++ g2)

def packOpening (op : GoldilocksMultilinearOpeningProofV3) : Result Bytes := do
  let claimed ← packUnsigned 8 op.claimedValue
  let final ← packUnsigned 8 op.finalValue
  let roundCount ← packUnsigned 2 op.roundPolynomials.length
  let rounds ← op.roundPolynomials.mapM packRound
  let rootCount ← packUnsigned 2 op.layerCommitments.length
  let layerCount ← packUnsigned 2 op.layerOpenings.length
  let layers ← op.layerOpenings.mapM fun lo => packLayer lo.opening
  return claimed ++ (final ++ (roundCount ++ (rounds.flatten ++ (rootCount ++
    (op.layerCommitments.flatten ++ (layerCount ++ layers.flatten))))))

/-! ## Unpacking -/

/-- One sibling, through its constructor. -/
def unpackSibling : Reader PyError GoldilocksMerkleSiblingReference := do
  let level ← unpackUnsigned 1
  let index ← unpackUnsigned 4
  let digest ← upTo 32
  let digest ← liftM (fixedBytes32 digest "Merkle sibling digest")
  liftM (GoldilocksMerkleSiblingReference.postInit ⟨level, index, digest⟩)

/-- A row of the one element that is on the wire. -/
def unpackRow : Reader PyError (List ℤ) := do
  let value ← unpackUnsigned 8
  return [(value : ℤ)]

/-- `GoldilocksMerkleMultiOpeningReference(…)`: the constructed object, with its invariant. -/
def constructOpening (lib : Bool) (opening : GoldilocksMerkleMultiOpeningReference) :
    Result ConstructedOpening :=
  match h : opening.postInit lib with
  | .ok _ => .ok ⟨opening, (GoldilocksMerkleMultiOpeningReference.postInit_eq_ok.mp h).1⟩
  | .error e => .error e

/-- One layer opening, through its constructor. -/
def unpackLayer (lib : Bool) : Reader PyError ConstructedOpening := do
  let binding ← exactly structError 32
  let leafCount ← unpackUnsigned 8
  let indexCount ← unpackUnsigned 4
  let leafWidth ← unpackUnsigned 2
  let siblingCount ← unpackUnsigned 2
  let indices ← times (unpackUnsigned 4) indexCount
  let rows ← times unpackRow indexCount
  let siblings ← times unpackSibling siblingCount
  let bindingDigest ← liftM (fixedBytes32 binding "Merkle binding_digest")
  liftM (constructOpening lib { bindingDigest, leafCount, leafWidth, indices, rows, siblings })

/-- `struct.unpack_from("<QQQ", data, off)`. -/
def unpackRound : Reader PyError Round := do
  let g0 ← unpackUnsigned 8
  let g1 ← unpackUnsigned 8
  let g2 ← unpackUnsigned 8
  return ((g0 : ℤ), (g1 : ℤ), (g2 : ℤ))

/-- The fields of an opening and its constructor. -/
def readOpening (lib : Bool) : Reader PyError GoldilocksMultilinearOpeningProofV3 := do
  let claimed ← unpackUnsigned 8
  let final ← unpackUnsigned 8
  let roundCount ← unpackUnsigned 2
  let rounds ← times unpackRound roundCount
  let rootCount ← unpackUnsigned 2
  let roots ← times (upTo 32) rootCount
  let layerCount ← unpackUnsigned 2
  let layers ← times (unpackLayer lib) layerCount
  liftM (GoldilocksMultilinearOpeningProofV3.postInit claimed rounds roots final layers)

/-- `_unpack_opening`. What follows the last field is ignored. -/
def unpackOpening (lib : Bool) (data : Bytes) : Result GoldilocksMultilinearOpeningProofV3 := do
  let (op, _) ← (readOpening lib).run data
  return op

theorem constructOpening_eq_ok {lib : Bool} {opening : GoldilocksMerkleMultiOpeningReference}
    {o : ConstructedOpening} :
    constructOpening lib opening = .ok o ↔ o.opening = opening := by
  unfold constructOpening
  constructor
  · intro h
    split at h
    · rw [← Except.ok.inj h]
    · exact absurd h (by simp)
  · rintro rfl
    have hok := (@GoldilocksMerkleMultiOpeningReference.postInit_eq_ok lib _ _).mpr
      ⟨o.admitted, rfl⟩
    split
    · rfl
    · rename_i e he
      exact absurd (hok.symm.trans he) (by simp)

/-! ## The exact condition -/

/-- What an opening satisfies beyond its constructors when it survives the codec. -/
structure Packable (op : GoldilocksMultilinearOpeningProofV3) : Prop where
  rounds : ∀ g ∈ op.roundPolynomials,
    (0 ≤ g.1 ∧ g.1 < 2 ^ 64) ∧ (0 ≤ g.2.1 ∧ g.2.1 < 2 ^ 64) ∧ 0 ≤ g.2.2 ∧ g.2.2 < 2 ^ 64
  length_rounds : op.roundPolynomials.length < 2 ^ 16
  commitments : ∀ root ∈ op.layerCommitments, root.length = 32
  length_layers : op.layerOpenings.length < 2 ^ 16
  leafWidth : ∀ lo ∈ op.layerOpenings, lo.opening.leafWidth = 1
  siblings : ∀ lo ∈ op.layerOpenings, lo.opening.siblings.length < 2 ^ 16

/-! ## What packing writes -/

/-- The layout of a round. -/
def roundBytes (g : Round) : Bytes :=
  LittleEndian.toBytes 8 g.1.toNat ++ (LittleEndian.toBytes 8 g.2.1.toNat ++
    LittleEndian.toBytes 8 g.2.2.toNat)

theorem packRound_eq_ok {g : Round} :
    packRound g = .ok bytes ↔
      ((0 ≤ g.1 ∧ g.1 < 2 ^ 64) ∧ (0 ≤ g.2.1 ∧ g.2.1 < 2 ^ 64) ∧ 0 ≤ g.2.2 ∧ g.2.2 < 2 ^ 64) ∧
        bytes = roundBytes g := by
  have hwidth : (256 ^ 8 : ℤ) = 2 ^ 64 := by norm_num
  simp only [packRound, bind_eq_ok, packUnsigned_eq_ok, pure_eq_ok, hwidth, roundBytes]
  constructor
  · rintro ⟨_, ⟨h0, rfl⟩, _, ⟨h1, rfl⟩, _, ⟨h2, rfl⟩, rfl⟩
    exact ⟨⟨h0, h1, h2⟩, rfl⟩
  · rintro ⟨⟨h0, h1, h2⟩, rfl⟩
    exact ⟨_, ⟨h0, rfl⟩, _, ⟨h1, rfl⟩, _, ⟨h2, rfl⟩, rfl⟩

theorem reads_unpackRound {g : Round} (h : packRound g = .ok bytes) :
    Reads unpackRound bytes g := by
  obtain ⟨⟨h0, h1, h2⟩, rfl⟩ := packRound_eq_ok.mp h
  have hcast : g = ((g.1.toNat : ℤ), (g.2.1.toNat : ℤ), (g.2.2.toNat : ℤ)) := by
    rw [Int.toNat_of_nonneg h0.1, Int.toNat_of_nonneg h1.1, Int.toNat_of_nonneg h2.1]
  nth_rewrite 2 [hcast]
  exact (reads_unpackUnsigned h0).bind ((reads_unpackUnsigned h1).bind
    (reads_unpackUnsigned h2).bind_pure)

variable {node : GoldilocksMerkleSiblingReference}

theorem packSibling_eq_ok :
    packSibling node = .ok bytes ↔ (node.level < 256 ∧ node.index < 2 ^ 32) ∧
      bytes = LittleEndian.toBytes 1 node.level ++ LittleEndian.toBytes 4 node.index ++
        node.digest.bytes := by
  simp only [packSibling, bind_eq_ok, packUnsigned_natCast_eq_ok, pure_eq_ok]
  constructor
  · rintro ⟨_, ⟨hlevel, rfl⟩, _, ⟨hindex, rfl⟩, rfl⟩
    exact ⟨⟨by simpa using hlevel, by simpa using hindex⟩, rfl⟩
  · rintro ⟨⟨hlevel, hindex⟩, rfl⟩
    exact ⟨_, ⟨by simpa using hlevel, rfl⟩, _, ⟨by simpa using hindex, rfl⟩, rfl⟩

theorem reads_unpackSibling (h : packSibling node = .ok bytes) :
    Reads unpackSibling bytes node := by
  obtain ⟨⟨hlevel, hindex⟩, rfl⟩ := packSibling_eq_ok.mp h
  have hconstruct : GoldilocksMerkleSiblingReference.postInit node = .ok node := by
    simp only [GoldilocksMerkleSiblingReference.postInit, bind_eq_ok, raiseIf_eq_ok, pure_eq_ok]
    exact ⟨(), by omega, (), by omega, trivial⟩
  rw [List.append_assoc]
  refine (reads_unsigned _ (by simpa using hlevel)).bind
    ((reads_unsigned _ (by simpa using hindex)).bind ?_)
  exact (reads_upTo node.digest.length_eq).bind_nil
    ((Reads.lift (fixedBytes32_eq_ok.mpr rfl)).bind_nil (Reads.lift hconstruct))

variable {lo : GoldilocksMerkleMultiOpeningReference}

theorem lt_of_mem_siblings (h : lo.Admitted) (hnode : node ∈ lo.siblings) :
    node.level < 256 ∧ node.index < 2 ^ 32 := by
  obtain ⟨height, hheight, hcount⟩ := h.leafCount
  have hmem : (node.level, node.index) ∈ lo.coordinates := List.mem_map.mpr ⟨node, hnode, rfl⟩
  rw [h.coordinates, hcount, height_two_pow] at hmem
  obtain ⟨hlevel, hindex⟩ := lt_of_mem_schedule
    (fun i hi => hcount ▸ h.indices.lt i (List.mem_toFinset.mp hi)) hmem
  have hpow : 2 ^ (height - node.level) ≤ 2 ^ 30 := Nat.pow_le_pow_right (by norm_num) (by omega)
  exact ⟨by omega, by omega⟩

theorem index_lt_of_admitted (h : lo.Admitted) :
    lo.leafCount ≤ 2 ^ 30 ∧ ∀ index ∈ lo.indices, index < 2 ^ 30 := by
  obtain ⟨height, hheight, hcount⟩ := h.leafCount
  have hle : lo.leafCount ≤ 2 ^ 30 := hcount ▸ Nat.pow_le_pow_right (by norm_num) hheight
  exact ⟨hle, fun index hindex => (h.indices.lt index hindex).trans_le hle⟩

theorem exists_singleton_of_mem_rows (h : lo.Admitted) {row : List ℤ} (hrow : row ∈ lo.rows) :
    ∃ value rest, row = value :: rest ∧ Canonical value ∧ (lo.leafWidth = 1 → rest = []) := by
  obtain ⟨-, -, w, hwidth, hpos, -, hall, -⟩ := h.rows
  obtain ⟨hlength, hcanonical⟩ := hall row hrow
  obtain ⟨value, rest, rfl⟩ := List.exists_cons_of_length_pos (hlength ▸ hpos)
  refine ⟨value, rest, rfl, hcanonical value List.mem_cons_self, fun hone => ?_⟩
  have hw : w = 1 := (hwidth _ rfl).symm.trans hone
  exact List.length_eq_zero_iff.mp (by simpa [hw] using hlength)

theorem packRow_eq_ok {rest : List ℤ} (h : Canonical value) :
    packRow (value :: rest) = .ok (LittleEndian.toBytes 8 value.toNat) := by
  have hmod : (goldilocksModulus : ℤ) ≤ 256 ^ 8 := by norm_num [goldilocksModulus_eq]
  simp only [packRow, bind_eq_ok, getItem_eq_ok, packUnsigned_eq_ok]
  exact ⟨value, rfl, ⟨h.1, h.2.trans_le hmod⟩, rfl⟩

theorem reads_unpackRow (h : Canonical value) :
    Reads unpackRow (LittleEndian.toBytes 8 value.toNat) [value] := by
  have hmod : (goldilocksModulus : ℤ) ≤ 256 ^ 8 := by norm_num [goldilocksModulus_eq]
  have hread := (reads_unpackUnsigned ⟨h.1, h.2.trans_le hmod⟩).bind_pure
    (f := fun n : ℕ => [(n : ℤ)])
  rwa [Int.toNat_of_nonneg h.1] at hread

theorem exists_packLayer_iff (lo : ConstructedOpening) :
    (∃ bytes, packLayer lo.opening = .ok bytes) ↔ lo.opening.siblings.length < 2 ^ 16 := by
  obtain ⟨hcount, hindices⟩ := index_lt_of_admitted lo.admitted
  simp only [packLayer, bind_eq_ok, packUnsigned_natCast_eq_ok, pure_eq_ok]
  constructor
  · rintro ⟨_, _, -, _, -, _, -, _, ⟨hsiblings, -⟩, -⟩
    simpa using hsiblings
  · intro hsiblings
    have hwidth := lo.admitted.leafWidth.2
    have hlength := lo.admitted.indices.length_le
    have hrows : ∀ row ∈ lo.opening.rows,
        packRow row = .ok (LittleEndian.toBytes 8 (row.headD 0).toNat) := by
      intro row hrow
      obtain ⟨value, rest, rfl, hvalue, -⟩ := exists_singleton_of_mem_rows lo.admitted hrow
      exact packRow_eq_ok hvalue
    refine ⟨_, _, ⟨by omega, rfl⟩, _, ⟨by omega, rfl⟩, _, ⟨?_, rfl⟩, _, ⟨by omega, rfl⟩, _,
      mapM_eq_ok_map fun index hindex => packUnsigned_natCast_eq_ok.mpr ⟨?_, rfl⟩, _,
      mapM_eq_ok_map hrows, _,
      mapM_eq_ok_map fun node hnode => packSibling_eq_ok.mpr
        ⟨lt_of_mem_siblings lo.admitted hnode, rfl⟩, rfl⟩
    · exact hwidth.trans_lt (by norm_num [maxLeafWidth])
    · exact (hindices index hindex).trans (by norm_num)

theorem reads_unpackLayer (lib : Bool) {lo : ConstructedOpening}
    (h : packLayer lo.opening = .ok bytes) (hwidth : lo.opening.leafWidth = 1) :
    Reads (unpackLayer lib) bytes lo := by
  simp only [packLayer, bind_eq_ok, packUnsigned_natCast_eq_ok, pure_eq_ok] at h
  obtain ⟨_, ⟨hcount, rfl⟩, _, ⟨hlength, rfl⟩, _, ⟨hwidth', rfl⟩, _, ⟨hsiblings, rfl⟩, indices,
    hindices, rows, hrows, siblings, hnodes, rfl⟩ := h
  -- the three counted lists
  have hreadIndices : Reads (times (unpackUnsigned 4) lo.opening.indices.length) indices.flatten
      lo.opening.indices := by
    have hread := reads_times (g := id) ((mapM_eq_ok.mp hindices).imp fun index bytes hindex => by
      obtain ⟨hlt, rfl⟩ := packUnsigned_natCast_eq_ok.mp hindex
      exact reads_unsigned structError hlt)
    rwa [List.map_id] at hread
  have hreadRows : Reads (times unpackRow lo.opening.indices.length) rows.flatten
      lo.opening.rows := by
    have hitems := (List.forall₂_and_left _ _).mpr ⟨fun row hrow =>
      exists_singleton_of_mem_rows lo.admitted hrow, mapM_eq_ok.mp hrows⟩
    have hread := reads_times (g := id) (hitems.imp fun row bytes hitem => by
      obtain ⟨⟨value, rest, rfl, hvalue, hrest⟩, hpack⟩ := hitem
      rw [hrest hwidth]
      obtain rfl := Except.ok.inj ((packRow_eq_ok hvalue).symm.trans hpack)
      exact reads_unpackRow hvalue)
    rwa [List.map_id, lo.length_rows] at hread
  have hreadNodes : Reads (times unpackSibling lo.opening.siblings.length) siblings.flatten
      lo.opening.siblings := by
    have hread := reads_times (g := id) ((mapM_eq_ok.mp hnodes).imp fun node bytes hnode =>
      reads_unpackSibling hnode)
    rwa [List.map_id] at hread
  refine (reads_exactly _ lo.opening.bindingDigest.length_eq).bind ((reads_unsigned _ hcount).bind
    ((reads_unsigned _ hlength).bind ((reads_unsigned _ hwidth').bind
      ((reads_unsigned _ hsiblings).bind (hreadIndices.bind (hreadRows.bind
        (hreadNodes.bind_nil ((Reads.lift (fixedBytes32_eq_ok.mpr rfl)).bind_nil
          (Reads.lift (constructOpening_eq_ok.mpr ?_))))))))))
  rw [← lo.admitted.abi]

/-! ## The round trip -/

theorem exists_packOpening_iff (op : GoldilocksMultilinearOpeningProofV3) :
    (∃ data, packOpening op = .ok data) ↔
      (∀ g ∈ op.roundPolynomials,
        (0 ≤ g.1 ∧ g.1 < 2 ^ 64) ∧ (0 ≤ g.2.1 ∧ g.2.1 < 2 ^ 64) ∧ 0 ≤ g.2.2 ∧ g.2.2 < 2 ^ 64) ∧
      op.roundPolynomials.length < 2 ^ 16 ∧ op.layerOpenings.length < 2 ^ 16 ∧
      ∀ lo ∈ op.layerOpenings, lo.opening.siblings.length < 2 ^ 16 := by
  have hmod : (goldilocksModulus : ℤ) ≤ 256 ^ 8 := by norm_num [goldilocksModulus_eq]
  have hbytes : (256 : ℕ) ^ 2 = 2 ^ 16 := by norm_num
  simp only [packOpening, bind_eq_ok, packUnsigned_natCast_eq_ok, hbytes]
  simp only [packUnsigned_eq_ok, pure_eq_ok, op.length_layerCommitments]
  have hround : ∀ g : Round, (∃ bytes, packRound g = .ok bytes) ↔
      (0 ≤ g.1 ∧ g.1 < 2 ^ 64) ∧ (0 ≤ g.2.1 ∧ g.2.1 < 2 ^ 64) ∧ 0 ≤ g.2.2 ∧ g.2.2 < 2 ^ 64 := by
    intro g
    simp only [packRound_eq_ok, exists_and_left, exists_eq, and_true]
  simp only [← hround, ← exists_packLayer_iff]
  rw [← exists_mapM_iff, ← exists_mapM_iff]
  constructor
  · rintro ⟨_, _, -, _, -, _, ⟨hrounds, -⟩, rounds, hparts, _, -, _, ⟨hlayers, -⟩, layers, hlos, -⟩
    exact ⟨⟨rounds, hparts⟩, hrounds, hlayers, layers, hlos⟩
  · rintro ⟨⟨rounds, hparts⟩, hrounds, hlayers, layers, hlos⟩
    exact ⟨_, _, ⟨⟨op.canonical_claimedValue.1, op.canonical_claimedValue.2.trans_le hmod⟩, rfl⟩,
      _, ⟨⟨op.canonical_finalValue.1, op.canonical_finalValue.2.trans_le hmod⟩, rfl⟩,
      _, ⟨hrounds, rfl⟩, rounds, hparts, _, ⟨hrounds, rfl⟩, _, ⟨hlayers, rfl⟩, layers, hlos, rfl⟩

/-- A packed opening with digests for commitments and rows of one element is unpacked to itself. -/
theorem unpackOpening_packOpening (lib : Bool) {op : GoldilocksMultilinearOpeningProofV3}
    {data : Bytes} (h : packOpening op = .ok data)
    (hroots : ∀ root ∈ op.layerCommitments, root.length = 32)
    (hwidth : ∀ lo ∈ op.layerOpenings, lo.opening.leafWidth = 1) :
    unpackOpening lib data = .ok op := by
  simp only [packOpening, bind_eq_ok, packUnsigned_natCast_eq_ok] at h
  simp only [packUnsigned_eq_ok, pure_eq_ok] at h
  obtain ⟨_, ⟨hclaimed, rfl⟩, _, ⟨hfinal, rfl⟩, _, ⟨hrounds, rfl⟩, rounds, hparts, _, ⟨hcount, rfl⟩,
    _, ⟨hlayers, rfl⟩, layers, hlos, rfl⟩ := h
  -- the three counted lists
  have hreadRounds : Reads (times unpackRound op.roundPolynomials.length) rounds.flatten
      op.roundPolynomials := by
    have hread := reads_times (g := id) ((mapM_eq_ok.mp hparts).imp fun g bytes hg =>
      reads_unpackRound hg)
    rwa [List.map_id] at hread
  have hreadRoots : Reads (times (upTo 32 : Reader PyError Bytes) op.layerCommitments.length)
      op.layerCommitments.flatten op.layerCommitments := by
    have hread := reads_times (g := id) (List.forall₂_same.mpr fun root hroot =>
      @reads_upTo PyError _ _ (hroots root hroot))
    rwa [List.map_id] at hread
  have hreadLayers : Reads (times (unpackLayer lib) op.layerOpenings.length) layers.flatten
      op.layerOpenings := by
    have hitems := (List.forall₂_and_left _ _).mpr ⟨hwidth, mapM_eq_ok.mp hlos⟩
    have hread := reads_times (g := id) (hitems.imp fun lo bytes hlo =>
      reads_unpackLayer lib hlo.2 hlo.1)
    rwa [List.map_id] at hread
  have hconstruct : GoldilocksMultilinearOpeningProofV3.postInit op.claimedValue.toNat
      op.roundPolynomials op.layerCommitments op.finalValue.toNat op.layerOpenings = .ok op := by
    rw [Int.toNat_of_nonneg hclaimed.1, Int.toNat_of_nonneg hfinal.1]
    simp [GoldilocksMultilinearOpeningProofV3.postInit, op.canonical_claimedValue,
      op.canonical_finalValue, op.length_layerCommitments]
  have hread : Reads (readOpening lib) _ op :=
    (reads_unpackUnsigned hclaimed).bind ((reads_unpackUnsigned hfinal).bind
      ((reads_unsigned _ hrounds).bind (hreadRounds.bind ((reads_unsigned _ hcount).bind
        (hreadRoots.bind ((reads_unsigned _ hlayers).bind
          (hreadLayers.bind_nil (Reads.lift hconstruct))))))))
  have hrun := hread []
  rw [List.append_nil] at hrun
  rw [unpackOpening, hrun]
  rfl

theorem leafWidth_of_unpackLayer {lib : Bool} {lo : ConstructedOpening} {input rest : Bytes}
    (h : (unpackLayer lib).run input = .ok (lo, rest)) : lo.opening.leafWidth = 1 := by
  simp only [unpackLayer, run_bind_eq_ok, run_lift_eq_ok] at h
  obtain ⟨_, _, -, leafCount, _, -, indexCount, _, -, leafWidth, _, -, siblingCount, _, -, indices,
    _, -, rows, _, hrows, siblings, _, -, digest, _, -, hconstruct, -⟩ := h
  have hopening := constructOpening_eq_ok.mp hconstruct
  have hone : ∀ row ∈ lo.opening.rows, row.length = 1 := by
    rw [hopening]
    refine (forall_of_run_times (Q := fun _ => True) (fun input row rest hrow _ => ?_) hrows
      trivial).1
    simp only [unpackRow, run_bind_eq_ok, run_pure_eq_ok] at hrow
    obtain ⟨value, _, -, rfl, -⟩ := hrow
    exact ⟨rfl, trivial⟩
  obtain ⟨hne, -, w, hwidth, -, -, hall, -⟩ := lo.admitted.rows
  obtain ⟨row, hrow⟩ := List.exists_mem_of_ne_nil _ hne
  rw [hwidth _ rfl, ← (hall row hrow).1, hone row hrow]

theorem of_unpackOpening {lib : Bool} {data : Bytes} {op : GoldilocksMultilinearOpeningProofV3}
    (h : unpackOpening lib data = .ok op) :
    (∀ root ∈ op.layerCommitments, root.length = 32) ∧
      ∀ lo ∈ op.layerOpenings, lo.opening.leafWidth = 1 := by
  simp only [unpackOpening, bind_eq_ok, pure_eq_ok] at h
  obtain ⟨⟨op, rest⟩, hrun, rfl⟩ := h
  simp only [readOpening, run_bind_eq_ok, run_lift_eq_ok] at hrun
  obtain ⟨claimed, _, -, final, _, -, roundCount, _, -, rounds, _, -, rootCount, _, -, roots, _,
    hroots, layerCount, _, hcount, layers, _, hlayers, hconstruct, -⟩ := hrun
  obtain ⟨rfl, rfl⟩ : op.layerCommitments = roots ∧ op.layerOpenings = layers := by
    unfold GoldilocksMultilinearOpeningProofV3.postInit at hconstruct
    split_ifs at hconstruct
    obtain rfl := Except.ok.inj hconstruct
    exact ⟨rfl, rfl⟩
  constructor
  · -- the count that follows the roots is there, so no slice was cut short
    exact (forall_of_run_times (Q := (· ≠ [])) (fun input root rest => length_of_run_upTo) hroots
      (ne_nil_of_run_unsigned hcount)).1
  · refine (forall_of_run_times (Q := fun _ => True) (fun input lo rest hlo _ => ⟨?_, trivial⟩)
      hlayers trivial).1
    exact leafWidth_of_unpackLayer hlo

theorem roundTrip_iff (lib : Bool) (op : GoldilocksMultilinearOpeningProofV3) :
    (∃ data, packOpening op = .ok data ∧ unpackOpening lib data = .ok op) ↔ Packable op := by
  constructor
  · rintro ⟨data, hpack, hunpack⟩
    obtain ⟨hrounds, hlength, hlayers, hsiblings⟩ := (exists_packOpening_iff op).mp ⟨data, hpack⟩
    obtain ⟨hroots, hwidth⟩ := of_unpackOpening hunpack
    exact ⟨hrounds, hlength, hroots, hlayers, hwidth, hsiblings⟩
  · intro h
    obtain ⟨data, hpack⟩ := (exists_packOpening_iff op).mpr
      ⟨h.rounds, h.length_rounds, h.length_layers, h.siblings⟩
    exact ⟨data, hpack, unpackOpening_packOpening lib hpack h.commitments h.leafWidth⟩

end Verathos.Wire
