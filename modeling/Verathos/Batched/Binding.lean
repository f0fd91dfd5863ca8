import Verathos.Batched.Forgery

/-!
# When the batched opening binds

`binds_iff`: the batched opening binds every claim of a batch exactly when the errors of the final
values do not cancel. One direction is `binds_of_not_cancels`; for the other, the forged columns of
`Verathos.Batched.Forgery` are put together to a transcript that the verifier accepts
(`exists_accepted_forgery`).

The final values of a proof are compared with the committed columns only through one combination,
whose coefficient is known when they are sent.
-/

namespace Verathos.Batched

open Merkle Pcs Multilinear

/-! ## The openings of a truthful transcript -/

section Openings

variable {sha256 : Bytes → Digest} {positions : List ℕ}

theorem baseIndices_admitted (hne : positions ≠ []) (statement : GoldilocksMultilinearPcsStatementV3) :
    IndicesAdmitted (2 ^ (statement.variableCount + 2))
      (layerQueryIndices positions statement.codewordSize false) := by
  have h := layerQueryIndices_admitted statement hne (Nat.zero_le statement.variableCount)
  have hvariables : 0 ≠ statement.variableCount := by
    have := statement.one_le_variableCount
    omega
  rwa [decide_eq_false hvariables] at h

theorem length_layerQueryIndices_le_cap (hle : positions.length ≤ maxQueryCount) (size : ℕ)
    (isFinal : Bool) : (layerQueryIndices positions size isFinal).length ≤ 2 * maxQueryCount :=
  (length_layerQueryIndices_le positions size isFinal).trans (Nat.mul_le_mul_left 2 hle)

/-- The opening of a column at its query indices. -/
def baseOpened (sha256 : Bytes → Digest) (master : ℤ) (hne : positions ≠ [])
    (hle : positions.length ≤ maxQueryCount) (column : Column) : ConstructedOpening :=
  wordOpened sha256 (column.statement.layerBindingDigest sha256 0) (column.codeword master)
    (variableCount_add_two_le column.statement) (baseIndices_admitted hne column.statement)
    (length_layerQueryIndices_le_cap hle _ _)

/-- The opening of a layer of the true fold chain at its query indices. -/
def layerOpened (sha256 : Bytes → Digest) (master : ℤ) (batch : Batch) (seed : Digest)
    (hne : positions ≠ []) (hle : positions.length ≤ maxQueryCount) {l : ℕ}
    (hl : l ≤ batch.top.statement.variableCount) : ConstructedOpening :=
  wordOpened sha256 (batchLayerBinding sha256 seed l)
    (layerWord master batch.top batch.terms batch.challenges l)
    ((Nat.sub_le _ _).trans (variableCount_add_two_le batch.top.statement))
    (layerQueryIndices_admitted batch.top.statement hne hl) (length_layerQueryIndices_le_cap hle _ _)

theorem openedValue_layerOpened {master : ℤ} {batch : Batch} {seed : Digest} {hne : positions ≠ []}
    {hle : positions.length ≤ maxQueryCount} {l : ℕ} {hl : l ≤ batch.top.statement.variableCount}
    {i : ℕ} (hi : i ∈ (layerOpened sha256 master batch seed hne hle hl).opening.indices) :
    openedValue (layerOpened sha256 master batch seed hne hle hl) i =
      ofField (layerWord master batch.top batch.terms batch.challenges l i) :=
  openedValue_wordOpened hi

theorem exists_verifyBatchLayers {lib : Bool} {seed : Digest} {baseSize nMax : ℕ}
    {roots : List Bytes} {openings : List ConstructedOpening} {layerIndex : ℕ}
    (hpos : 1 ≤ layerIndex)
    (h : ∀ k o, openings[k]? = some o → ∃ root, roots[layerIndex - 1 + k]? = some root ∧
      Accepts (verifyGoldilocksMerkleMultiopeningReference sha256 lib root o.opening
        (batchLayerBinding sha256 seed (layerIndex + k)).bytes (baseSize >>> (layerIndex + k)) 1
        (layerQueryIndices positions (baseSize >>> (layerIndex + k)) (layerIndex + k = nMax)))) :
    ∃ layers, verifyBatchLayers sha256 lib seed baseSize nMax roots positions openings layerIndex =
      .ok layers := by
  induction openings generalizing layerIndex with
  | nil => exact ⟨[], rfl⟩
  | cons o openings ih =>
    obtain ⟨root, hroot, u, hverify⟩ := h 0 o rfl
    obtain ⟨opened, hopened, -⟩ := openedValues_constructed o
    obtain ⟨others, hothers⟩ := ih (Nat.le_add_left 1 layerIndex) fun k o' hk => by
      have hnext := h (k + 1) o' (by simpa using hk)
      rwa [show layerIndex - 1 + (k + 1) = layerIndex + 1 - 1 + k by omega,
        show layerIndex + (k + 1) = layerIndex + 1 + k by omega] at hnext
    refine ⟨opened :: others, ?_⟩
    simp only [verifyBatchLayers, bind_eq_ok, getItem_eq_ok, pure_eq_ok]
    exact ⟨root, hroot, u, hverify, opened, hopened, others, hothers, rfl⟩

end Openings

/-! ## The fold checks -/

section Folds

variable {batch : Batch} {sha256 : Bytes → Digest} {master : ℤ} {positions : List ℕ}

theorem rlcAt_eq_ok {lanes : List Lane} {bases : List Opened}
    (hopened : List.Forall₂ (fun lane opened => IsOpened lane.wire.baseOpening opened) lanes bases)
    {l position : ℕ} (hmem : ∀ lane ∈ lanes, lane.join = l →
      position ∈ lane.wire.baseOpening.opening.indices) :
    ∃ value, rlcAt (lanes.zip bases) l position = .ok value ∧
      (value : F) = (lanes.map fun lane => if lane.join = l then
        (lane.power : F) * openedValue lane.wire.baseOpening position else 0).sum := by
  have hloop : ∀ start : ℤ, ∃ value, (lanes.zip bases).foldlM
      (fun (total : ℤ) (x : Lane × Opened) => if x.1.join ≠ l then (.ok total : Result ℤ) else do
        let value ← getKey x.2 position
        return (total + x.1.power * value) % goldilocksModulus) start = .ok value ∧
      (value : F) = start + (lanes.map fun lane => if lane.join = l then
        (lane.power : F) * openedValue lane.wire.baseOpening position else 0).sum := by
    induction hopened with
    | nil => exact fun start => ⟨start, rfl, by simp⟩
    | @cons lane opened lanes bases hfirst _ ih =>
      intro start
      obtain ⟨hlane, hrest⟩ := List.forall_mem_cons.mp hmem
      by_cases hjoin : lane.join = l
      · obtain ⟨value, hvalue, hsum⟩ := ih hrest ((start + lane.power *
          openedValue lane.wire.baseOpening position) % goldilocksModulus)
        refine ⟨value, ?_, ?_⟩
        · rw [List.zip_cons_cons, List.foldlM_cons, bind_eq_ok]
          refine ⟨_, ?_, hvalue⟩
          rw [if_neg (not_not.mpr hjoin), hfirst.getKey (hlane hjoin)]
          rfl
        · rw [hsum, List.map_cons, List.sum_cons, if_pos hjoin, intCast_emod, Int.cast_add,
            Int.cast_mul, add_assoc]
      · obtain ⟨value, hvalue, hsum⟩ := ih hrest start
        refine ⟨value, ?_, ?_⟩
        · rw [List.zip_cons_cons, List.foldlM_cons, bind_eq_ok]
          exact ⟨start, if_pos hjoin, hvalue⟩
        · rw [hsum, List.map_cons, List.sum_cons, if_neg hjoin, zero_add]
  obtain ⟨value, hvalue, hsum⟩ := hloop 0
  refine ⟨value, hvalue, ?_⟩
  rwa [Int.cast_zero, zero_add] at hsum

theorem codewordSize_join {column : Column} (h : column ∈ batch.columns) :
    column.statement.codewordSize =
      batch.top.statement.codewordSize >>> column.join batch.top.statement := by
  have hle := batch.variableCount_le_top h
  rw [codewordSize_shiftRight _ (show column.join batch.top.statement ≤
    batch.top.statement.variableCount + 2 by rw [Column.join]; omega), codewordSize_eq]
  congr 1
  rw [Column.join]
  omega

/-- The shares of a forged proof, for openings of the committed columns. -/
def forgedWires (batch : Batch) (openings : Column → ConstructedOpening) :
    List GoldilocksBatchedComponentOpeningV3 :=
  batch.order.map fun column =>
    ⟨column.tag, batch.forgedRounds column, column.finalValue, openings column⟩

theorem length_forgedWires (openings : Column → ConstructedOpening) :
    (forgedWires batch openings).length = batch.order.length := List.length_map _

theorem getElem?_forgedWires (openings : Column → ConstructedOpening) {k : ℕ} {column : Column}
    (h : batch.order[k]? = some column) : (forgedWires batch openings)[k]? =
      some ⟨column.tag, batch.forgedRounds column, column.finalValue, openings column⟩ := by
  rw [forgedWires, List.getElem?_map, h, Option.map_some]

/-- Every lane of a forged proof is the lane of a column. -/
theorem exists_column_of_mem_lanes {claimed : Column → ℤ} {openings : Column → ConstructedOpening}
    {lane : Lane} (h : lane ∈ batch.lanes sha256 master claimed (forgedWires batch openings)) :
    ∃ column ∈ batch.columns, ∃ power, lane =
      ⟨column.component sha256 master (claimed column),
        ⟨column.tag, batch.forgedRounds column, column.finalValue, openings column⟩,
        column.join batch.top.statement, power⟩ := by
  obtain ⟨k, hk⟩ := List.mem_iff_getElem?.mp h
  have hlt : k < batch.order.length := by
    rw [← length_lanes (length_forgedWires openings) claimed]
    exact (List.getElem?_eq_some_iff.mp hk).1
  have hcolumn : batch.order[k]? = some batch.order[k] := List.getElem?_eq_getElem hlt
  obtain ⟨power, hlane, -⟩ := @Batch.getElem?_lanes sha256 master batch claimed _ _ _ _ hcolumn
    (getElem?_forgedWires openings hcolumn)
  exact ⟨_, batch.mem_order.mp (List.getElem_mem hlt), power, Option.some.inj (hk.symm.trans hlane)⟩

variable {hne : positions ≠ []} {hle : positions.length ≤ maxQueryCount} {seed : Digest}
  {claimed : Column → ℤ} {bases layers : List Opened}

variable
    (hbases : List.Forall₂ (fun lane opened => IsOpened lane.wire.baseOpening opened)
      (batch.lanes sha256 master claimed (forgedWires batch (baseOpened sha256 master hne hle))) bases)
    (hlayers : ∀ (l : ℕ) (hl : l + 1 ≤ batch.top.statement.variableCount), ∃ opened,
      layers[l]? = some opened ∧ IsOpened (layerOpened sha256 master batch seed hne hle hl) opened)
include hbases hlayers

theorem parentValue_eq_ok {r i : ℕ} (hr : r < batch.top.statement.variableCount)
    (hi : i ∈ layerQueryIndices positions (batch.top.statement.codewordSize >>> r) false) :
    ∃ value, parentValue ((batch.lanes sha256 master claimed
        (forgedWires batch (baseOpened sha256 master hne hle))).zip bases) layers r i = .ok value ∧
      (value : F) = layerWord master batch.top batch.terms batch.challenges r i +
        joinedWord master batch.top batch.terms r i := by
  -- the columns that join here have opened the index
  have hindex : ∀ column ∈ batch.columns, column.join batch.top.statement = r →
      i ∈ layerQueryIndices positions column.statement.codewordSize false := by
    intro column hcolumn hjoin
    rwa [codewordSize_join hcolumn, hjoin]
  obtain ⟨joined, hjoined, hsum⟩ := @rlcAt_eq_ok _ _ hbases r i fun lane hlane hjoin => by
    obtain ⟨column, hcolumn, power, rfl⟩ := exists_column_of_mem_lanes hlane
    exact hindex column hcolumn hjoin
  have hword : (joined : F) = joinedWord master batch.top batch.terms r i := by
    rw [hsum, joinedWord]
    refine sum_lanes (length_forgedWires _) _ _ fun k column wire power hcolumn hwire hpower => ?_
    obtain rfl := Option.some.inj ((getElem?_forgedWires _ hcolumn).symm.trans hwire)
    by_cases hjoin : column.join batch.top.statement = r
    · have hmem := hindex column (batch.mem_order.mp (List.mem_of_getElem? hcolumn)) hjoin
      simp only [if_pos hjoin]
      rw [hpower, baseOpened, openedValue_wordOpened hmem, intCast_ofField]
    · simp only [if_neg hjoin]
  cases r with
  | zero =>
    refine ⟨joined, hjoined, ?_⟩
    rw [hword, layerWord, zero_add]
  | succ r =>
    obtain ⟨opened, hget, hopened⟩ := hlayers r hr.le
    have hmem : i ∈ layerQueryIndices positions (batch.top.statement.codewordSize >>> (r + 1))
        (r + 1 = batch.top.statement.variableCount) := by
      rwa [decide_eq_false hr.ne]
    refine ⟨(ofField (layerWord master batch.top batch.terms batch.challenges (r + 1) i) + joined) %
      goldilocksModulus, ?_, ?_⟩
    · rw [parentValue, if_neg (Nat.succ_ne_zero r)]
      simp only [bind_eq_ok, pure_eq_ok, getItem_eq_ok, Nat.add_sub_cancel]
      exact ⟨opened, hget, _, (hopened.getKey hmem).trans
        (congrArg Except.ok (openedValue_wordOpened hmem)), joined, hjoined, rfl⟩
    · rw [intCast_emod, Int.cast_add, intCast_ofField, hword]

theorem checkBatchFold_accepts (hmaster : chainMasterShift sha256 = .ok master)
    {r position : ℕ} (hr : r < batch.top.statement.variableCount) (hposition : position ∈ positions) :
    Accepts (checkBatchFold sha256 batch.top.statement ((batch.lanes sha256 master claimed
      (forgedWires batch (baseOpened sha256 master hne hle))).zip bases) layers batch.challenges r
      position) := by
  set n := batch.top.statement.variableCount with hn
  have hshift := batch.top.baseShift_eq_ok master hmaster
  obtain ⟨hpos, hneg⟩ := pair_mem_layerQueryIndices hr hposition
  have htarget := child_mem_layerQueryIndices hr hposition
  rw [decide_eq_false hr.ne] at hpos hneg
  set i := position % (batch.top.statement.codewordSize >>> r / 2) with hi
  obtain ⟨valuePos, hvaluePos, hposWord⟩ := parentValue_eq_ok hbases hlayers hr hpos
  obtain ⟨valueNeg, hvalueNeg, hnegWord⟩ := parentValue_eq_ok hbases hlayers hr hneg
  obtain ⟨x, hx, hcanonical, hpoint⟩ := domainPoint_spec hshift hr.le i
  have hne : x ≠ 0 := by
    rintro rfl
    exact layerPoint_ne_zero batch.top.statement (baseShift_spec hshift).2 _ _ (by simpa using hpoint.symm)
  obtain ⟨inverse, hinverse, hinv⟩ := goldilocksInv_spec hcanonical hne
  obtain ⟨opened, hget, hopened⟩ := hlayers r hr
  have hchallenge : batch.challenges[r]? = some (batch.challenges.getD r 0) := by
    have hlt : r < batch.challenges.length := batch.length_challenges_eq ▸ hr
    rw [List.getD_eq_getElem _ _ hlt]
    exact List.getElem?_eq_getElem hlt
  -- the expected value is the next word of the chain
  have hfold : expectedFold (batch.challenges.getD r 0) valuePos valueNeg inverse =
      ofField (layerWord master batch.top batch.terms batch.challenges (r + 1) i) := by
    refine (canonical_emod _).ext (canonical_ofField _) ?_
    change ((expectedFold _ _ _ _ : ℤ) : F) = _
    rw [intCast_expectedFold, intCast_ofField, layerWord, hinv, hpoint, hposWord, hnegWord,
      codewordSize_half batch.top.statement hr.le]
  simp only [Accepts, checkBatchFold, bind_eq_ok, getItem_eq_ok, raiseIf_eq_ok, not_not]
  exact ⟨(), _, hchallenge, valuePos, hvaluePos, valueNeg, hvalueNeg, x, hx, inverse, hinverse, opened,
    hget, _, (hopened.getKey htarget).trans (congrArg Except.ok (openedValue_wordOpened htarget)),
    hfold⟩

end Folds

/-! ## The forged transcript -/

section Transcript

variable {batch : Batch} {sha256 : Bytes → Digest} {master : ℤ}

/-- The derivation that returns the values of the batch, whatever the transcript. -/
def Batch.derive (batch : Batch) : Derive := fun _ label index =>
  if label = batchRlcLabel then .ok batch.rho else getItem batch.challenges index

theorem Batch.derive_batchRlcLabel (batch : Batch) (transcript : Digest) (index : ℕ) :
    batch.derive transcript batchRlcLabel index = .ok batch.rho := if_pos rfl

theorem batchFoldLabel_ne : batchFoldLabel ≠ batchRlcLabel := by decide

theorem exists_batchSeed {claimed : Column → ℤ} (hclaimed : ∀ column, Canonical (claimed column))
    (nonce : Digest) : ∃ seed, batchSeed sha256
      (batch.orderedComponents sha256 master claimed) nonce.bytes = .ok seed := by
  obtain ⟨entries, hentries⟩ : ∃ entries, (batch.orderedComponents sha256 master claimed).mapM
      (seedEntry sha256) = .ok entries := by
    refine ⟨_, mapM_eq_ok_map (g := fun component => (component.statement.digest sha256).bytes ++
      component.commitment ++ packI component.point.length ++ component.point.flatMap fieldBytes ++
      fieldBytes component.claimedValue) fun component hcomponent => ?_⟩
    obtain ⟨column, -, rfl⟩ := List.mem_map.mp hcomponent
    simp only [seedEntry, bind_eq_ok, fixedBytes32_eq_ok, field_eq_ok, pure_eq_ok]
    exact ⟨_, rfl, _, mapM_field_eq_ok _ column.canonical_point, _, ⟨hclaimed column, rfl⟩, rfl⟩
  refine ⟨sha256 (batchTranscriptDomain ++ packI (batch.orderedComponents sha256 master
    claimed).length ++ entries.flatten ++ nonce.bytes), ?_⟩
  simp only [batchSeed, bind_eq_ok, fixedBytes32_eq_ok, pure_eq_ok]
  exact ⟨entries, hentries, nonce, rfl, rfl⟩

theorem exists_forall₂ {α β : Type} {r : α → β → Prop} {items : List α}
    (h : ∀ item ∈ items, ∃ b, r item b) : ∃ results, List.Forall₂ r items results := by
  induction items with
  | nil => exact ⟨[], .nil⟩
  | cons item items ih =>
    obtain ⟨hitem, hrest⟩ := List.forall_mem_cons.mp h
    obtain ⟨b, hb⟩ := hitem
    obtain ⟨results, hresults⟩ := ih hrest
    exact ⟨b :: results, .cons hb hresults⟩

/-- The rounds of a forged proof are accepted, with one transcript for all openings. -/
theorem exists_transcript (seed : Digest) {roots : List Bytes}
    (hroots : ∀ k < batch.top.statement.variableCount, ∃ root : Digest, roots[k]? = some root.bytes)
    (o : ConstructedOpening) :
    ∃ transcript, ∀ openings : Column → ConstructedOpening, ∃ runnings,
      roundLoop sha256 batch.derive roots batch.top.statement.variableCount 0
        ((batch.lanes sha256 master batch.forgedClaim (forgedWires batch openings)).map startOf) seed =
          .ok (runnings, batch.challenges, transcript) ∧
      Accepts (runnings.forM (checkCoupling batch.challenges)) := by
  have hrun : ∀ openings : Column → ConstructedOpening, ∃ runnings transcript,
      roundLoop sha256 batch.derive roots batch.top.statement.variableCount 0
        ((batch.lanes sha256 master batch.forgedClaim (forgedWires batch openings)).map startOf) seed =
          .ok (runnings, batch.challenges, transcript) ∧
      Accepts (runnings.forM (checkCoupling batch.challenges)) := by
    intro openings
    obtain ⟨runnings, hrunnings⟩ := @exists_forall₂ _ _
      (fun x y => LaneRun 0 batch.top.statement.variableCount batch.challenges x y ∧
        Accepts (checkCoupling batch.challenges y))
      ((batch.lanes sha256 master batch.forgedClaim (forgedWires batch openings)).map startOf)
      fun x hx => by
        obtain ⟨lane, hlane, rfl⟩ := List.mem_map.mp hx
        obtain ⟨column, hcolumn, power, rfl⟩ := exists_column_of_mem_lanes hlane
        exact (laneRun_checked_iff hcolumn rfl rfl rfl rfl column.canonical_finalValue
          (canonical_ofField _)).mpr (Batch.columnChecked_forged hcolumn rfl rfl)
    obtain ⟨transcript, hloop⟩ := @exists_roundLoop sha256 batch.derive roots
      batch.top.statement.variableCount 0 _ _ seed batch.challenges batch.length_challenges_eq
      (fun k c hk t => by
        rw [Batch.derive, if_neg batchFoldLabel_ne, getItem_eq_ok, Nat.zero_add]
        exact hk)
      (fun k hk => by
        rw [Nat.zero_add]
        exact hroots k hk)
      (hrunnings.imp fun _ _ h => h.1)
    refine ⟨runnings, transcript, hloop, forM_accepts_iff.mpr fun y hy => ?_⟩
    obtain ⟨k, hk⟩ := List.mem_iff_getElem?.mp hy
    obtain ⟨x, -, -, haccepts⟩ := forall₂_getElem? hrunnings.flip hk
    exact haccepts
  -- the openings do not reach the transcript
  obtain ⟨runnings₀, transcript, hloop₀, -⟩ := hrun fun _ => o
  refine ⟨transcript, fun openings => ?_⟩
  obtain ⟨runnings, transcript', hloop, haccepts⟩ := hrun openings
  have hsame : List.Forall₂ SameRounds
      ((batch.lanes sha256 master batch.forgedClaim (forgedWires batch fun _ => o)).map startOf)
      ((batch.lanes sha256 master batch.forgedClaim (forgedWires batch openings)).map startOf) := by
    rw [List.forall₂_map_left_iff, List.forall₂_map_right_iff, Batch.lanes, Batch.lanes, lanesOf,
      lanesOf, List.forall₂_map_left_iff, List.forall₂_map_right_iff, List.forall₂_iff_zip]
    have hlength : (forgedWires batch fun _ => o).length = (forgedWires batch openings).length := by
      rw [length_forgedWires, length_forgedWires]
    refine ⟨by simp [hlength], fun {a b} hab => ?_⟩
    obtain ⟨k, hk⟩ := List.mem_iff_getElem?.mp hab
    obtain ⟨ha, hb⟩ := List.getElem?_zip_eq_some.mp hk
    obtain ⟨hcomponent, hrest⟩ := List.getElem?_zip_eq_some.mp ha
    obtain ⟨hwire, -⟩ := List.getElem?_zip_eq_some.mp hrest
    obtain ⟨hcomponent', hrest'⟩ := List.getElem?_zip_eq_some.mp hb
    obtain ⟨hwire', -⟩ := List.getElem?_zip_eq_some.mp hrest'
    have heq := Option.some.inj (hcomponent.symm.trans hcomponent')
    rw [forgedWires, List.getElem?_map, Option.map_eq_some_iff] at hwire hwire'
    obtain ⟨column, hcolumn, hwire⟩ := hwire
    obtain ⟨column', hcolumn', hwire'⟩ := hwire'
    obtain rfl := Option.some.inj (hcolumn.symm.trans hcolumn')
    obtain ⟨component, wire, power⟩ := a
    obtain ⟨component', wire', power'⟩ := b
    dsimp only at heq hwire hwire'
    subst heq hwire hwire'
    exact ⟨rfl, rfl, rfl⟩
  obtain rfl := transcript_congr hsame hloop₀ hloop
  exact ⟨runnings, hloop, haccepts⟩

/-- The roots of the true fold chain. -/
def layerRoots (batch : Batch) (sha256 : Bytes → Digest) (master : ℤ) (seed : Digest) : List Bytes :=
  (List.range batch.top.statement.variableCount).map fun l =>
    (wordCommitment sha256 (batchLayerBinding sha256 seed (l + 1))
      (batch.top.statement.variableCount + 2 - (l + 1))
      (layerWord master batch.top batch.terms batch.challenges (l + 1))).bytes

theorem getElem?_layerRoots (seed : Digest) {l : ℕ} (hl : l < batch.top.statement.variableCount) :
    (layerRoots batch sha256 master seed)[l]? =
      some (wordCommitment sha256 (batchLayerBinding sha256 seed (l + 1))
        (batch.top.statement.variableCount + 2 - (l + 1))
        (layerWord master batch.top batch.terms batch.challenges (l + 1))).bytes := by
  rw [layerRoots, List.getElem?_map, List.getElem?_range hl, Option.map_some]

section Positions

variable {positions : List ℕ} (hne : positions ≠ []) (hle : positions.length ≤ maxQueryCount)

/-- The openings of the true fold chain. -/
def layerOpenings (batch : Batch) (sha256 : Bytes → Digest) (master : ℤ) (seed : Digest) :
    List ConstructedOpening :=
  List.ofFn fun k : Fin batch.top.statement.variableCount =>
    layerOpened sha256 master batch seed hne hle (Nat.succ_le_of_lt k.isLt)

theorem getElem?_layerOpenings (seed : Digest) {l : ℕ} {o : ConstructedOpening}
    (h : (layerOpenings hne hle batch sha256 master seed)[l]? = some o) :
    ∃ hl : l + 1 ≤ batch.top.statement.variableCount,
      o = layerOpened sha256 master batch seed hne hle hl := by
  obtain ⟨hl, rfl⟩ := List.getElem?_eq_some_iff.mp h
  rw [layerOpenings, List.length_ofFn] at hl
  exact ⟨hl, by simp [layerOpenings]⟩

/-- The columns and the layers of a truthful proof are opened. -/
theorem exists_bases (lib : Bool) (claimed : Column → ℤ) :
    ∃ bases, (batch.lanes sha256 master claimed
        (forgedWires batch (baseOpened sha256 master hne hle))).mapM
          (verifyBase sha256 lib positions) = .ok bases ∧
      List.Forall₂ (fun lane opened => IsOpened lane.wire.baseOpening opened)
        (batch.lanes sha256 master claimed
          (forgedWires batch (baseOpened sha256 master hne hle))) bases := by
  obtain ⟨bases, hbases⟩ := @exists_forall₂ _ _
    (fun lane opened => verifyBase sha256 lib positions lane = .ok opened ∧
      IsOpened lane.wire.baseOpening opened)
    (batch.lanes sha256 master claimed
      (forgedWires batch (baseOpened sha256 master hne hle)))
    fun lane hlane => by
      obtain ⟨column, hcolumn, power, rfl⟩ := exists_column_of_mem_lanes hlane
      obtain ⟨u, hverify⟩ := @verify_wordOpened sha256 (column.statement.layerBindingDigest sha256 0)
        _ (column.codeword master) _ (variableCount_add_two_le column.statement)
        (baseIndices_admitted hne column.statement) (length_layerQueryIndices_le_cap hle _ _) lib _
        (codewordSize_eq column.statement)
      obtain ⟨opened, hopened, hlookup⟩ :=
        openedValues_constructed (baseOpened sha256 master hne hle column)
      refine ⟨opened, ?_, hlookup⟩
      simp only [verifyBase, bind_eq_ok]
      exact ⟨u, hverify, hopened⟩
  exact ⟨bases, mapM_eq_ok.mpr (hbases.imp fun _ _ h => h.1), hbases.imp fun _ _ h => h.2⟩

theorem exists_layers (lib : Bool) (seed : Digest) :
    ∃ layers, verifyBatchLayers sha256 lib seed batch.top.statement.codewordSize
        batch.top.statement.variableCount (layerRoots batch sha256 master seed) positions
        (layerOpenings hne hle batch sha256 master seed) 1 = .ok layers ∧
      ∀ (l : ℕ) (hl : l + 1 ≤ batch.top.statement.variableCount), ∃ opened,
        layers[l]? = some opened ∧
          IsOpened (layerOpened sha256 master batch seed hne hle hl) opened := by
  obtain ⟨layers, hlayers⟩ := @exists_verifyBatchLayers sha256 positions lib seed
    batch.top.statement.codewordSize batch.top.statement.variableCount
    (layerRoots batch sha256 master seed) (layerOpenings hne hle batch sha256 master seed) 1 le_rfl
    fun k o ho => by
      obtain ⟨hl, rfl⟩ := getElem?_layerOpenings hne hle seed ho
      refine ⟨_, by rw [Nat.sub_self, Nat.zero_add]; exact getElem?_layerRoots seed hl, ?_⟩
      rw [Nat.add_comm 1 k]
      exact @verify_wordOpened sha256 (batchLayerBinding sha256 seed (k + 1)) _
        (layerWord master batch.top batch.terms batch.challenges (k + 1)) _
        ((Nat.sub_le _ _).trans (variableCount_add_two_le batch.top.statement))
        (layerQueryIndices_admitted batch.top.statement hne hl)
        (length_layerQueryIndices_le_cap hle _ _) lib _
        (codewordSize_shiftRight batch.top.statement (by omega))
  refine ⟨layers, hlayers, fun l hl => ?_⟩
  have hget : (layerOpenings hne hle batch sha256 master seed)[l]? =
      some (layerOpened sha256 master batch seed hne hle hl) := by
    rw [layerOpenings, List.getElem?_ofFn]
    exact dif_pos (Nat.lt_of_succ_le hl)
  exact forall₂_getElem? (isOpened_of_verifyBatchLayers hlayers) hget

end Positions

/-- The query phase accepts a forged proof whose final errors cancel. -/
theorem verifyQueries_accepts (hmaster : chainMasterShift sha256 = .ok master)
    (hsum : (batch.terms.map fun term => term.1 * batch.finalError term.2).sum = 0) (lib : Bool)
    (claimed : Column → ℤ) (seed transcript : Digest)
    (hne : queryPositions sha256 transcript batch.top.statement.codewordSize
      batch.top.statement.queryCount ≠ [])
    (hle : (queryPositions sha256 transcript batch.top.statement.codewordSize
      batch.top.statement.queryCount).length ≤ maxQueryCount) :
    Accepts (verifyQueries sha256 lib
      ⟨forgedWires batch (baseOpened sha256 master hne hle), layerRoots batch sha256 master seed,
        layerOpenings hne hle batch sha256 master seed⟩
      ⟨batch.top.statement, batch.lanes sha256 master claimed
        (forgedWires batch (baseOpened sha256 master hne hle)), seed, batch.rho, batch.challenges,
        transcript⟩) := by
  set n := batch.top.statement.variableCount with hn
  have hpos : n - 1 + 1 = n := Nat.sub_add_cancel batch.top.statement.one_le_variableCount
  obtain ⟨bases, hbasesOk, hbases⟩ := @exists_bases batch sha256 master _ hne hle lib claimed
  obtain ⟨layers, hlayersOk, hlayers⟩ := @exists_layers batch sha256 master _ hne hle lib seed
  obtain ⟨u, hfolds⟩ := forM_accepts_iff.mpr fun r hr => forM_accepts_iff.mpr fun position hposition =>
    checkBatchFold_accepts hbases hlayers hmaster (List.mem_range.mp hr) hposition
  -- the combination of the final values is the constant of the last layer
  obtain ⟨terminal, hterminal, hcanonical⟩ := @exists_terminalValue
    (batch.lanes sha256 master claimed (forgedWires batch (baseOpened sha256 master hne hle)))
    fun lane hlane => by
      obtain ⟨column, -, power, rfl⟩ := exists_column_of_mem_lanes hlane
      exact column.canonical_finalValue
  have hvalue : ∀ i, (terminal : F) = layerWord master batch.top batch.terms batch.challenges n i := by
    intro i
    rw [layerWord_last (baseShift_spec (batch.top.baseShift_eq_ok master hmaster)).2
      batch.length_challenges_eq fun term hterm => batch.variableCount_le_of_mem_terms hterm,
      intCast_terminalValue hterminal, sum_lanes (length_forgedWires _) _
        (fun term => term.1 * (term.2.finalValue : F)) fun k column wire power hcolumn hwire hpower => by
          obtain rfl := Option.some.inj ((getElem?_forgedWires _ hcolumn).symm.trans hwire)
          rw [hpower], sum_finalValue, hsum, zero_add]
    rfl
  obtain ⟨finalLayer, hget, hopened⟩ := hlayers (n - 1) hpos.le
  have hfinal := (@final_iff terminal _ _ hopened).mpr fun i hi => by
    rw [openedValue_layerOpened hi]
    refine (canonical_ofField _).ext hcanonical ?_
    rw [intCast_ofField, hvalue i, hpos]
  simp only [Accepts, verifyQueries, bind_eq_ok, raiseIf_eq_ok, getItem_eq_ok]
  exact ⟨(), bases, hbasesOk, layers, hlayersOk, u, hfolds, terminal, hterminal, finalLayer, hget,
    hfinal⟩

theorem exists_accepted_forgery (hmaster : chainMasterShift sha256 = .ok master)
    (hcancels : batch.Cancels) :
    ∃ run, batch.IsAccepted sha256 master run ∧ ¬ batch.ClaimsHold run ∧ ¬ batch.SomeLucky run := by
  obtain ⟨hsum, column, hcolumn, herror⟩ := hcancels
  obtain ⟨seed, hseed⟩ := @exists_batchSeed batch sha256 master batch.forgedClaim
    (fun column => canonical_ofField _) Digest.zero
  -- the transcript does not depend on the openings, so the queries can be opened after it
  obtain ⟨transcript, htranscript⟩ := @exists_transcript batch sha256 master seed
    (layerRoots batch sha256 master seed) (fun k hk => ⟨_, getElem?_layerRoots seed hk⟩)
    (@baseOpened [0] sha256 master (by decide) (by decide) column)
  have hlength := length_queryPositions sha256 transcript batch.top.statement.codewordSize
    batch.top.statement.queryCount
  have hne : queryPositions sha256 transcript batch.top.statement.codewordSize
      batch.top.statement.queryCount ≠ [] := by
    rw [← List.length_pos_iff, hlength]
    exact batch.top.statement.one_le_queryCount
  have hle : (queryPositions sha256 transcript batch.top.statement.codewordSize
      batch.top.statement.queryCount).length ≤ maxQueryCount := by
    rw [hlength]
    exact batch.top.statement.queryCount_le
  obtain ⟨runnings, hloop, hcoupling⟩ := htranscript (baseOpened sha256 master hne hle)
  set wires := forgedWires batch (baseOpened sha256 master hne hle) with hwires
  set run : Transcript := ⟨batch.derive, false, batch.forgedClaim,
    ⟨wires, layerRoots batch sha256 master seed, layerOpenings hne hle batch sha256 master seed⟩,
    Digest.zero.bytes, ⟨batch.top.statement, batch.lanes sha256 master batch.forgedClaim wires, seed,
      batch.rho, batch.challenges, transcript⟩⟩ with hrun
  have hsumchecks : verifySumchecks sha256 run.derive run.proof
      (batch.components sha256 master run.claimed) run.validatorNonce = .ok run.checked := by
    refine verifySumchecks_eq_ok.mpr ⟨?_, by simp [hrun, layerRoots], by simp [hrun, layerOpenings],
      seed, batch.rho, runnings, batch.challenges, transcript, hseed,
      batch.derive_batchRlcLabel seed 0, fun lane hlane => ?_, hloop, hcoupling, rfl⟩
    · simp [hrun, hwires, forgedWires]
    · obtain ⟨other, -, power, rfl⟩ := exists_column_of_mem_lanes hlane
      exact canonical_ofField _
  obtain ⟨u, hqueries⟩ := verifyQueries_accepts hmaster hsum false batch.forgedClaim seed transcript
    hne hle
  refine ⟨run, ⟨⟨u, ?_⟩, hsumchecks, rfl, rfl, ?_, ?_⟩, ?_, ?_⟩
  · rw [verifyGoldilocksBatchedOpeningV3, exceptBatchMalformed_eq_ok, bind_eq_ok]
    exact ⟨run.checked, hsumchecks, hqueries⟩
  · simp [hrun, hwires, forgedWires]
  · intro l root o hroot ho
    obtain ⟨hl, rfl⟩ := getElem?_layerOpenings hne hle seed ho
    obtain rfl := Option.some.inj ((getElem?_layerRoots seed hl).symm.trans hroot)
    exact commits_wordOpened
  · exact fun hclaims => Batch.forgedClaim_ne herror (hclaims column hcolumn)
  · rintro ⟨other, wire, j, hmem, hlucky⟩
    obtain ⟨k, hk⟩ := List.mem_iff_getElem?.mp hmem
    obtain ⟨hother, hwire⟩ := List.getElem?_zip_eq_some.mp hk
    dsimp only at hother hwire
    obtain rfl := Option.some.inj ((getElem?_forgedWires _ hother).symm.trans hwire)
    exact Batch.not_luckyRound_forged (batch.mem_order.mp (List.mem_of_getElem? hother)) j hlucky

/-- The batched opening binds every claim of a batch exactly when the errors of the final values do
not cancel in the combination, or are lost in the couplings. -/
theorem binds_iff (hmaster : chainMasterShift sha256 = .ok master) (batch : Batch) :
    batch.Binds sha256 master ↔ ¬ batch.Cancels := by
  constructor
  · intro hbinds hcancels
    obtain ⟨run, haccepted, hclaims, hlucky⟩ := exists_accepted_forgery hmaster hcancels
    rcases hbinds run haccepted with h | h
    · exact hclaims h
    · exact hlucky h
  · exact binds_of_not_cancels hmaster

/-! ## Two columns -/

theorem canonicalVector_zero : CanonicalVector [0] := by
  simp [CanonicalVector, Canonical, goldilocksModulus]

/-- A zero column in one variable, opened at zero. -/
def zeroColumn (tag : String) (finalValue : ℤ) (h : Canonical finalValue) : Column where
  tag := tag
  statement := { oneVariableStatement with cosetProfile := .chain }
  point := [0]
  values := [0, 0]
  finalValue := finalValue
  cosetProfile_eq := rfl
  length_point := rfl
  canonical_point := canonicalVector_zero
  length_values := rfl
  canonical_finalValue := h

theorem columnOrder_zeroColumns {first second : ℤ} (hfirst : Canonical first)
    (hsecond : Canonical second) :
    columnOrder [zeroColumn "a" first hfirst, zeroColumn "b" second hsecond] =
      [zeroColumn "a" first hfirst, zeroColumn "b" second hsecond] := by
  have hle : KeyLe Column.statement Column.tag (zeroColumn "a" first hfirst)
      (zeroColumn "b" second hsecond) := Or.inr ⟨rfl, show ("a" : String) ≤ "b" by decide⟩
  exact List.insertionSort_cons_of_forall_rel _ (by simpa using hle)

/-- Two zero columns under the coefficient 3 and the challenge 3. -/
def twoColumns (first second : ℤ) (hfirst : Canonical first) (hsecond : Canonical second) : Batch where
  columns := [zeroColumn "a" first hfirst, zeroColumn "b" second hsecond]
  rho := 3
  challenges := [3]
  columns_ne_nil := List.cons_ne_nil _ _
  tags_nodup := show ["a", "b"].Nodup by decide
  queryCount_eq := by
    intro column hcolumn other hother
    rcases List.mem_pair.mp hcolumn with rfl | rfl <;> rcases List.mem_pair.mp hother with rfl | rfl <;>
      rfl
  length_challenges := by
    intro top htop
    rw [columnOrder_zeroColumns, List.head?_cons, Option.mem_some_iff] at htop
    subst htop
    rfl

theorem chainMasterShift_constantThree : chainMasterShift constantThree = .ok 3 := by
  simp only [chainMasterShift, digestWord_constantThree]
  exact rejectionSample_first _ 65535 (by decide +kernel)

section TwoColumns

variable {first second : ℤ} {hfirst : Canonical first} {hsecond : Canonical second}

theorem finalError_zeroColumn (batch : Batch) (tag : String) {value : ℤ} (h : Canonical value) :
    batch.finalError (zeroColumn tag value h) = value := by
  have hzero : fieldAt (zeroColumn tag value h).values = fun _ => (0 : F) * 0 := by
    funext i
    rw [mul_zero]
    rcases i with _ | _ | i <;> simp [fieldAt, zeroColumn]
  rw [Batch.finalError, hzero, foldAll_smul]
  simp only [zero_mul, sub_zero]
  rfl

theorem sum_finalError_twoColumns :
    ((twoColumns first second hfirst hsecond).terms.map fun term =>
      term.1 * (twoColumns first second hfirst hsecond).finalError term.2).sum = first + 3 * second := by
  have horder : (twoColumns first second hfirst hsecond).order =
      [zeroColumn "a" first hfirst, zeroColumn "b" second hsecond] :=
    columnOrder_zeroColumns hfirst hsecond
  have hrho : ((twoColumns first second hfirst hsecond).rho : F) = 3 := by
    rw [twoColumns]
    norm_num
  rw [Batch.terms, horder, hrho]
  simp [finalError_zeroColumn]

theorem coupling_twoColumns : (twoColumns first second hfirst hsecond).coupling
    (zeroColumn "b" second hsecond) = -2 := by
  have htop : (twoColumns first second hfirst hsecond).top.statement =
      (zeroColumn "b" second hsecond).statement := by
    have h := (twoColumns first second hfirst hsecond).head?_order
    rw [Batch.order, twoColumns, columnOrder_zeroColumns, List.head?_cons, Option.some.injEq] at h
    rw [twoColumns, ← h]
    rfl
  have hchallenges : (twoColumns first second hfirst hsecond).columnChallenges
      (zeroColumn "b" second hsecond) = [3] := by
    rw [Batch.columnChallenges, htop, Column.join, Nat.sub_self, List.drop_zero]
    rfl
  rw [Batch.coupling, hchallenges]
  simp [zeroColumn, toField, eqTerm]
  norm_num

end TwoColumns

theorem cancels_twoColumns :
    (twoColumns (goldilocksModulus - 3) 1 (by decide) (by decide)).Cancels := by
  refine ⟨?_, zeroColumn "b" 1 (by decide), List.mem_cons_of_mem _ List.mem_cons_self, ?_⟩
  · rw [sum_finalError_twoColumns]
    simp
  · rw [coupling_twoColumns, finalError_zeroColumn, Int.cast_one, one_mul, neg_ne_zero]
    exact two_ne_zero_F

/-- The opening of two zero columns does not bind their claims: with the final values `-3` and 1 the
verifier accepts wrong claims without a lucky round. -/
theorem twoColumns_not_binds : ¬ (twoColumns (goldilocksModulus - 3) 1 (by decide)
    (by decide)).Binds constantThree 3 := by
  intro hbinds
  obtain ⟨run, haccepted, hclaims, hlucky⟩ :=
    exists_accepted_forgery chainMasterShift_constantThree cancels_twoColumns
  rcases hbinds run haccepted with h | h
  · exact hclaims h
  · exact hlucky h

/-- With the final values `-3` and 2, which do not cancel, the opening binds the claims. -/
theorem binds_iff_twoColumns :
    (twoColumns (goldilocksModulus - 3) 2 (by decide) (by decide)).Binds constantThree 3 := by
  refine (binds_iff chainMasterShift_constantThree _).mpr fun hcancels => ?_
  have hsum := hcancels.1
  rw [sum_finalError_twoColumns] at hsum
  exact absurd hsum (by decide +kernel)

end Transcript

end Verathos.Batched
