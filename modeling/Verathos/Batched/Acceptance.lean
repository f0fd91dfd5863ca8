import Verathos.Batched.Batch

/-!
# What the sumchecks of a batch accept

`ColumnChecked` is what the round loop and the coupling check say about one column, without the
error paths. `columnChecked_of_sumchecks` reads it off a run that the verifier accepts;
`exists_sumchecks` runs the verifier on columns for which it holds.
-/

namespace Verathos.Batched

open Merkle Pcs Multilinear

/-! ## One column -/

theorem couplingProduct_eq_ok {challenges point : List ℤ} {join variableCount : ℕ}
    (hpoint : point.length = variableCount) (hcanonical : CanonicalVector point)
    (hlength : join + variableCount = challenges.length) :
    ∃ eqProduct, couplingProduct challenges join point variableCount = .ok eqProduct ∧
      (eqProduct : F) = (((toField (challenges.drop join)).zip (toField point)).map
        fun x => eqTerm x.1 x.2).prod := by
  set pairs := (toField (challenges.drop join)).zip (toField point) with hpairs
  have hcount : pairs.length = variableCount := by
    simp only [hpairs, List.length_zip, length_toField, List.length_drop, hpoint]
    omega
  have hloop : ∀ m ≤ variableCount, ∃ eqProduct,
      (List.range m).foldlM (fun (eqProduct : ℤ) j => do
        let c ← getItem challenges (join + j)
        let r ← getItem point j
        let r ← field r "batch point"
        return eqProduct * eqTermOf c r % goldilocksModulus) 1 = (.ok eqProduct : Result ℤ) ∧
      (eqProduct : F) = ((pairs.take m).map fun x => eqTerm x.1 x.2).prod := by
    intro m hm
    induction m with
    | zero => exact ⟨1, rfl, by simp⟩
    | succ m ih =>
      obtain ⟨eqProduct, hprefix, hvalue⟩ := ih (by omega)
      have hc : challenges[join + m]? = some challenges[join + m] :=
        List.getElem?_eq_getElem (by omega)
      have hr : point[m]? = some point[m] := List.getElem?_eq_getElem (by omega)
      have hm' : m < pairs.length := by omega
      have hpair : pairs[m] = ((challenges[join + m] : F), (point[m] : F)) := by
        simp [hpairs, toField]
      refine ⟨eqProduct * eqTermOf challenges[join + m] point[m] % goldilocksModulus, ?_, ?_⟩
      · rw [List.range_succ, List.foldlM_append, bind_eq_ok]
        refine ⟨eqProduct, hprefix, ?_⟩
        simp only [List.foldlM_cons, List.foldlM_nil, bind_eq_ok, pure_eq_ok, getItem_eq_ok,
          field_eq_ok]
        exact ⟨_, ⟨_, hc, _, hr, _, ⟨hcanonical _ (List.mem_of_getElem? hr), rfl⟩, rfl⟩, rfl⟩
      · rw [List.take_succ_eq_append_getElem (by omega), List.map_append, List.prod_append, ← hvalue,
          List.map_singleton, List.prod_singleton, hpair, intCast_emod, Int.cast_mul, eqTermOf,
          intCast_emod, eqTerm]
        push_cast
        rfl
  obtain ⟨eqProduct, hproduct, hvalue⟩ := hloop variableCount le_rfl
  refine ⟨eqProduct, hproduct, ?_⟩
  rw [hvalue, List.take_of_length_le hcount.le]

/-- What the verifier checks of one column of a batch: its rounds form a chain from the claimed value
to its final value times the coupling. -/
structure ColumnChecked (batch : Batch) (column : Column)
    (wire : GoldilocksBatchedComponentOpeningV3) (claimed : ℤ) : Prop where
  length_rounds : wire.roundPolynomials.length = column.statement.variableCount
  canonical_claimed : Canonical claimed
  chain : ∃ running, roundChain wire.roundPolynomials (batch.columnChallenges column) claimed =
    .ok running ∧ Canonical running ∧ (running : F) = wire.finalValue * batch.coupling column

section Column

variable {batch : Batch} {column : Column} {wire : GoldilocksBatchedComponentOpeningV3}
  {lane : Lane} {claimed : ℤ}

theorem laneRun_checked_iff (hcolumn : column ∈ batch.columns)
    (hstatement : lane.component.statement = column.statement)
    (hpoint : lane.component.point = column.point) (hwire : lane.wire = wire)
    (hjoin : lane.join = column.join batch.top.statement) (hfinal : Canonical wire.finalValue)
    (hclaimed : Canonical claimed) :
    (∃ y, LaneRun 0 batch.top.statement.variableCount batch.challenges (lane, ⟨claimed, 0⟩) y ∧
        Accepts (checkCoupling batch.challenges y)) ↔ ColumnChecked batch column wire claimed := by
  have hadd := batch.join_add hcolumn
  have hrest : batch.top.statement.variableCount - (lane.join - 0) =
      column.statement.variableCount := by
    rw [hjoin, ← batch.length_challenges_eq]
    omega
  obtain ⟨eqProduct, hproduct, hvalue⟩ := couplingProduct_eq_ok column.length_point
    column.canonical_point hadd
  -- the coupling check of a lane with a running value
  have hcheck : ∀ running : Running, Accepts (checkCoupling batch.challenges (lane, running)) ↔
      wire.roundPolynomials.length = column.statement.variableCount ∧
        running.value = wire.finalValue * eqProduct % goldilocksModulus := by
    intro running
    simp only [Accepts, checkCoupling, bind_eq_ok, raiseIf_eq_ok, not_not, field_eq_ok, hstatement,
      hpoint, hwire, hjoin, hproduct, Except.ok.injEq]
    constructor
    · rintro ⟨_, _, hlength, _, rfl, _, ⟨-, rfl⟩, hcoupling⟩
      exact ⟨hlength, hcoupling⟩
    · rintro ⟨hlength, hcoupling⟩
      exact ⟨(), (), hlength, eqProduct, rfl, _, ⟨hfinal, rfl⟩, hcoupling⟩
  constructor
  · rintro ⟨⟨lane', running⟩, hrun, haccepts⟩
    obtain rfl : lane' = lane := hrun.lane
    obtain ⟨hlength, hcoupling⟩ := (hcheck running).mp haccepts
    have hchain := hrun.chain
    dsimp only at hchain
    rw [hrest, List.drop_zero, hwire, List.take_of_length_le hlength.le, Nat.sub_zero, hjoin] at hchain
    refine ⟨hlength, hclaimed, running.value, hchain, hcoupling ▸ canonical_emod _, ?_⟩
    rw [hcoupling, intCast_emod, Int.cast_mul, hvalue]
    rfl
  · rintro ⟨hlength, -, running, hchain, hrunning, hcoupling⟩
    refine ⟨(lane, ⟨running, column.statement.variableCount⟩), ⟨rfl, ?_, ?_⟩, ?_⟩
    · dsimp only
      rw [hrest, Nat.zero_add]
    · dsimp only
      rw [hrest, List.drop_zero, hwire, List.take_of_length_le hlength.le, Nat.sub_zero, hjoin]
      exact hchain
    · refine (hcheck _).mpr ⟨hlength, ?_⟩
      rw [hrunning.eq_emod_iff, hcoupling, Int.cast_mul, hvalue]
      rfl

/-- The rounds of a checked column are sound: when the final value is right up to the coupling, the
claim is right or some round is lucky. -/
theorem ColumnChecked.sound (h : ColumnChecked batch column wire claimed)
    (hcolumn : column ∈ batch.columns) (hfinal : wire.finalValue = column.finalValue)
    (herror : batch.finalError column * batch.coupling column = 0) :
    claimed = multilinearExtension column.values column.point ∨
      ∃ j, LuckyRound column wire.roundPolynomials (batch.columnChallenges column) j := by
  by_cases hclaimed : claimed = multilinearExtension column.values column.point
  · exact Or.inl hclaimed
  · right
    obtain ⟨running, hchain, hrunning, hvalue⟩ := h.chain
    have hlast : (running : F) =
        foldAll (toField (batch.columnChallenges column)) (fieldAt column.values) 0 *
          foldAll (toField (batch.columnChallenges column)) (eqWeight (toField column.point)) 0 := by
      rw [hvalue, hfinal, ← batch.coupling_eq_foldAll hcolumn]
      rw [Batch.finalError, sub_mul, sub_eq_zero] at herror
      exact herror
    obtain ⟨j, -, g, c, hg, hc, hne, hagree⟩ := exists_luckyRound
      (by rw [column.length_values, column.length_point]) (batch.length_columnChallenges hcolumn)
      hchain hrunning hlast hclaimed
    exact ⟨j, g, c, hg, hc, hne, hagree⟩

end Column

/-! ## All columns -/

section Sumchecks

variable {batch : Batch} {sha256 : Bytes → Digest} {master : ℤ}

/-- A position of the order has a share of the proof. -/
theorem getElem?_wires {wires : List GoldilocksBatchedComponentOpeningV3}
    (hlength : wires.length = batch.order.length) {k : ℕ} {column : Column}
    (h : batch.order[k]? = some column) : ∃ wire, wires[k]? = some wire := by
  have hk := (List.getElem?_eq_some_iff.mp h).1
  exact ⟨_, List.getElem?_eq_getElem (hlength ▸ hk)⟩

theorem length_lanes {wires : List GoldilocksBatchedComponentOpeningV3}
    (hlength : wires.length = batch.order.length) (claimed : Column → ℤ) :
    (batch.lanes sha256 master claimed wires).length = batch.order.length := by
  simp [Batch.lanes, lanesOf, Batch.orderedComponents, hlength]

/-- The running values that the rounds start from. -/
def startOf (lane : Lane) : Lane × Running := (lane, ⟨lane.component.claimedValue, 0⟩)

theorem mapM_start_eq_ok {lanes : List Lane} {starts : List (Lane × Running)} :
    (lanes.mapM fun lane => do
      let claim ← field lane.component.claimedValue "batch claim"
      return (lane, (⟨claim, 0⟩ : Running))) = .ok starts ↔
      (∀ lane ∈ lanes, Canonical lane.component.claimedValue) ∧ starts = lanes.map startOf := by
  refine mapM_eq_ok_of_iff fun lane start => ?_
  simp only [bind_eq_ok, field_eq_ok, pure_eq_ok]
  constructor
  · rintro ⟨_, ⟨h, rfl⟩, rfl⟩
    exact ⟨h, rfl⟩
  · rintro ⟨h, rfl⟩
    exact ⟨_, ⟨h, rfl⟩, rfl⟩

theorem forM_components_accepts (claimed : Column → ℤ) :
    Accepts ((batch.components sha256 master claimed).forM fun component => do
      requireChain component.statement
      raiseIf (component.point.length ≠ component.statement.variableCount)
        (.proofV3VerificationError "batched opening point arity is wrong")) := by
  rw [forM_accepts_iff]
  intro component hcomponent
  obtain ⟨column, -, rfl⟩ := List.mem_map.mp hcomponent
  simp only [Accepts, requireChain, bind_eq_ok, raiseIf_eq_ok, not_not]
  exact ⟨(), (), column.cosetProfile_eq, column.length_point⟩

theorem verifySumchecks_eq_ok {derive : Derive} {claimed : Column → ℤ}
    {proof : GoldilocksBatchedOpeningProofV3} {validatorNonce : Bytes} {checked : Sumchecks} :
    verifySumchecks sha256 derive proof (batch.components sha256 master claimed) validatorNonce =
        .ok checked ↔
      batch.order.map (·.tag) = proof.components.map (·.tag) ∧
      proof.layerCommitments.length = batch.top.statement.variableCount ∧
      proof.layerOpenings.length = batch.top.statement.variableCount ∧
      ∃ seed rho runnings challenges transcript,
        batchSeed sha256 (batch.orderedComponents sha256 master claimed) validatorNonce = .ok seed ∧
        derive seed batchRlcLabel 0 = .ok rho ∧
        (∀ lane ∈ lanesOf batch.top.statement.variableCount rho
          (batch.orderedComponents sha256 master claimed) proof.components,
          Canonical lane.component.claimedValue) ∧
        roundLoop sha256 derive proof.layerCommitments batch.top.statement.variableCount 0
          ((lanesOf batch.top.statement.variableCount rho
            (batch.orderedComponents sha256 master claimed) proof.components).map startOf) seed =
              .ok (runnings, challenges, transcript) ∧
        Accepts (runnings.forM (checkCoupling challenges)) ∧
        checked = ⟨batch.top.statement, lanesOf batch.top.statement.variableCount rho
          (batch.orderedComponents sha256 master claimed) proof.components, seed, rho, challenges,
          transcript⟩ := by
  have hne : batch.components sha256 master claimed ≠ [] := by
    rw [Ne, Batch.components, List.map_eq_nil_iff]
    exact batch.columns_ne_nil
  obtain ⟨u, hforM⟩ := @forM_components_accepts batch sha256 master claimed
  have htop : (batch.orderedComponents sha256 master claimed)[0]? =
      some (batch.top.component sha256 master (claimed batch.top)) := by
    rw [Batch.orderedComponents, List.getElem?_map, batch.getElem?_order_zero, Option.map_some]
  have hqueries : ¬ ∃ component ∈ batch.orderedComponents sha256 master claimed,
      component.statement.queryCount ≠ batch.top.statement.queryCount := by
    rintro ⟨component, hcomponent, hcount⟩
    obtain ⟨column, hcolumn, rfl⟩ := List.mem_map.mp hcomponent
    refine hcount (batch.queryCount_eq _ (batch.mem_order.mp hcolumn) _ (batch.mem_order.mp ?_))
    exact List.mem_of_getElem? batch.getElem?_order_zero
  have htags : (batch.orderedComponents sha256 master claimed).map (·.tag) =
      batch.order.map (·.tag) := by
    rw [Batch.orderedComponents, List.map_map]
    rfl
  simp only [verifySumchecks, bind_eq_ok, raiseIf_eq_ok, pure_eq_ok, getItem_eq_ok, not_not,
    batch.sortedOrder_components, mapM_start_eq_ok, not_or, Except.ok.injEq]
  constructor
  · rintro ⟨_, _, _, _, _, rfl, _, htagsEq, _, htop', _, _, _, ⟨hroots, hopenings⟩, seed, hseed, rho,
      hrho, _, ⟨hcanonical, rfl⟩, ⟨runnings, challenges, transcript⟩, hloop, v, hcoupling, rfl⟩
    obtain rfl := Option.some.inj (htop.symm.trans htop')
    exact ⟨htags.symm.trans htagsEq, hroots, hopenings, seed, rho, runnings, challenges, transcript, hseed, hrho,
      hcanonical, hloop, ⟨v, hcoupling⟩, rfl⟩
  · rintro ⟨htagsEq, hroots, hopenings, seed, rho, runnings, challenges, transcript, hseed, hrho,
      hcanonical, hloop, ⟨v, hcoupling⟩, rfl⟩
    exact ⟨(), hne, u, hforM, _, rfl, (), htags.trans htagsEq, _, htop, (), hqueries, (), ⟨hroots, hopenings⟩, seed,
      hseed, rho, hrho, _, ⟨hcanonical, rfl⟩, (runnings, challenges, transcript), hloop, v, hcoupling,
      rfl⟩

theorem columnChecked_of_sumchecks {derive : Derive} {claimed : Column → ℤ}
    {proof : GoldilocksBatchedOpeningProofV3} {validatorNonce : Bytes} {checked : Sumchecks}
    (h : verifySumchecks sha256 derive proof (batch.components sha256 master claimed)
      validatorNonce = .ok checked) (hrho : checked.rho = batch.rho)
    (hchallenges : checked.challenges = batch.challenges)
    (hfinals : proof.components.map (·.finalValue) = batch.order.map (·.finalValue)) :
    checked.lanes = batch.lanes sha256 master claimed proof.components ∧
      checked.top = batch.top.statement ∧
      ∀ (k : ℕ) (column : Column) (wire : GoldilocksBatchedComponentOpeningV3),
        batch.order[k]? = some column → proof.components[k]? = some wire →
          wire.finalValue = column.finalValue ∧
            ColumnChecked batch column wire (claimed column) := by
  obtain ⟨-, -, -, seed, rho, runnings, challenges, transcript, -, -, hcanonical, hloop, hcoupling,
    rfl⟩ := verifySumchecks_eq_ok.mp h
  obtain rfl : rho = batch.rho := hrho
  obtain rfl : challenges = batch.challenges := hchallenges
  obtain ⟨-, hruns⟩ := roundLoop_sound hloop
  refine ⟨rfl, rfl, fun k column wire hcolumn hwire => ?_⟩
  have hfinal : wire.finalValue = column.finalValue := by
    have hget := congrArg (fun list => list[k]?) hfinals
    simpa [List.getElem?_map, hcolumn, hwire] using hget
  obtain ⟨power, hlane, -⟩ := @Batch.getElem?_lanes sha256 master batch claimed _ _ _ _ hcolumn hwire
  have hstart : ((batch.lanes sha256 master claimed proof.components).map startOf)[k]? =
      some (startOf ⟨column.component sha256 master (claimed column), wire,
        column.join batch.top.statement, power⟩) := by
    rw [List.getElem?_map, hlane, Option.map_some]
  obtain ⟨y, hy, hrun⟩ := forall₂_getElem? hruns hstart
  refine ⟨hfinal, (laneRun_checked_iff (batch.mem_order.mp (List.mem_of_getElem? hcolumn)) rfl rfl
    rfl rfl (hfinal ▸ column.canonical_finalValue)
    (hcanonical _ (List.mem_of_getElem? hlane))).mp ⟨y, hrun, ?_⟩⟩
  exact forM_accepts_iff.mp hcoupling y (List.mem_of_getElem? hy)

end Sumchecks

end Verathos.Batched
