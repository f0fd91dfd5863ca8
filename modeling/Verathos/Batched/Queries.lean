import Verathos.Batched.Acceptance

/-!
# The query phase of a batch

The sums of the query phase (`rlcAt`, `terminalValue`) in the field, and what an accepted query phase
says about a transcript whose layers are true: the errors of the final values cancel
(`sum_finalError`). `binds_of_not_cancels` is the binding that is left: when the errors do not
cancel, every claim is right or some round is lucky.
-/

namespace Verathos.Batched

open Merkle Pcs Multilinear

/-! ## Sums -/

section FoldlM

variable {α : Type} {step : ℤ → α → Result ℤ} {term : α → F} {items : List α}

theorem intCast_foldlM (hstep : ∀ item ∈ items, ∀ total next,
      step total item = .ok next → (next : F) = total + term item) {start last : ℤ}
    (h : items.foldlM step start = .ok last) : (last : F) = start + (items.map term).sum := by
  induction items generalizing start with
  | nil =>
    obtain rfl : start = last := by simpa using h
    simp
  | cons item items ih =>
    rw [List.foldlM_cons, bind_eq_ok] at h
    obtain ⟨next, hnext, hrest⟩ := h
    rw [ih (fun item' h' => hstep item' (List.mem_cons_of_mem _ h')) hrest,
      hstep item List.mem_cons_self start next hnext, List.map_cons, List.sum_cons, add_assoc]

theorem exists_foldlM (hstep : ∀ item ∈ items, ∀ total, Accepts (step total item)) (start : ℤ) :
    ∃ last, items.foldlM step start = .ok last := by
  induction items generalizing start with
  | nil => exact ⟨start, rfl⟩
  | cons item items ih =>
    obtain ⟨next, hnext⟩ := hstep item List.mem_cons_self start
    obtain ⟨last, hlast⟩ := ih (fun item' h' => hstep item' (List.mem_cons_of_mem _ h')) next
    refine ⟨last, ?_⟩
    rw [List.foldlM_cons, bind_eq_ok]
    exact ⟨next, hnext, hlast⟩

theorem canonical_foldlM (hstep : ∀ item ∈ items, ∀ total next,
      step total item = .ok next → Canonical next) {start last : ℤ} (hstart : Canonical start)
    (h : items.foldlM step start = .ok last) : Canonical last := by
  induction items generalizing start with
  | nil =>
    obtain rfl : start = last := by simpa using h
    exact hstart
  | cons item items ih =>
    rw [List.foldlM_cons, bind_eq_ok] at h
    obtain ⟨next, hnext, hrest⟩ := h
    exact ih (fun item' h' => hstep item' (List.mem_cons_of_mem _ h'))
      (hstep item List.mem_cons_self start next hnext) hrest

end FoldlM

theorem intCast_terminalValue {lanes : List Lane} {terminal : ℤ}
    (h : terminalValue lanes = .ok terminal) :
    (terminal : F) = (lanes.map fun lane => (lane.power : F) * lane.wire.finalValue).sum := by
  have hsum := @intCast_foldlM _ _ (fun lane : Lane => (lane.power : F) * lane.wire.finalValue) _
    (fun lane _ total next hnext => by
      simp only [bind_eq_ok, field_eq_ok, pure_eq_ok] at hnext
      obtain ⟨_, ⟨-, rfl⟩, rfl⟩ := hnext
      rw [intCast_emod, Int.cast_add, Int.cast_mul]) _ _ h
  rwa [Int.cast_zero, zero_add] at hsum

theorem exists_terminalValue {lanes : List Lane}
    (h : ∀ lane ∈ lanes, Canonical lane.wire.finalValue) :
    ∃ terminal, terminalValue lanes = .ok terminal ∧ Canonical terminal := by
  obtain ⟨terminal, hterminal⟩ := @exists_foldlM _ (fun (terminal : ℤ) (lane : Lane) => do
      let final ← field lane.wire.finalValue "final value"
      return (terminal + lane.power * final) % goldilocksModulus) _
    (fun lane hlane total => by
      simp only [Accepts, bind_eq_ok, field_eq_ok, pure_eq_ok]
      exact ⟨_, _, ⟨h lane hlane, rfl⟩, rfl⟩) 0
  refine ⟨terminal, hterminal, canonical_foldlM (fun lane _ total next hnext => ?_)
    ⟨le_rfl, goldilocksModulus_pos⟩ hterminal⟩
  simp only [bind_eq_ok, field_eq_ok, pure_eq_ok] at hnext
  obtain ⟨_, -, rfl⟩ := hnext
  exact canonical_emod _

/-! ## Layers -/

theorem isOpened_of_verifyBatchLayers {sha256 : Bytes → Digest} {lib : Bool} {seed : Digest}
    {baseSize nMax layerIndex : ℕ} {roots : List Bytes} {positions : List ℕ}
    {openings : List ConstructedOpening} {layers : List Opened}
    (h : verifyBatchLayers sha256 lib seed baseSize nMax roots positions openings layerIndex =
      .ok layers) : List.Forall₂ IsOpened openings layers := by
  induction openings generalizing layerIndex layers with
  | nil =>
    obtain rfl : [] = layers := by simpa [verifyBatchLayers] using h
    exact .nil
  | cons o openings ih =>
    simp only [verifyBatchLayers, bind_eq_ok, pure_eq_ok] at h
    obtain ⟨_, _, _, _, opened, hopened, others, hothers, rfl⟩ := h
    obtain ⟨opened', hopened', hlookup⟩ := openedValues_constructed o
    obtain rfl : opened' = opened := Except.ok.inj (hopened'.symm.trans hopened)
    exact .cons hlookup (ih hothers)

/-! ## The terminal check -/

section Terminal

variable {batch : Batch} {sha256 : Bytes → Digest} {master : ℤ}

theorem sum_lanes {claimed : Column → ℤ} {wires : List GoldilocksBatchedComponentOpeningV3}
    (hlength : wires.length = batch.order.length) (f : Lane → F) (g : F × Column → F)
    (h : ∀ (k : ℕ) (column : Column) (wire : GoldilocksBatchedComponentOpeningV3) (power : ℤ),
      batch.order[k]? = some column → wires[k]? = some wire → (power : F) = (batch.rho : F) ^ k →
      f ⟨column.component sha256 master (claimed column), wire, column.join batch.top.statement,
        power⟩ = g ((batch.rho : F) ^ k, column)) :
    ((batch.lanes sha256 master claimed wires).map f).sum = (batch.terms.map g).sum := by
  refine congrArg List.sum (List.ext_getElem? fun k => ?_)
  rw [List.getElem?_map, List.getElem?_map, Batch.terms, List.getElem?_map, List.getElem?_zipIdx]
  cases hcolumn : batch.order[k]? with
  | none =>
    have hk : (batch.lanes sha256 master claimed wires)[k]? = none := by
      rw [List.getElem?_eq_none_iff, length_lanes hlength]
      exact List.getElem?_eq_none_iff.mp hcolumn
    rw [hk]
    rfl
  | some column =>
    obtain ⟨wire, hwire⟩ := getElem?_wires hlength hcolumn
    obtain ⟨power, hlane, hpower⟩ := @Batch.getElem?_lanes sha256 master batch claimed _ _ _ _ hcolumn hwire
    rw [hlane]
    simp only [Option.map_some, Nat.zero_add]
    rw [h k column wire power hcolumn hwire hpower]

/-- The shares of an accepted proof are as many as the columns. -/
theorem Batch.IsAccepted.length_components {run : Transcript}
    (h : batch.IsAccepted sha256 master run) :
    run.proof.components.length = batch.order.length := by
  have hlength := congrArg List.length h.finalValues_eq
  simpa using hlength

/-- The combination of the final values is the combination of the bound columns and the
errors. -/
theorem sum_finalValue (batch : Batch) :
    (batch.terms.map fun term => term.1 * (term.2.finalValue : F)).sum =
      (batch.terms.map fun term => term.1 * batch.finalError term.2).sum +
        (batch.terms.map fun term => term.1 *
          foldAll (toField (batch.columnChallenges term.2)) (fieldAt term.2.values) 0).sum := by
  rw [← List.sum_map_add]
  refine congrArg List.sum (List.map_congr_left fun term _ => ?_)
  rw [Batch.finalError]
  ring

theorem sum_finalError {run : Transcript} (hmaster : chainMasterShift sha256 = .ok master)
    (h : batch.IsAccepted sha256 master run) :
    (batch.terms.map fun term => term.1 * batch.finalError term.2).sum = 0 := by
  obtain ⟨hlanes, htop, hchecked⟩ :=
    columnChecked_of_sumchecks h.sumchecks h.rho_eq h.challenges_eq h.finalValues_eq
  obtain ⟨-, hroots, hopenings, -⟩ := verifySumchecks_eq_ok.mp h.sumchecks
  -- the query phase accepts
  obtain ⟨u, haccepts⟩ := h.accepts
  rw [verifyGoldilocksBatchedOpeningV3, exceptBatchMalformed_eq_ok, bind_eq_ok] at haccepts
  obtain ⟨checked, hsumchecks, hqueries⟩ := haccepts
  obtain rfl : checked = run.checked := Except.ok.inj (hsumchecks.symm.trans h.sumchecks)
  simp only [verifyQueries, bind_eq_ok, raiseIf_eq_ok, getItem_eq_ok] at hqueries
  obtain ⟨_, -, layers, hlayers, _, -, terminal, hterminal, finalLayer, hfinalLayer, hfinal⟩ :=
    hqueries
  rw [htop] at hfinalLayer
  -- the last layer
  set n := batch.top.statement.variableCount with hn
  have hpos : 1 ≤ n := batch.top.statement.one_le_variableCount
  obtain ⟨o, hget⟩ : ∃ o, run.proof.layerOpenings[n - 1]? = some o :=
    ⟨_, List.getElem?_eq_getElem (by omega)⟩
  obtain ⟨finalLayer', hfinalLayer', hopened⟩ :=
    forall₂_getElem? (isOpened_of_verifyBatchLayers hlayers) hget
  obtain rfl := Option.some.inj (hfinalLayer.symm.trans hfinalLayer')
  obtain ⟨i, hi⟩ := List.exists_mem_of_ne_nil _ o.admitted.indices.ne_nil
  have hvalue : openedValue o i = terminal := (final_iff hopened).mp hfinal i hi
  obtain ⟨root, hroot⟩ : ∃ root, run.proof.layerCommitments[n - 1]? = some root :=
    ⟨_, List.getElem?_eq_getElem (by omega)⟩
  have hword := (h.layers (n - 1) _ o hroot hget).opened i hi
  rw [Nat.sub_add_cancel hpos, hvalue, layerWord_last
    (baseShift_spec (batch.top.baseShift_eq_ok master hmaster)).2 batch.length_challenges_eq
    fun term hterm => batch.variableCount_le_of_mem_terms hterm] at hword
  -- both sides as sums over the columns
  rw [intCast_terminalValue hterminal, hlanes, sum_lanes h.length_components _
    (fun term => term.1 * (term.2.finalValue : F)) fun k column wire power hcolumn hwire hpower => by
      rw [hpower, (hchecked k column wire hcolumn hwire).1]] at hword
  rw [sum_finalValue] at hword
  exact add_eq_right.mp hword

theorem binds_of_not_cancels (hmaster : chainMasterShift sha256 = .ok master)
    (hcancels : ¬ batch.Cancels) : batch.Binds sha256 master := by
  intro run h
  have hsum := sum_finalError hmaster h
  have herrors : ∀ column ∈ batch.columns, batch.finalError column * batch.coupling column = 0 := by
    intro column hcolumn
    by_contra hne
    exact hcancels ⟨hsum, column, hcolumn, hne⟩
  obtain ⟨-, -, hchecked⟩ :=
    columnChecked_of_sumchecks h.sumchecks h.rho_eq h.challenges_eq h.finalValues_eq
  -- either some column has a lucky round, or every column is sound
  by_cases hlucky : batch.SomeLucky run
  · exact Or.inr hlucky
  · refine Or.inl fun column hcolumn => ?_
    obtain ⟨k, hk⟩ := List.mem_iff_getElem?.mp (batch.mem_order.mpr hcolumn)
    obtain ⟨wire, hwire⟩ := getElem?_wires h.length_components hk
    obtain ⟨hfinal, hcolumnChecked⟩ := hchecked k column wire hk hwire
    rcases hcolumnChecked.sound hcolumn hfinal (herrors column hcolumn) with hclaim | ⟨j, hj⟩
    · exact hclaim
    · exact absurd ⟨column, wire, j,
        List.mem_of_getElem? (List.getElem?_zip_eq_some.mpr ⟨hk, hwire⟩), hj⟩ hlucky

end Terminal

end Verathos.Batched
