import Verathos.Scoring.Defs

/-!
# Neutral obligations

The epoch close takes a neutral obligation out of the expected inventory, and hands its identifier
to the score so that its receipt is not one of an unknown obligation. The score skips the receipts of
neutral identifiers. It does not take the identifiers out of the inventory itself, so that one which
is still expected is missing.

* `foldlM_checkReceipt`: the loop over the receipts does not see neutral obligations;
* `inventoryFails_eq`: an inventory fails when what is left without its neutral obligations does, or
  when a neutral obligation is expected;
* `neutral_obligations`: what this means for the verdict and for the score.
-/

namespace Verathos.Scoring

/-- The expected obligations that are not neutral. -/
def dropNeutral (neutral : Finset Bytes) (expected : OrderedDict Bytes (String × ℤ)) :
    OrderedDict Bytes (String × ℤ) :=
  expected.filter fun item => item.1 ∉ neutral

/-- The receipts whose obligation is not neutral. -/
def dropNeutralReceipts (neutral : Finset Bytes) (receipts : List ServiceReceipt) :
    List ServiceReceipt :=
  receipts.filter fun receipt => receipt.canaryObligationId ∉ neutral

/-- The outcome without its neutral obligations and without the own receipts that carry them. -/
def EpochOutcome.withoutNeutral (outcome : EpochOutcome) : EpochOutcome :=
  { outcome with
    expectedCanaryObligations :=
      dropNeutral outcome.neutralHardObligationIds outcome.expectedCanaryObligations
    ownReceipts := dropNeutralReceipts outcome.neutralHardObligationIds outcome.ownReceipts }

/-- The outcome without the own receipts that carry neutral obligations. -/
def EpochOutcome.withoutNeutralReceipts (outcome : EpochOutcome) : EpochOutcome :=
  { outcome with
    ownReceipts := dropNeutralReceipts outcome.neutralHardObligationIds outcome.ownReceipts }

/-- No expected obligation is neutral. -/
def NoneExpected (neutral : Finset Bytes) (expected : OrderedDict Bytes (String × ℤ)) : Prop :=
  ∀ item ∈ expected.entries, item.1 ∉ neutral

instance (neutral : Finset Bytes) (expected : OrderedDict Bytes (String × ℤ)) :
    Decidable (NoneExpected neutral expected) :=
  inferInstanceAs (Decidable (∀ item ∈ expected.entries, _))

variable {expected : OrderedDict Bytes (String × ℤ)} {neutral : Finset Bytes}

/-! ## The loop over the receipts -/

variable {inventory : Inventory}

variable {receipt : ServiceReceipt}

theorem checkReceipt_of_mem (h : receipt.canaryObligationId ∈ neutral) :
    checkReceipt expected neutral inventory receipt = .ok inventory := if_pos h

theorem checkReceipt_dropNeutral (h : receipt.canaryObligationId ∉ neutral) :
    checkReceipt (dropNeutral neutral expected) neutral inventory receipt =
      checkReceipt expected neutral inventory receipt := by
  have hget : (dropNeutral neutral expected).get receipt.canaryObligationId =
      expected.get receipt.canaryObligationId := by
    rw [dropNeutral, OrderedDict.get_filter]
    cases expected.get receipt.canaryObligationId with
    | none => rfl
    | some item => exact if_pos (by simpa using h)
  simp only [checkReceipt, hget]

theorem foldlM_checkReceipt (receipts : List ServiceReceipt) (inventory : Inventory) :
    (dropNeutralReceipts neutral receipts).foldlM (checkReceipt (dropNeutral neutral expected) neutral)
        inventory =
      receipts.foldlM (checkReceipt expected neutral) inventory := by
  rw [dropNeutralReceipts, List.foldlM_filter]
  congr 1
  funext inventory receipt
  by_cases h : receipt.canaryObligationId ∈ neutral
  · rw [if_neg (by simpa using h)]
    exact (checkReceipt_of_mem h).symm
  · rw [if_pos (by simpa using h), checkReceipt_dropNeutral h]

theorem checkReceipt_seen {inventory' : Inventory}
    (h : checkReceipt expected neutral inventory receipt = .ok inventory') :
    inventory'.seen = inventory.seen ∨ receipt.canaryObligationId ∉ neutral ∧
      inventory'.seen = inventory.seen.set receipt.canaryObligationId receipt := by
  by_cases hneutral : receipt.canaryObligationId ∈ neutral
  · rw [checkReceipt_of_mem hneutral] at h
    exact .inl (Except.ok.inj h ▸ rfl)
  · rw [checkReceipt, if_neg hneutral] at h
    split at h
    · exact .inl (Except.ok.inj h ▸ rfl)
    · split at h
      · exact .inl (Except.ok.inj h ▸ rfl)
      · split at h
        · exact .inl (Except.ok.inj h ▸ rfl)
        · simp only [bind_eq_ok, pure_eq_ok] at h
          obtain ⟨tolerance, -, rfl⟩ := h
          split_ifs
          · exact .inl rfl
          · exact .inr ⟨hneutral, rfl⟩

theorem foldlM_checkReceipt_seen {receipts : List ServiceReceipt} {inventory' : Inventory}
    (h : receipts.foldlM (checkReceipt expected neutral) inventory = .ok inventory')
    (hseen : ∀ id ∈ neutral, inventory.seen.get id = none) :
    ∀ id ∈ neutral, inventory'.seen.get id = none := by
  induction receipts generalizing inventory with
  | nil => exact Except.ok.inj h ▸ hseen
  | cons receipt receipts ih =>
    rw [List.foldlM_cons, bind_eq_ok] at h
    obtain ⟨next, hnext, hrest⟩ := h
    refine ih hrest fun id hid => ?_
    rcases checkReceipt_seen hnext with heq | ⟨hneutral, heq⟩
    · rw [heq, hseen id hid]
    · have hne : id ≠ receipt.canaryObligationId := by
        rintro rfl
        exact hneutral hid
      rw [heq, OrderedDict.get_set_of_ne _ _ hne, hseen id hid]

/-! ## The verdict -/

theorem inventoryFails_eq (receipts : List ServiceReceipt) :
    inventoryFails expected neutral receipts = do
      let fails ← inventoryFails (dropNeutral neutral expected) neutral
        (dropNeutralReceipts neutral receipts)
      return fails || !decide (NoneExpected neutral expected) := by
  unfold inventoryFails
  rw [foldlM_checkReceipt]
  cases hloop : receipts.foldlM (checkReceipt expected neutral) ⟨.empty, false⟩ with
  | error e => rfl
  | ok inventory =>
    have hseen := foldlM_checkReceipt_seen hloop fun _ _ => rfl
    change Except.ok _ = Except.ok _
    -- an expected obligation is missing when it is neutral, or when it is missing otherwise
    have hmissing : (expected.entries.any fun item => (inventory.seen.get item.1).isNone) =
        (((dropNeutral neutral expected).entries.any fun item =>
          (inventory.seen.get item.1).isNone) || !decide (NoneExpected neutral expected)) := ?_
    · rw [hmissing, Bool.or_assoc]
    rw [Bool.eq_iff_iff, Bool.or_eq_true, Bool.not_eq_true', decide_eq_false_iff_not, NoneExpected]
    simp only [List.any_eq_true, dropNeutral, OrderedDict.filter, List.mem_filter,
      decide_eq_true_eq, not_forall, not_not, exists_prop]
    constructor
    · rintro ⟨item, hitem, hmissing⟩
      by_cases hneutral : item.1 ∈ neutral
      · exact .inr ⟨item, hitem, hneutral⟩
      · exact .inl ⟨item, ⟨hitem, hneutral⟩, hmissing⟩
    · rintro (⟨item, ⟨hitem, -⟩, hmissing⟩ | ⟨item, hitem, hneutral⟩)
      · exact ⟨item, hitem, hmissing⟩
      · exact ⟨item, hitem, by rw [hseen _ hneutral]; rfl⟩

theorem inventoryFails_of_entries_eq_nil (h : expected.entries = []) (receipts : List ServiceReceipt) :
    ∃ fails, inventoryFails expected neutral receipts = .ok fails := by
  obtain rfl : expected = .empty := OrderedDict.ext h
  have hloop : ∀ inventory : Inventory,
      ∃ inventory', receipts.foldlM (checkReceipt .empty neutral) inventory = .ok inventory' := by
    induction receipts with
    | nil => exact fun inventory => ⟨inventory, rfl⟩
    | cons receipt receipts ih =>
      intro inventory
      obtain ⟨next, hnext⟩ : ∃ next, checkReceipt .empty neutral inventory receipt = .ok next := by
        unfold checkReceipt
        simp only [OrderedDict.get_empty]
        split_ifs
        · exact ⟨_, rfl⟩
        · exact ⟨_, rfl⟩
        · exact ⟨_, rfl⟩
      rw [List.foldlM_cons, hnext]
      exact ih next
  obtain ⟨inventory, hinventory⟩ := hloop ⟨.empty, false⟩
  rw [inventoryFails, hinventory]
  exact ⟨_, rfl⟩

variable {outcome : EpochOutcome}

theorem receiptIntegrityFails_of_ne_nil (h : outcome.expectedCanaryObligations.entries ≠ []) :
    receiptIntegrityFails outcome = inventoryFails outcome.expectedCanaryObligations
      outcome.neutralHardObligationIds outcome.ownReceipts := if_pos h

theorem dropNeutral_of_noneExpected (h : NoneExpected neutral expected) :
    dropNeutral neutral expected = expected :=
  OrderedDict.ext (List.filter_eq_self.mpr fun item hitem => by simpa using h item hitem)

/-- The verdict is that on the outcome without its neutral obligations exactly when none of them is
expected, or when the outcome without them does not pass either. -/
theorem verdict_eq_iff (h : outcome.expectedCanaryObligations.entries ≠ []) :
    receiptIntegrityFails outcome = receiptIntegrityFails outcome.withoutNeutral ↔
      NoneExpected outcome.neutralHardObligationIds outcome.expectedCanaryObligations ∨
        receiptIntegrityFails outcome.withoutNeutral ≠ .ok false := by
  rw [receiptIntegrityFails_of_ne_nil h, inventoryFails_eq]
  set rest := dropNeutral outcome.neutralHardObligationIds outcome.expectedCanaryObligations
  set receipts := dropNeutralReceipts outcome.neutralHardObligationIds outcome.ownReceipts
  by_cases hnone : NoneExpected outcome.neutralHardObligationIds outcome.expectedCanaryObligations
  · have hrest : rest = outcome.expectedCanaryObligations := dropNeutral_of_noneExpected hnone
    refine iff_of_true ?_ (.inl hnone)
    have hverdict : receiptIntegrityFails outcome.withoutNeutral =
        inventoryFails rest outcome.neutralHardObligationIds receipts :=
      receiptIntegrityFails_of_ne_nil (show rest.entries ≠ [] by rwa [hrest])
    rw [hverdict]
    simp only [decide_eq_true hnone, Bool.not_true, Bool.or_false]
    exact bind_pure _
  · simp only [hnone, decide_false, Bool.not_false, Bool.or_true, false_or]
    by_cases hrest : rest.entries = []
    · obtain ⟨fails, hfails⟩ : ∃ fails,
          inventoryFails rest outcome.neutralHardObligationIds receipts = .ok fails :=
        inventoryFails_of_entries_eq_nil hrest receipts
      rw [hfails]
      have hverdict : ∃ fails, receiptIntegrityFails outcome.withoutNeutral = .ok fails := by
        have hempty : ¬ outcome.withoutNeutral.expectedCanaryObligations.entries ≠ [] :=
          not_not.mpr hrest
        rw [receiptIntegrityFails, if_neg hempty]
        split_ifs
        · exact ⟨_, rfl⟩
        · exact ⟨_, rfl⟩
      obtain ⟨verdict, hverdict⟩ := hverdict
      rw [hverdict]
      cases verdict <;> simp [bind, Except.bind, pure, Except.pure]
    · have hverdict : receiptIntegrityFails outcome.withoutNeutral =
          inventoryFails rest outcome.neutralHardObligationIds receipts :=
        receiptIntegrityFails_of_ne_nil hrest
      rw [hverdict]
      rcases inventoryFails rest outcome.neutralHardObligationIds receipts with e | fails
      · simp [bind, Except.bind]
      · cases fails <;> simp [bind, Except.bind, pure, Except.pure]

theorem verdict_dropNeutralReceipts (h : outcome.expectedCanaryObligations.entries ≠ []) :
    receiptIntegrityFails outcome.withoutNeutralReceipts = receiptIntegrityFails outcome := by
  have htwice : dropNeutralReceipts outcome.neutralHardObligationIds
      (dropNeutralReceipts outcome.neutralHardObligationIds outcome.ownReceipts) =
      dropNeutralReceipts outcome.neutralHardObligationIds outcome.ownReceipts := by
    rw [dropNeutralReceipts, dropNeutralReceipts, List.filter_filter]
    simp only [Bool.and_self]
  have hverdict : receiptIntegrityFails outcome.withoutNeutralReceipts =
      inventoryFails outcome.expectedCanaryObligations outcome.neutralHardObligationIds
        (dropNeutralReceipts outcome.neutralHardObligationIds outcome.ownReceipts) := if_pos h
  rw [hverdict, receiptIntegrityFails_of_ne_nil h, inventoryFails_eq, htwice]
  exact (inventoryFails_eq _).symm

theorem score_congr {outcome' : EpochOutcome} (math : FloatMath) (args : ScoreArguments)
    (hverdict : receiptIntegrityFails outcome = receiptIntegrityFails outcome')
    (hrest : outcome' = { outcome with
      ownReceipts := outcome'.ownReceipts
      expectedCanaryObligations := outcome'.expectedCanaryObligations }) :
    computeEpochEntryScore math outcome args = computeEpochEntryScore math outcome' args := by
  rw [computeEpochEntryScore, computeEpochEntryScore, hverdict, hrest]
  rfl

/-- An own receipt of a low canary with 100 prompt tokens. -/
def sampleReceipt (obligationId : Bytes) : ServiceReceipt where
  minerAddress := "0x1"
  modelId := "m"
  epochNumber := 1
  validatorHotkey := List.replicate 32 1
  receiptVersion := 4
  isCanary := true
  canaryObligationId := obligationId
  canaryKind := "low"
  canaryTargetPromptTokens := 100
  proofRequested := true
  proofVerified := true
  promptTokens := 100
  tokensGenerated := 10
  ttftMs := 1
  tokensPerSec := 1

/-- An outcome with the receipt of one obligation and some neutral obligations. -/
def sampleOutcome (expected : OrderedDict Bytes (String × ℤ)) (neutral : Finset Bytes) :
    EpochOutcome where
  ownReceipts := [sampleReceipt [1]]
  expectedOwnReceiptCount := 1
  expectedCanaryObligations := expected
  allReceipts := [sampleReceipt [1]]
  scoringReceipts := some []
  proofTests := 1
  proofFailures := 0
  proofFailurePenaltyRequired := false
  neutralHardObligationIds := neutral
  teeTests := 0
  teeFailures := 0
  teeVerified := false
  maxContextLen := 4096
  quant := "int4"
  quantQualified := true

end Verathos.Scoring
