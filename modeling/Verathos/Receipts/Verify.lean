import Verathos.Lib.OrderedDict
import Verathos.Receipts.Defs

/-!
# Signing and verifying receipts

A translation of `sign_receipt`, `verify_service_receipt` and what it calls, from
`neurons/receipts.py`. The Sr25519 key pair and the SS58 encoding come from outside the repository:
`Sr25519` collects the functions that the code uses of them.
-/

namespace Verathos.Receipts

/-- What the code uses of the key pair library and of the address encoding. -/
structure Sr25519 where
  ss58Encode : Bytes → String
  /-- `Keypair(ss58_address=address).verify(message, signature)`. -/
  verify : String → Bytes → Bytes → Bool
  sign : Bytes → Bytes → Bytes

/-! ## The authority -/

/-- A double that is not a number. -/
def Double.IsNaN (x : Double) : Prop := x &&& 0x7FFFFFFFFFFFFFFF > 0x7FF0000000000000

instance (x : Double) : Decidable (Double.IsNaN x) := inferInstanceAs (Decidable (_ > _))

/-- The bits of a double as a number that orders the doubles which are numbers. -/
def Double.rank (x : Double) : ℤ :=
  if x < 0x8000000000000000 then x.toNat else -((x &&& 0x7FFFFFFFFFFFFFFF).toNat : ℤ)

/-- `a < b`. -/
def Double.less (a b : Double) : Prop := ¬ IsNaN a ∧ ¬ IsNaN b ∧ rank a < rank b

instance (a b : Double) : Decidable (Double.less a b) := inferInstanceAs (Decidable (_ ∧ _))

structure ValidatorAuthority where
  ss58ToUid : OrderedDict String ℕ
  validatorPermit : List Bool
  stakes : List Double
  minStake : Double

def ValidatorAuthority.lookup (authority : ValidatorAuthority) (ss58 : String) : Option ℕ := do
  let uid ← authority.ss58ToUid.get ss58
  -- a list that is too short for the UID is an `IndexError`, which also gives nothing
  let permit ← authority.validatorPermit[uid]?
  let stake ← authority.stakes[uid]?
  if permit = false ∨ Double.less stake authority.minStake then none else some uid

/-! ## Signing -/

section Keys

variable (keys : Sr25519)

def signReceipt (receipt : ServiceReceipt) (hotkeySeed : Bytes) : Result ServiceReceipt := do
  let message ← encodeReceiptMessage receipt
  let signature := keys.sign (hotkeySeed.take 32) message
  return { receipt with timingSignature := [], validatorSignature := signature }

/-! ## Verifying -/

def encodeReceiptTimingMessage (receipt : ServiceReceipt) : Result Bytes := do
  let legacy ← encodeReceiptMessageV1 receipt
  let version ← packQ receipt.receiptVersion
  let timingSource ← packText receipt.timingSource
  return asciiBytes "VERATHOS_RECEIPT_TIMING_V2" ++ (legacy ++ (receipt.validatorSignature ++
    (version ++ (timingSource ++
      (packD (orZero receipt.observedStartTs) ++ packD (orZero receipt.observedEndTs))))))

def verifyReceiptTimingSignature (receipt : ServiceReceipt) : Bool :=
  decide (2 ≤ versionOf receipt) && decide (receipt.timingSource = "validator_observed") &&
    decide (receipt.validatorHotkey.length = 32) &&
    decide (receipt.validatorSignature.length = 64) &&
    decide (receipt.timingSignature.length = 64) &&
    match encodeReceiptTimingMessage receipt with
    | .ok message =>
      keys.verify (keys.ss58Encode receipt.validatorHotkey) message receipt.timingSignature
    | .error _ => false

/-- The rejections before the signature: epoch, freshness, lengths and authority. -/
def passesChecks (receipt : ServiceReceipt) (epochNumber : ℤ)
    (authority : Option ValidatorAuthority) (now : ℤ) (receiptWindowSec : ℚ) : Bool :=
  decide (receipt.epochNumber = epochNumber) &&
    decide ((|now - receipt.timestamp| : ℚ) ≤ receiptWindowSec) &&
    decide (receipt.validatorHotkey.length = 32) &&
    decide (receipt.validatorSignature.length = 64) &&
    authority.any fun authority =>
      (authority.lookup (keys.ss58Encode receipt.validatorHotkey)).isSome

/-- The primary signature verifies. -/
def verifiesPrimary (receipt : ServiceReceipt) : Bool :=
  match encodeReceiptMessage receipt with
  | .ok message =>
    keys.verify (keys.ss58Encode receipt.validatorHotkey) message receipt.validatorSignature
  | .error _ => false

/-- The legacy pair of a v1 signature and a timing signature verifies. An exception on the way to it
rejects the receipt. -/
def verifiesFallback (receipt : ServiceReceipt) : Bool :=
  match encodeReceiptMessage receipt, encodeReceiptMessageV1 receipt with
  | .ok _, .ok message =>
    decide (2 ≤ versionOf receipt) && decide (receipt.timingSignature.length = 64) &&
      keys.verify (keys.ss58Encode receipt.validatorHotkey) message receipt.validatorSignature &&
      verifyReceiptTimingSignature keys receipt
  | _, _ => false

def verifyServiceReceipt (receipt : ServiceReceipt) (epochNumber : ℤ)
    (authority : Option ValidatorAuthority) (now : ℤ) (receiptWindowSec : ℚ) : Bool :=
  passesChecks keys receipt epochNumber authority now receiptWindowSec &&
    (verifiesPrimary keys receipt || verifiesFallback keys receipt)

/-- A receipt that is accepted through its primary signature. -/
def AcceptedPrimary (receipt : ServiceReceipt) (epochNumber : ℤ)
    (authority : Option ValidatorAuthority) (now : ℤ) (receiptWindowSec : ℚ) : Prop :=
  verifyServiceReceipt keys receipt epochNumber authority now receiptWindowSec ∧
    verifiesPrimary keys receipt

end Keys

/-- What an accepted receipt satisfies: its hotkey has 32 bytes, and its message verifies. -/
theorem AcceptedPrimary.spec {keys : Sr25519} {receipt : ServiceReceipt} {epochNumber : ℤ}
    {authority : Option ValidatorAuthority} {now : ℤ} {receiptWindowSec : ℚ}
    (h : AcceptedPrimary keys receipt epochNumber authority now receiptWindowSec) :
    receipt.validatorHotkey.length = 32 ∧ ∃ message, encodeReceiptMessage receipt = .ok message ∧
      keys.verify (keys.ss58Encode receipt.validatorHotkey) message
        receipt.validatorSignature = true := by
  obtain ⟨haccepted, hprimary⟩ := h
  constructor
  · simp only [verifyServiceReceipt, passesChecks, Bool.and_eq_true, decide_eq_true_eq] at haccepted
    exact haccepted.1.1.1.2
  · unfold verifiesPrimary at hprimary
    split at hprimary
    · exact ⟨_, by assumption, hprimary⟩
    · simp at hprimary

end Verathos.Receipts
