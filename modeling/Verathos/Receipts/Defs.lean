import Verathos.Basic

/-!
# Service receipts

A translation of the signed message of `neurons/receipts.py`: the receipt, the four nested layouts
of its message and the choice between them.

A Python float is the 64 bits of its double, which `struct.pack(">d", …)` writes. Integers are
unbounded and `struct.pack` raises when one does not fit.
-/

namespace Verathos.Receipts

/-- The bits of a Python float. -/
abbrev Double := UInt64

/-- `value or 0.0`: both zeros are false. -/
def orZero (value : Double) : Double := if value = 0 ∨ value = 0x8000000000000000 then 0 else value

/-- `text.encode("utf-8")`. -/
def utf8 (text : String) : Bytes := text.toByteArray.data.toList

theorem utf8_injective : Function.Injective utf8 := by
  intro a b h
  exact String.toByteArray_inj.mp (ByteArray.ext (Array.toList_inj.mp h))

theorem fromUtf8_eq_some {encoded : Bytes} {text : String} :
    String.fromUTF8? ⟨encoded.toArray⟩ = some text ↔ encoded = utf8 text := by
  have hbytes : encoded = utf8 text ↔ text.toByteArray = ⟨encoded.toArray⟩ := by
    constructor
    · rintro rfl
      rfl
    · intro h
      rw [utf8, h]
  unfold String.fromUTF8?
  rw [hbytes]
  split_ifs with hvalid
  · change some (String.fromUTF8 _ hvalid) = some text ↔ _
    rw [Option.some.injEq, ← String.toByteArray_inj, eq_comm]
    rfl
  · refine iff_of_false (by simp) fun h => hvalid ?_
    rw [← h]
    exact text.isValidUTF8

/-! ## `struct.pack` -/

/-- The exception of `struct.pack`. -/
def structError : PyError := .builtin "struct.error"

/-- The integers that `">q"` holds. -/
def FitsQ (value : ℤ) : Prop := -2 ^ 63 ≤ value ∧ value < 2 ^ 63

instance (value : ℤ) : Decidable (FitsQ value) := inferInstanceAs (Decidable (_ ∧ _))

/-- `struct.pack(">q", value)`. -/
def packQ (value : ℤ) : Result Bytes := do
  raiseIf (¬ FitsQ value) structError
  return BigEndian.toBytesSigned 8 value

/-- `struct.pack(">I", value)` of a count. -/
def packI (value : ℕ) : Result Bytes := do
  raiseIf (¬ value < 2 ^ 32) structError
  return BigEndian.toBytes 4 value

/-- `struct.pack(">d", value)`. -/
def packD (value : Double) : Bytes := BigEndian.toBytes 8 value.toNat

/-- `struct.pack(">?", value)`. -/
def packBool (value : Bool) : Bytes := [if value then 1 else 0]

@[simp]
theorem packQ_eq_ok {value : ℤ} {bytes : Bytes} :
    packQ value = .ok bytes ↔ FitsQ value ∧ bytes = BigEndian.toBytesSigned 8 value := by
  simp only [packQ, bind_eq_ok, raiseIf_eq_ok, not_not, pure_eq_ok, exists_const]
  rw [@eq_comm _ bytes]

@[simp]
theorem packI_eq_ok {value : ℕ} {bytes : Bytes} :
    packI value = .ok bytes ↔ value < 2 ^ 32 ∧ bytes = BigEndian.toBytes 4 value := by
  simp only [packI, bind_eq_ok, raiseIf_eq_ok, not_not, pure_eq_ok, exists_const]
  rw [@eq_comm _ bytes]

@[simp]
theorem length_packD (value : Double) : (packD value).length = 8 := BigEndian.length_toBytes 8 _

@[simp]
theorem length_packBool (value : Bool) : (packBool value).length = 1 := rfl

theorem packBool_injective : Function.Injective packBool := by
  intro a b h
  cases a <;> cases b <;> simp_all [packBool]

theorem packD_injective : Function.Injective packD := by
  intro a b h
  have hlt : ∀ x : Double, x.toNat < 256 ^ 8 := fun x => x.toNat_lt.trans_le (by norm_num)
  exact UInt64.toNat_inj.mp (BigEndian.toBytes_inj (hlt a) (hlt b) h)

theorem toBytesSigned_inj_of_fitsQ {a b : ℤ} (ha : FitsQ a) (hb : FitsQ b)
    (h : BigEndian.toBytesSigned 8 a = BigEndian.toBytesSigned 8 b) : a = b := by
  obtain ⟨ha, ha'⟩ := ha
  obtain ⟨hb, hb'⟩ := hb
  refine BigEndian.toBytesSigned_inj ⟨?_, ?_⟩ ⟨?_, ?_⟩ h <;> norm_num <;> linarith

/-! ## Receipts -/

structure ServiceReceipt where
  minerAddress : String
  modelId : String
  modelIndex : ℤ
  epochNumber : ℤ
  commitmentHash : Bytes
  timestamp : ℤ
  ttftMs : Double
  tokensGenerated : ℤ
  generationTimeMs : Double
  tokensPerSec : Double
  promptTokens : ℤ := 0
  proofVerified : Bool := false
  proofRequested : Bool := false
  teeAttestationVerified : Option Bool := none
  isCanary : Bool := false
  receiptVersion : ℤ := 1
  timingSource : String := "legacy"
  observedStartTs : Double := 0
  observedEndTs : Double := 0
  captureChainDigest : Bytes := []
  canaryObligationId : Bytes := []
  canaryKind : String := ""
  canaryTargetPromptTokens : ℤ := 0
  timingSignature : Bytes := []
  validatorHotkey : Bytes := []
  validatorSignature : Bytes := []
deriving DecidableEq

/-- A text with its length before it. -/
def packText (text : String) : Result Bytes := do
  let encoded := utf8 text
  let length ← packI encoded.length
  return length ++ encoded

/-- `_tee_val`, packed with `">b"`: -1, 0 or 1. -/
def packTee (value : Option Bool) : Bytes :=
  match value with
  | none => [0xff]
  | some false => [0]
  | some true => [1]

def encodeReceiptMessageV1 (receipt : ServiceReceipt) : Result Bytes := do
  let minerAddress ← packText receipt.minerAddress
  let modelId ← packText receipt.modelId
  let modelIndex ← packQ receipt.modelIndex
  let epochNumber ← packQ receipt.epochNumber
  let timestamp ← packQ receipt.timestamp
  let tokensGenerated ← packQ receipt.tokensGenerated
  let promptTokens ← packQ receipt.promptTokens
  return minerAddress ++ (modelId ++ (modelIndex ++ (epochNumber ++ (receipt.commitmentHash ++
    (timestamp ++ (packD receipt.ttftMs ++ (tokensGenerated ++ (packD receipt.generationTimeMs ++
      (packD receipt.tokensPerSec ++ (promptTokens ++ (packBool receipt.proofVerified ++
        (packBool receipt.proofRequested ++ (packBool receipt.isCanary ++
          (packTee receipt.teeAttestationVerified ++ receipt.validatorHotkey))))))))))))))

/-- `b"VERATHOS_SERVICE_RECEIPT_V2"`. -/
def tagV2 : Bytes := asciiBytes "VERATHOS_SERVICE_RECEIPT_V2"

/-- `b"VERATHOS_SERVICE_RECEIPT_V3"`. -/
def tagV3 : Bytes := asciiBytes "VERATHOS_SERVICE_RECEIPT_V3"

/-- `b"VERATHOS_SERVICE_RECEIPT_V4"`. -/
def tagV4 : Bytes := asciiBytes "VERATHOS_SERVICE_RECEIPT_V4"

def encodeReceiptMessageV2 (receipt : ServiceReceipt) : Result Bytes := do
  let legacy ← encodeReceiptMessageV1 receipt
  let version ← packQ receipt.receiptVersion
  let timingSource ← packText receipt.timingSource
  return tagV2 ++ (legacy ++ (version ++ (timingSource ++
    (packD (orZero receipt.observedStartTs) ++ packD (orZero receipt.observedEndTs)))))

def encodeReceiptMessageV3 (receipt : ServiceReceipt) : Result Bytes := do
  let message ← encodeReceiptMessageV2 receipt
  let length ← packI receipt.captureChainDigest.length
  return tagV3 ++ (message ++ (length ++ receipt.captureChainDigest))

def encodeReceiptMessageV4 (receipt : ServiceReceipt) : Result Bytes := do
  let obligation := receipt.canaryObligationId
  let kind := receipt.canaryKind
  raiseIf (obligation ≠ [] ∧ obligation.length ≠ 16)
    (.builtin "ValueError: canary obligation id must be exactly 16 bytes")
  raiseIf (kind ≠ "" ∧ kind ≠ "low" ∧ kind ≠ "full") (.builtin "ValueError: canary kind is invalid")
  raiseIf (¬ (obligation ≠ [] ↔ kind ≠ ""))
    (.builtin "ValueError: canary obligation id and kind must appear together")
  let target := receipt.canaryTargetPromptTokens
  raiseIf (target < 0 ∨ target ≥ 2 ^ 32)
    (.builtin "ValueError: canary target prompt tokens are out of range")
  raiseIf (obligation = [] ∧ target ≠ 0)
    (.builtin "ValueError: organic receipt cannot carry a canary target")
  let encodedKind := utf8 kind
  let message ← encodeReceiptMessageV3 receipt
  let obligationLength ← packI obligation.length
  let kindLength ← packI encodedKind.length
  let packedTarget ← packI target.toNat
  return tagV4 ++ (message ++ (obligationLength ++ (obligation ++ (kindLength ++ (encodedKind ++
    packedTarget)))))

/-- `int(receipt.receipt_version or 1)`. -/
def versionOf (receipt : ServiceReceipt) : ℤ :=
  if receipt.receiptVersion = 0 then 1 else receipt.receiptVersion

def encodeReceiptMessage (receipt : ServiceReceipt) : Result Bytes :=
  let version := versionOf receipt
  if version ≥ 4 then encodeReceiptMessageV4 receipt
  else if version ≥ 3 then encodeReceiptMessageV3 receipt
  else if version ≥ 2 then encodeReceiptMessageV2 receipt
  else encodeReceiptMessageV1 receipt

end Verathos.Receipts
