import Verathos.Lib.Texts
import Verathos.Lib.OrderedDict
import Verathos.Receipts.Defs

/-!
# Receipts as dictionaries

A translation of `receipt_to_dict` and `receipt_from_dict` of `neurons/receipts.py`: byte strings are
written in hexadecimal, and an absent field takes its default. The receipt comes back
(`receiptFromDict_receiptToDict`).

The source stores what the dictionary holds under a key without looking at its type. Here a value of
another type than that of its field raises.
-/

namespace Verathos.Receipts

/-- A value of a JSON-safe dictionary. -/
inductive PyValue where
  | none
  | bool (value : Bool)
  | int (value : ℤ)
  | float (value : Double)
  | str (value : String)
deriving DecidableEq

namespace PyValue

/-- The exception for a value of another type. -/
def typeError : PyError := .builtin "TypeError"

def asBool : PyValue → Result Bool
  | bool value => .ok value
  | _ => .error typeError

def asInt : PyValue → Result ℤ
  | int value => .ok value
  | _ => .error typeError

def asFloat : PyValue → Result Double
  | float value => .ok value
  | _ => .error typeError

def asStr : PyValue → Result String
  | str value => .ok value
  | _ => .error typeError

/-- The values of `tee_attestation_verified`. -/
def asOptionalBool : PyValue → Result (Option Bool)
  | none => .ok Option.none
  | bool value => .ok (some value)
  | _ => .error typeError

/-- `bytes.fromhex(value)`. -/
def fromHex (value : PyValue) : Result Bytes := do
  let text ← value.asStr
  match Hex.ofText text with
  | some bytes => return bytes
  | Option.none => throw (.builtin "ValueError: non-hexadecimal number found in fromhex() arg")

@[simp]
theorem asBool_bool (value : Bool) : asBool (bool value) = .ok value := rfl

@[simp]
theorem asInt_int (value : ℤ) : asInt (int value) = .ok value := rfl

@[simp]
theorem asFloat_float (value : Double) : asFloat (float value) = .ok value := rfl

@[simp]
theorem asStr_str (value : String) : asStr (str value) = .ok value := rfl

def hex (value : Bytes) : PyValue := str (Hex.toText value)

@[simp]
theorem fromHex_hex (value : Bytes) : fromHex (hex value) = .ok value := by
  simp [fromHex, hex, bind, Except.bind, pure, Except.pure]

end PyValue

open PyValue

/-- The entries of `receipt_to_dict`. -/
def receiptEntries (receipt : ServiceReceipt) : List (String × PyValue) :=
  [("miner_address", str receipt.minerAddress),
    ("model_id", str receipt.modelId),
    ("model_index", int receipt.modelIndex),
    ("epoch_number", int receipt.epochNumber),
    ("commitment_hash", hex receipt.commitmentHash),
    ("timestamp", int receipt.timestamp),
    ("ttft_ms", float receipt.ttftMs),
    ("tokens_generated", int receipt.tokensGenerated),
    ("generation_time_ms", float receipt.generationTimeMs),
    ("tokens_per_sec", float receipt.tokensPerSec),
    ("prompt_tokens", int receipt.promptTokens),
    ("proof_verified", bool receipt.proofVerified),
    ("proof_requested", bool receipt.proofRequested),
    ("tee_attestation_verified", receipt.teeAttestationVerified.elim none bool),
    ("is_canary", bool receipt.isCanary),
    ("receipt_version", int receipt.receiptVersion),
    ("timing_source", str receipt.timingSource),
    ("observed_start_ts", float receipt.observedStartTs),
    ("observed_end_ts", float receipt.observedEndTs),
    ("capture_chain_digest", hex receipt.captureChainDigest),
    ("canary_obligation_id", hex receipt.canaryObligationId),
    ("canary_kind", str receipt.canaryKind),
    ("canary_target_prompt_tokens", int receipt.canaryTargetPromptTokens),
    ("timing_signature", hex receipt.timingSignature),
    ("validator_hotkey", hex receipt.validatorHotkey),
    ("validator_signature", hex receipt.validatorSignature)]

def receiptToDict (receipt : ServiceReceipt) : OrderedDict String PyValue where
  entries := receiptEntries receipt
  nodup_keys := by simp [receiptEntries]

/-- `d[key]`. -/
def item (d : OrderedDict String PyValue) (key : String) : Result PyValue :=
  match d.get key with
  | some value => .ok value
  | Option.none => .error (.builtin "KeyError")

/-- `d.get(key, default)`. -/
def itemOr (d : OrderedDict String PyValue) (key : String) (default : PyValue) : PyValue :=
  (d.get key).getD default

def receiptFromDict (d : OrderedDict String PyValue) : Result ServiceReceipt := do
  let minerAddress ← (← item d "miner_address").asStr
  let modelId ← (← item d "model_id").asStr
  let modelIndex ← (← item d "model_index").asInt
  let epochNumber ← (itemOr d "epoch_number" (itemOr d "poi_block" (int 0))).asInt
  let commitmentHash ← (← item d "commitment_hash").fromHex
  let timestamp ← (← item d "timestamp").asInt
  let ttftMs ← (← item d "ttft_ms").asFloat
  let tokensGenerated ← (← item d "tokens_generated").asInt
  let generationTimeMs ← (← item d "generation_time_ms").asFloat
  let tokensPerSec ← (← item d "tokens_per_sec").asFloat
  let promptTokens ← (itemOr d "prompt_tokens" (int 0)).asInt
  let proofVerified ← (itemOr d "proof_verified" (bool false)).asBool
  let proofRequested ← (itemOr d "proof_requested" (bool false)).asBool
  let teeAttestationVerified ← (itemOr d "tee_attestation_verified" none).asOptionalBool
  let isCanary ← (itemOr d "is_canary" (bool false)).asBool
  let receiptVersion ← (itemOr d "receipt_version" (int 1)).asInt
  let timingSource ← (itemOr d "timing_source" (str "legacy")).asStr
  let observedStartTs ← (itemOr d "observed_start_ts" (float 0)).asFloat
  let observedEndTs ← (itemOr d "observed_end_ts" (float 0)).asFloat
  let captureChainDigest ← (itemOr d "capture_chain_digest" (str "")).fromHex
  let canaryObligationId ← (itemOr d "canary_obligation_id" (str "")).fromHex
  let canaryKind ← (itemOr d "canary_kind" (str "")).asStr
  let canaryTargetPromptTokens ← (itemOr d "canary_target_prompt_tokens" (int 0)).asInt
  let timingSignature ← (itemOr d "timing_signature" (str "")).fromHex
  let validatorHotkey ← (← item d "validator_hotkey").fromHex
  let validatorSignature ← (← item d "validator_signature").fromHex
  return {
    minerAddress, modelId, modelIndex, epochNumber, commitmentHash, timestamp, ttftMs,
    tokensGenerated, generationTimeMs, tokensPerSec, promptTokens, proofVerified, proofRequested,
    teeAttestationVerified, isCanary, receiptVersion, timingSource, observedStartTs, observedEndTs,
    captureChainDigest, canaryObligationId, canaryKind, canaryTargetPromptTokens, timingSignature,
    validatorHotkey, validatorSignature }

@[simp]
theorem asOptionalBool_elim (value : Option Bool) :
    asOptionalBool (value.elim none bool) = .ok value := by
  cases value <;> rfl

section Lookup

variable {receipt : ServiceReceipt} {d : OrderedDict String PyValue} {key : String} {value : PyValue}
  (h : d.entries = receiptEntries receipt)

include h

theorem item_eq (i : ℕ) (hi : (receiptEntries receipt)[i]? = some (key, value)) :
    item d key = .ok value := by
  rw [item, OrderedDict.get_eq_some.mpr (h ▸ List.mem_of_getElem? hi)]

theorem itemOr_eq (i : ℕ) (hi : (receiptEntries receipt)[i]? = some (key, value))
    (default : PyValue) : itemOr d key default = value := by
  rw [itemOr, OrderedDict.get_eq_some.mpr (h ▸ List.mem_of_getElem? hi), Option.getD_some]

theorem receiptFromDict_eq : receiptFromDict d = .ok receipt := by
  -- the entries stand in the order of the fields
  have entry := fun i key value => @item_eq receipt d key value h i
  have entryOr := fun i key value => @itemOr_eq receipt d key value h i
  simp only [receiptFromDict, entry 0 _ _ rfl, entry 1 _ _ rfl, entry 2 _ _ rfl,
    entryOr 3 _ _ rfl, entry 4 _ _ rfl, entry 5 _ _ rfl, entry 6 _ _ rfl, entry 7 _ _ rfl,
    entry 8 _ _ rfl, entry 9 _ _ rfl, entryOr 10 _ _ rfl, entryOr 11 _ _ rfl, entryOr 12 _ _ rfl,
    entryOr 13 _ _ rfl, entryOr 14 _ _ rfl, entryOr 15 _ _ rfl, entryOr 16 _ _ rfl,
    entryOr 17 _ _ rfl, entryOr 18 _ _ rfl, entryOr 19 _ _ rfl, entryOr 20 _ _ rfl,
    entryOr 21 _ _ rfl, entryOr 22 _ _ rfl, entryOr 23 _ _ rfl, entry 24 _ _ rfl,
    entry 25 _ _ rfl, asStr_str, asInt_int, asFloat_float, asBool_bool, fromHex_hex,
    asOptionalBool_elim, bind, Except.bind]
  rfl

end Lookup

theorem receiptFromDict_receiptToDict (receipt : ServiceReceipt) :
    receiptFromDict (receiptToDict receipt) = .ok receipt :=
  receiptFromDict_eq rfl

end Verathos.Receipts
