import Mathlib.Data.Prod.Lex
import Mathlib.Data.String.Basic
import Verathos.Lib.ByteReader
import Verathos.Receipts.Defs

/-!
# Verdict snapshots

A translation of `neurons/verdict_records.py`: the entries and the snapshot, their checks, and the
binary format with its cursor.
-/

namespace Verathos.Verdict

open Receipts (utf8)
open ByteReader

/-- The exceptions of the verdict feed. -/
inductive VerdictError where
  | valueError (message : String)
  | unavailable (message : String)
  /-- Another exception of the language, such as `struct.error` or `OverflowError`. -/
  | builtin (name : String)
deriving DecidableEq

/-- The result of a call of the verdict feed. -/
abbrev VerdictResult := Except VerdictError

/-- `if condition: raise ValueError(message)`. -/
def refuseIf (condition : Prop) [Decidable condition] (message : String) : VerdictResult Unit :=
  if condition then .error (.valueError message) else .ok ()

def verdictSnapshotVersion : ℤ := 1

def verdictSnapshotDomain : Bytes := asciiBytes "VERATHOS/GLEIPNIR/VERDICT_SNAPSHOT/V1"

def signatureBytes : ℕ := 64

def maxEntries : ℕ := 100000

def maxStringBytes : ℕ := 4096

def encodeString (value field : String) : VerdictResult Bytes := do
  let encoded := utf8 value
  refuseIf (encoded = [] ∨ encoded.length > maxStringBytes) (field ++ " length is invalid")
  return BigEndian.toBytes 4 encoded.length ++ encoded

/-- `encoded.decode("utf-8")`, with the exception that replaces its own. -/
def decodeUtf8 (encoded : Bytes) (message : String) : VerdictResult String :=
  match String.fromUTF8? ⟨encoded.toArray⟩ with
  | some text => .ok text
  | none => .error (.valueError message)

/-- The integers of a signed field of some bytes. -/
def Fits (width : ℕ) (value : ℤ) : Prop := -256 ^ width ≤ 2 * value ∧ 2 * value < 256 ^ width

instance (width : ℕ) (value : ℤ) : Decidable (Fits width value) :=
  inferInstanceAs (Decidable (_ ∧ _))

/-- `struct.pack(">q", value)` and `struct.pack(">b", value)`. -/
def packSigned (width : ℕ) (value : ℤ) : VerdictResult Bytes :=
  if Fits width value then .ok (BigEndian.toBytesSigned width value)
  else .error (.builtin "struct.error")

/-- `struct.pack(">I", value)`. -/
def packI (value : ℤ) : VerdictResult Bytes :=
  if 0 ≤ value ∧ value < 2 ^ 32 then .ok (BigEndian.toBytes 4 value.toNat)
  else .error (.builtin "struct.error")

/-- `struct.pack(">?", value)`. -/
def packBool (value : Bool) : Bytes := [if value then 1 else 0]

/-! ## Entries -/

structure VerdictSnapshotEntryV1 where
  minerAddress : String
  modelIndex : ℤ
  minerHotkeySs58 : String
  modelId : String
  hardVerdict : ℤ
  hardSourceEpoch : ℤ
  capacityGated : Bool
  probation : Bool
deriving DecidableEq

namespace VerdictSnapshotEntryV1

variable (lower : String → String) (entry : VerdictSnapshotEntryV1)

def key : String ×ₗ ℤ := toLex (entry.minerAddress, entry.modelIndex)

/-- `VerdictSnapshotEntryV1.validate`, where `lower` is `str.lower`. -/
def validate : VerdictResult Unit := do
  refuseIf (entry.minerAddress ≠ lower entry.minerAddress) "miner_address must be lowercase"
  let _ ← encodeString entry.minerAddress "miner_address"
  refuseIf (entry.modelIndex < 0) "model_index is invalid"
  let _ ← encodeString entry.minerHotkeySs58 "miner_hotkey_ss58"
  let _ ← encodeString entry.modelId "model_id"
  refuseIf (entry.hardVerdict ∉ [-1, 0, 1]) "hard_verdict is invalid"
  if entry.hardVerdict = -1 then
    refuseIf (entry.hardSourceEpoch ≠ -1) "none hard verdict requires source epoch -1"
  else
    refuseIf (entry.hardSourceEpoch < 0) "hard verdict requires a non-negative source epoch"

def encode : VerdictResult Bytes := do
  entry.validate lower
  let minerAddress ← encodeString entry.minerAddress "miner_address"
  let modelIndex ← packSigned 8 entry.modelIndex
  let minerHotkeySs58 ← encodeString entry.minerHotkeySs58 "miner_hotkey_ss58"
  let modelId ← encodeString entry.modelId "model_id"
  let hardVerdict ← packSigned 1 entry.hardVerdict
  let hardSourceEpoch ← packSigned 8 entry.hardSourceEpoch
  return minerAddress ++ (modelIndex ++ (minerHotkeySs58 ++ (modelId ++ (hardVerdict ++
    (hardSourceEpoch ++ (packBool entry.capacityGated ++ packBool entry.probation))))))

end VerdictSnapshotEntryV1

/-! ## Snapshots -/

structure VerdictSnapshotV1 where
  auditorHotkey : Bytes
  epochNumber : ℤ
  generatedAt : ℤ
  entries : List VerdictSnapshotEntryV1
  signature : Bytes := []
  snapshotVersion : ℤ := verdictSnapshotVersion
deriving DecidableEq

namespace VerdictSnapshotV1

variable (lower : String → String)

/-- The loop of `validate` over the entries. -/
def validateEntries : List VerdictSnapshotEntryV1 → Option (String ×ₗ ℤ) → VerdictResult Unit
  | [], _ => .ok ()
  | entry :: entries, priorKey => do
    entry.validate lower
    refuseIf (∃ prior ∈ priorKey, entry.key ≤ prior)
      "verdict snapshot entries are not strictly sorted"
    validateEntries entries (some entry.key)

variable (snapshot : VerdictSnapshotV1)

def validate (requireSignature : Bool) : VerdictResult Unit := do
  refuseIf (snapshot.snapshotVersion ≠ verdictSnapshotVersion)
    "verdict snapshot version is unsupported"
  refuseIf (snapshot.auditorHotkey.length ≠ 32) "verdict snapshot auditor hotkey is invalid"
  refuseIf (snapshot.epochNumber < 0) "verdict snapshot epoch is invalid"
  refuseIf (snapshot.generatedAt ≤ 0) "verdict snapshot timestamp is invalid"
  refuseIf (snapshot.entries.length > maxEntries) "verdict snapshot entry count is invalid"
  validateEntries lower snapshot.entries none
  refuseIf (snapshot.signature ≠ [] ∧ snapshot.signature.length ≠ signatureBytes)
    "verdict snapshot signature is invalid"
  refuseIf (requireSignature ∧ snapshot.signature.length ≠ signatureBytes)
    "verdict snapshot signature is missing"

def unsignedBytes : VerdictResult Bytes := do
  snapshot.validate lower false
  let version ← packI snapshot.snapshotVersion
  let epochNumber ← packSigned 8 snapshot.epochNumber
  let generatedAt ← packSigned 8 snapshot.generatedAt
  let count ← packI snapshot.entries.length
  let entries ← snapshot.entries.mapM (VerdictSnapshotEntryV1.encode lower)
  return version ++ (snapshot.auditorHotkey ++ (epochNumber ++ (generatedAt ++ (count ++
    entries.flatten))))

def signingMessage : VerdictResult Bytes := do
  let message ← snapshot.unsignedBytes lower
  return verdictSnapshotDomain ++ message

def toBytes : VerdictResult Bytes := do
  snapshot.validate lower true
  let message ← snapshot.unsignedBytes lower
  return message ++ snapshot.signature

end VerdictSnapshotV1

/-! ## The cursor -/

namespace Cursor

def take (size : ℕ) : Reader VerdictError Bytes :=
  exactly (.valueError "verdict snapshot bytes are truncated") size

def u32 : Reader VerdictError ℕ := do
  let bytes ← take 4
  return BigEndian.toNat bytes

/-- `_Cursor.i64` and `_Cursor.i8`, by the width. -/
def signed (width : ℕ) : Reader VerdictError ℤ := do
  let bytes ← take width
  return BigEndian.toIntSigned bytes

def boolean : Reader VerdictError Bool := do
  let raw ← take 1
  liftM (refuseIf (raw ∉ [[0], [1]]) "verdict snapshot boolean is invalid")
  return raw = [1]

def string (field : String) : Reader VerdictError String := do
  let size ← u32
  liftM (refuseIf (size ≤ 0 ∨ size > maxStringBytes) (field ++ " length is invalid"))
  let bytes ← take size
  liftM (decodeUtf8 bytes (field ++ " encoding is invalid"))

/-- The entry that `from_bytes` builds in its loop. -/
def entry : Reader VerdictError VerdictSnapshotEntryV1 := do
  let minerAddress ← string "miner_address"
  let modelIndex ← signed 8
  let minerHotkeySs58 ← string "miner_hotkey_ss58"
  let modelId ← string "model_id"
  let hardVerdict ← signed 1
  let hardSourceEpoch ← signed 8
  let capacityGated ← boolean
  let probation ← boolean
  return ⟨minerAddress, modelIndex, minerHotkeySs58, modelId, hardVerdict, hardSourceEpoch,
    capacityGated, probation⟩

/-- The reads of `from_bytes`. -/
def snapshot : Reader VerdictError VerdictSnapshotV1 := do
  let version ← u32
  let auditorHotkey ← take 32
  let epochNumber ← signed 8
  let generatedAt ← signed 8
  let entryCount ← u32
  liftM (refuseIf (entryCount > maxEntries) "verdict snapshot entry count is invalid")
  let entries ← times entry entryCount
  let signature ← take signatureBytes
  return ⟨auditorHotkey, epochNumber, generatedAt, entries, signature, version⟩

end Cursor

def VerdictSnapshotV1.fromBytes (lower : String → String) (raw : Bytes) :
    VerdictResult VerdictSnapshotV1 := do
  refuseIf (raw.length < 4 + 32 + 8 + 8 + 4 + 64) "verdict snapshot bytes are truncated"
  let (snapshot, remaining) ← Cursor.snapshot.run raw
  refuseIf (remaining ≠ []) "verdict snapshot bytes have trailing data"
  snapshot.validate lower true
  return snapshot

end Verathos.Verdict
