import Mathlib.Data.List.DropRight
import Mathlib.Data.String.Basic
import Verathos.Lib.Texts
import Verathos.Lib.OrderedDict
import Verathos.Lib.SortedSet
import Verathos.Lib.StableSort
import Verathos.Receipts.Defs

/-!
# The selection of capacity-audit slots

A translation of the selection of `neurons/capacity_audit.py`: the public grouping tokens of a slot,
the selection predicate and the selection among a set of slots.

The functions of the standard library that read hosts are collected in `Platform`. Floats are the
rationals that doubles can hold, and an operation rounds its exact result.
-/

namespace Verathos.CapacityAudit

open Receipts (utf8 structError packQ FitsQ)

/-- What the module uses of the standard library. -/
structure Platform where
  lc : LowerCase
  strip : String → String
  /-- `urlparse(endpoint).hostname`, which raises on a malformed endpoint. -/
  hostname : String → Result (Option String)
  /-- `ipaddress.ip_address(host)`: nothing when it raises, else the text of an address of version
  4. -/
  ipAddress : String → Option (Option String)
  /-- `host.encode("idna").decode("ascii")`, or nothing when it raises. -/
  idna : String → Option String
  round : ℚ → ℚ
  round_zero : round 0 = 0
  round_two_zpow : ∀ k : ℤ, -1022 ≤ k → k ≤ 1023 → round (2 ^ k) = 2 ^ k

/-- The fields of a `CapacityAuditRuntimeConfig` that the selection reads. -/
structure CapacityAuditRuntimeConfig where
  cohortFraction : ℚ := 25 / 1000
  windowsPerEpoch : ℤ := 30
  maxDrainFraction : ℚ := 5 / 100
  groupStressFraction : ℚ := 35 / 100

structure CapacitySlot where
  chainId : ℤ
  netuid : ℤ
  address : String
  modelIndex : ℤ
  endpoint : String
  modelId : String
  quant : String := ""
  maxContextLen : ℤ := 0
  minerUid : Option ℤ := none
  gpuName : String := ""
  gpuCount : ℤ := 0
  vramGb : ℤ := 0
  groupKey : String := ""
deriving DecidableEq

/-! ## Grouping tokens -/

def multiLabelPublicSuffixes : List String :=
  ["ac.jp", "ac.uk", "co.jp", "co.kr", "co.nz", "co.uk", "com.ar", "com.au", "com.br", "com.cn",
    "com.hk", "com.mx", "com.sg", "com.tr", "com.tw", "gov.uk", "ne.jp", "net.au", "net.cn",
    "net.nz", "net.uk", "org.au", "org.cn", "org.nz", "org.uk"]

def publicGroupPrefixes : List String :=
  ["addr:", "host:", "ip:", "ip24:", "regdom:", "addr_model:", "host_model:", "ip_model:",
    "ip24_model:", "regdom_model:"]

/-- `text.split(separator)` for a separator of one character. -/
def split (separator : Char) (text : String) : List String :=
  (text.toList.splitOn separator).map String.ofList

def join (separator : String) (parts : List String) : String :=
  String.ofList (List.intercalate separator.toList (parts.map String.toList))

def isPublicGroupToken (token : String) : Bool :=
  token ≠ "" && publicGroupPrefixes.any fun start => start.toList.isPrefixOf token.toList

section

variable (p : Platform)

def groupTokenValue (value : String) : String :=
  String.ofList ((p.lc.lower (p.strip value)).toList.flatMap fun c =>
    if c = '|' then ['%', '7', 'c'] else [c])

def registeredDomainFromHost (host : String) : String :=
  let normalized := String.ofList ((p.lc.lower (p.strip host)).toList.rdropWhile fun c => c = '.')
  if normalized = "" ∨ '.' ∉ normalized.toList then ""
  else if (p.ipAddress normalized).isSome then ""
  else
    let asciiHost := (p.idna normalized).getD normalized
    let labels := (split '.' asciiHost).filter fun label => label ≠ ""
    if labels.length < 2 ∨
        ∃ label ∈ labels, label.toList.head? = some '-' ∨ label.toList.getLast? = some '-' then ""
    else
      let suffix₂ := join "." (labels.drop (labels.length - 2))
      if suffix₂ ∈ multiLabelPublicSuffixes ∧ labels.length ≥ 3 then
        join "." (labels.drop (labels.length - 3))
      else suffix₂

/-- A token, unless one of the values it is made of is empty. -/
def tokenOf (kind : String) (values : List String) : String :=
  if "" ∈ values then "" else kind ++ join "::" values

/-- `build_capacity_slot_group_key`, which ignores the GPU name and the UID of the miner. -/
def buildCapacitySlotGroupKey (address endpoint modelId : String) : Result String := do
  let hostname ← p.hostname endpoint
  let host := p.lc.lower (hostname.getD "")
  let ipLiteral := ((if host = "" then none else p.ipAddress host).getD none).getD ""
  let ip24 := join "." ((split '.' ipLiteral).take 3)
  let regdom := registeredDomainFromHost p host
  let model := groupTokenValue p modelId
  let addr := groupTokenValue p (p.lc.lower address)
  let tokens :=
    [tokenOf "addr:" [addr],
      if host = "" then "" else "host:" ++ groupTokenValue p host,
      tokenOf "ip:" [ipLiteral],
      tokenOf "ip24:" [ip24],
      if regdom = "" then "" else "regdom:" ++ groupTokenValue p regdom,
      tokenOf "addr_model:" [addr, model],
      if host = "" ∨ model = "" then "" else "host_model:" ++ join "::" [groupTokenValue p host, model],
      tokenOf "ip_model:" [ipLiteral, model],
      tokenOf "ip24_model:" [ip24, model],
      if regdom = "" ∨ model = "" then ""
      else "regdom_model:" ++ join "::" [groupTokenValue p regdom, model]]
  return join "|" (tokens.filter fun token => token ≠ "")

def publicGroupTokensFromMetadata (address endpoint modelId : String) : Result (List String) := do
  let key ← buildCapacitySlotGroupKey p address endpoint modelId
  return (split '|' key).filter isPublicGroupToken

/-- The public tokens of the string `group_key`. -/
def stringTokens (slot : CapacitySlot) : List String :=
  ((split '|' slot.groupKey).map p.strip).filter isPublicGroupToken

def CapacitySlot.addressLower (slot : CapacitySlot) : String := p.lc.lower slot.address

/-- The tokens of a slot by its metadata. -/
def metadataTokens (slot : CapacitySlot) : Result (List String) :=
  publicGroupTokensFromMetadata p (slot.addressLower p) slot.endpoint slot.modelId

def capacitySlotGroupKeys (slot : CapacitySlot) : Result (List String) := do
  let tokens ← metadataTokens p slot
  return SortedSet.sortedSet (stringTokens p slot ++ tokens)

end

/-! ## Identifiers and scores -/

def u64 (value : ℤ) : Result Bytes := do
  raiseIf (¬ (0 ≤ value ∧ value < 2 ^ 64)) structError
  return BigEndian.toBytes 8 value.toNat

/-- What `slot_id` hashes. -/
def slotPreimage (p : Platform) (slot : CapacitySlot) : Result Bytes := do
  let chainId ← u64 slot.chainId
  let netuid ← u64 slot.netuid
  let modelIndex ← packQ slot.modelIndex
  return asciiBytes "VERATHOS_CAPACITY_SLOT_V1" ++ (chainId ++ (netuid ++
    (utf8 (slot.addressLower p) ++ modelIndex)))

/-- What `_selection_score_hex` hashes. -/
def scorePreimage (parts : List String) : Bytes :=
  asciiBytes "VERATHOS_CAPACITY_SELECTION_SCORE_V1" ++ parts.flatMap fun part => utf8 part ++ [0]

section

variable (p : Platform) (sha256 : Bytes → Digest)

def slotId (slot : CapacitySlot) : Result String := do
  let preimage ← slotPreimage p slot
  return Hex.toText (sha256 preimage).bytes

/-- `int(_selection_score_hex(…), 16)`. -/
def selectionScore (parts : List String) : ℕ := BigEndian.toNat (sha256 (scorePreimage parts)).bytes

def selectionProbability (cfg : CapacityAuditRuntimeConfig) : ℚ :=
  let windows := max 1 (if cfg.windowsPerEpoch = 0 then 1 else cfg.windowsPerEpoch)
  let cohortFraction := max 0 cfg.cohortFraction
  let target := p.round (cohortFraction / p.round windows)
  let drain := max 0 cfg.maxDrainFraction
  let target := if drain > 0 then min target drain else target
  min 1 (max 0 target)

def selectionHit (auditSeedHex kind key : String) (probability : ℚ) : Bool :=
  let chance := min 1 (max 0 probability)
  if chance ≤ 0 then false
  else if chance ≥ 1 then true
  else (selectionScore sha256 [auditSeedHex, kind, key] : ℤ) < ⌊p.round (chance * 2 ^ 256)⌋

def capacityAuditSlotSelected (slot : CapacitySlot) (auditSeedHex : String)
    (cfg : CapacityAuditRuntimeConfig) : Result Bool := do
  let target := selectionProbability p cfg
  if target ≤ 0 then return false
  let groupFraction := min 1 (max 0 cfg.groupStressFraction)
  let baseChance := p.round (target * p.round (1 - groupFraction))
  let identifier ← slotId p sha256 slot
  if selectionHit p sha256 auditSeedHex "base" identifier baseChance then return true
  let keys ← capacitySlotGroupKeys p slot
  if keys = [] ∨ groupFraction ≤ 0 then return false
  let keyChance := min 1 (p.round (target * groupFraction))
  return keys.any fun key => selectionHit p sha256 auditSeedHex "group" key keyChance

/-! ## The selection among slots -/

/-- `[slot for slot in slots if predicate(slot)]` for a predicate that may raise. -/
def filterSlots (predicate : CapacitySlot → Result Bool) :
    List CapacitySlot → Result (List CapacitySlot)
  | [] => return []
  | slot :: slots => do
    let selected ← predicate slot
    let rest ← filterSlots predicate slots
    return if selected then slot :: rest else rest

/-- What selected slots are sorted by. -/
def sortKey (slot : CapacitySlot) : String ×ₗ (ℤ ×ₗ String) :=
  toLex (slot.addressLower p, toLex (slot.modelIndex, slot.endpoint))

def selectCapacityAuditSlots (slots : List CapacitySlot) (auditSeedHex : String)
    (cfg : CapacityAuditRuntimeConfig) : Result (List CapacitySlot) := do
  let pairs ← slots.mapM fun slot => do
    let identifier ← slotId p sha256 slot
    return (identifier, slot)
  let unique := OrderedDict.ofList pairs
  let selected ← filterSlots (capacityAuditSlotSelected p sha256 · auditSeedHex cfg)
    (unique.entries.map Prod.snd)
  return StableSort.sortBy (sortKey p) selected

end

end Verathos.CapacityAudit
