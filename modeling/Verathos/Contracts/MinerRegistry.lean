import Verathos.Contracts.EvmBinding
import Verathos.Lib.Transition

/-!
# MinerRegistry

A translation of the registration, lease, endpoint and report logic of `MinerRegistry.sol`. Strings
are byte strings, compared through `keccak256` where the source does so. The TEE attestation and the
demand scores are separate storage that none of these functions reads, and are left out; so are the
events.

Each operation comes with the lemma that inverts a successful call (`…_eq_ok`): which checks passed
and what the storage is afterwards.
-/

namespace Verathos.Contracts

/-! ## Storage -/

/-- `struct MinerModel`. -/
structure MinerModel where
  modelId : Bytes
  endpoint : Bytes
  modelSpecRef : Digest
  quant : Bytes
  maxContextLen : UInt32
  expiresAt : ℕ
  active : Bool
deriving DecidableEq

/-- `active && expiresAt > block.timestamp`. -/
def MinerModel.Live (m : MinerModel) (now : ℕ) : Prop := m.active = true ∧ m.expiresAt > now

instance (m : MinerModel) (now : ℕ) : Decidable (m.Live now) := inferInstanceAs (Decidable (_ ∧ _))

theorem MinerModel.Live.of_le {m : MinerModel} {now later : ℕ} (h : m.Live later)
    (hle : now ≤ later) : m.Live now :=
  ⟨h.1, hle.trans_lt h.2⟩

/-- The storage of `MinerRegistry`. -/
structure MinerRegistry (Hash : Type) where
  minerModels : Address → List MinerModel
  modelProviders : Bytes → List Address
  failureCount : Address → ℕ → ℕ
  reported : Address → ℕ → Address → Bool
  endpointOwner : Hash → Address
  binding : EvmBinding

/-- `LEASE_DURATION`: 24 hours. -/
def leaseDuration : ℕ := 24 * 3600

def offlineThreshold : ℕ := 3

/-- `CLEANUP_GRACE`: 30 days. -/
def cleanupGrace : ℕ := 30 * 24 * 3600

def maxModelsPerMiner : ℕ := 256

def maxModelIdBytes : ℕ := 256

def maxEndpointBytes : ℕ := 1024

def maxQuantBytes : ℕ := 32

namespace MinerRegistry

variable {Hash : Type}

/-- The storage after deployment. -/
def empty : MinerRegistry Hash where
  minerModels := fun _ => []
  modelProviders := fun _ => []
  failureCount := fun _ _ => 0
  reported := fun _ _ _ => false
  endpointOwner := fun _ => 0
  binding := .empty

/-- Storage with the entries of one miner replaced. -/
def setModels (s : MinerRegistry Hash) (miner : Address) (models : List MinerModel) :
    MinerRegistry Hash :=
  { s with minerModels := assign s.minerModels miner models }

/-- Storage with the failure count of one slot replaced. -/
def setFailureCount (s : MinerRegistry Hash) (miner : Address) (index count : ℕ) :
    MinerRegistry Hash :=
  { s with failureCount := assign s.failureCount miner (assign (s.failureCount miner) index count) }

section Fields

variable (s : MinerRegistry Hash) (a : Address) (models : List MinerModel) (index count : ℕ)

theorem minerModels_setModels (miner : Address) :
    (s.setModels a models).minerModels miner = if miner = a then models else s.minerModels miner :=
  assign_apply _ _ _ _

@[simp]
theorem failureCount_setModels : (s.setModels a models).failureCount = s.failureCount := rfl

@[simp]
theorem reported_setModels : (s.setModels a models).reported = s.reported := rfl

@[simp]
theorem modelProviders_setModels : (s.setModels a models).modelProviders = s.modelProviders := rfl

@[simp]
theorem endpointOwner_setModels : (s.setModels a models).endpointOwner = s.endpointOwner := rfl

@[simp]
theorem minerModels_setFailureCount :
    (s.setFailureCount a index count).minerModels = s.minerModels := rfl

theorem failureCount_setFailureCount (miner : Address) (j : ℕ) :
    (s.setFailureCount a index count).failureCount miner j =
      if miner = a ∧ j = index then count else s.failureCount miner j := by
  change assign s.failureCount a (assign (s.failureCount a) index count) miner j = _
  rw [assign_apply]
  by_cases hminer : miner = a
  · rw [if_pos hminer, assign_apply, hminer]
    simp
  · rw [if_neg hminer, if_neg fun hboth => hminer hboth.1]

@[simp]
theorem reported_setFailureCount : (s.setFailureCount a index count).reported = s.reported := rfl

@[simp]
theorem modelProviders_setFailureCount :
    (s.setFailureCount a index count).modelProviders = s.modelProviders := rfl

@[simp]
theorem endpointOwner_setFailureCount :
    (s.setFailureCount a index count).endpointOwner = s.endpointOwner := rfl

end Fields

/-! ## Internal helpers -/

/-- `require(index < minerModels[miner].length, "Invalid index")` and the entry at the index. -/
def entryAt (s : MinerRegistry Hash) (miner : Address) (index : ℕ) : Tx MinerModel :=
  match (s.minerModels miner)[index]? with
  | some m => .ok m
  | none => .error "Invalid index"

@[simp]
theorem entryAt_eq_ok {s : MinerRegistry Hash} {miner : Address} {index : ℕ} {m : MinerModel} :
    s.entryAt miner index = .ok m ↔ (s.minerModels miner)[index]? = some m := by
  unfold entryAt
  cases (s.minerModels miner)[index]? <;> simp

/-- `uint64(block.timestamp) + LEASE_DURATION`. -/
def leaseEnd (timestamp : ℕ) : Tx ℕ := checkedAdd64 (timestamp % 2 ^ 64) leaseDuration

def requireMetadataBounds (modelId endpoint quant : Bytes) : Tx Unit := do
  require (0 < modelId.length ∧ modelId.length ≤ maxModelIdBytes) "Invalid modelId length"
  require (0 < endpoint.length ∧ endpoint.length ≤ maxEndpointBytes) "Invalid endpoint length"
  require (0 < quant.length ∧ quant.length ≤ maxQuantBytes) "Invalid quant length"

section Helpers

variable [DecidableEq Hash] (keccak256 : Bytes → Hash)

/-- The comparison of an entry with `(modelId, endpoint, quant)` by hash. -/
def Matches (m : MinerModel) (modelId endpoint quant : Bytes) : Prop :=
  keccak256 m.modelId = keccak256 modelId ∧ keccak256 m.endpoint = keccak256 endpoint ∧
    keccak256 m.quant = keccak256 quant

instance (m : MinerModel) (modelId endpoint quant : Bytes) :
    Decidable (Matches keccak256 m modelId endpoint quant) := inferInstanceAs (Decidable (_ ∧ _))

def requireNoDuplicate (models : List MinerModel) (now : ℕ) (modelId endpoint quant : Bytes) :
    Tx Unit :=
  require (∀ m ∈ models, ¬ (m.Live now ∧ Matches keccak256 m modelId endpoint quant))
    "Duplicate active entry - use renewModel() or deactivateModel() first"

def requireNoDuplicateEndpointUpdate (models : List MinerModel) (now index : ℕ)
    (current : MinerModel) (newEndpoint : Bytes) : Tx Unit :=
  require (∀ entry ∈ models.zipIdx, entry.2 ≠ index →
      ¬ (entry.1.Live now ∧ Matches keccak256 entry.1 current.modelId newEndpoint current.quant))
    "Duplicate active entry - use renewModel() or deactivateModel() first"

/-- `_findReactivatable`: the first entry with the tuple that is not live. -/
def findReactivatable (models : List MinerModel) (now : ℕ) (modelId endpoint quant : Bytes) :
    Option ℕ :=
  models.findIdx? fun m => ¬ m.Live now ∧ Matches keccak256 m modelId endpoint quant

def claimEndpoint (s : MinerRegistry Hash) (sender : Address) (endpoint : Bytes) :
    Tx (MinerRegistry Hash) := do
  let h := keccak256 endpoint
  let current := s.endpointOwner h
  require (current = 0 ∨ current = sender) "Endpoint already claimed by another miner"
  if current = 0 then return { s with endpointOwner := assign s.endpointOwner h sender }
  return s

def releaseEndpointFor (s : MinerRegistry Hash) (endpoint : Bytes) (miner : Address) :
    MinerRegistry Hash :=
  let h := keccak256 endpoint
  if s.endpointOwner h = miner then { s with endpointOwner := assign s.endpointOwner h 0 } else s

def releaseEndpoint (s : MinerRegistry Hash) (endpoint : Bytes) (sender : Address) :
    MinerRegistry Hash :=
  releaseEndpointFor keccak256 s endpoint sender

end Helpers

/-! ## Operations -/

section Operations

variable [DecidableEq Hash] (keccak256 : Bytes → Hash) (env : Env Hash) (msg : Msg)
  (s : MinerRegistry Hash)

def registerModel (modelId endpoint : Bytes) (modelSpecRef : Digest) (quant : Bytes)
    (maxContextLen : UInt32) : Tx (MinerRegistry Hash) := do
  let _ ← s.binding.resolveUid env msg.sender
  requireMetadataBounds modelId endpoint quant
  let models := s.minerModels msg.sender
  requireNoDuplicate keccak256 models msg.timestamp modelId endpoint quant
  let found := findReactivatable keccak256 models msg.timestamp modelId endpoint quant
  require (found.isSome ∨ models.length < maxModelsPerMiner) "Too many model entries"
  let s ← claimEndpoint keccak256 s msg.sender endpoint
  let expiresAt ← leaseEnd msg.timestamp
  match found with
  | some index =>
    let models := models.modify index fun m =>
      { m with modelSpecRef, maxContextLen, expiresAt, active := true }
    return (s.setModels msg.sender models).setFailureCount msg.sender index 0
  | none =>
    let entry : MinerModel :=
      ⟨modelId, endpoint, modelSpecRef, quant, maxContextLen, expiresAt, true⟩
    return { s.setModels msg.sender (models ++ [entry]) with
      modelProviders :=
        assign s.modelProviders modelId (s.modelProviders modelId ++ [msg.sender]) }

def renewModel (index : ℕ) : Tx (MinerRegistry Hash) := do
  let _ ← s.binding.resolveUid env msg.sender
  let m ← s.entryAt msg.sender index
  require (m.expiresAt > msg.timestamp) "Already expired, re-register"
  let expiresAt ← leaseEnd msg.timestamp
  let models := (s.minerModels msg.sender).set index { m with expiresAt, active := true }
  return (s.setModels msg.sender models).setFailureCount msg.sender index 0

def deactivateModel (index : ℕ) : Tx (MinerRegistry Hash) := do
  let _ ← s.binding.resolveUid env msg.sender
  let m ← s.entryAt msg.sender index
  let s := releaseEndpoint keccak256 s m.endpoint msg.sender
  return s.setModels msg.sender ((s.minerModels msg.sender).set index { m with active := false })

def updateEndpoint (index : ℕ) (newEndpoint : Bytes) : Tx (MinerRegistry Hash) := do
  let _ ← s.binding.resolveUid env msg.sender
  let m ← s.entryAt msg.sender index
  require (0 < newEndpoint.length ∧ newEndpoint.length ≤ maxEndpointBytes)
    "Invalid endpoint length"
  requireNoDuplicateEndpointUpdate keccak256 (s.minerModels msg.sender) msg.timestamp index m
    newEndpoint
  let s ← claimEndpoint keccak256 (releaseEndpoint keccak256 s m.endpoint msg.sender) msg.sender
    newEndpoint
  return s.setModels msg.sender
    ((s.minerModels msg.sender).set index { m with endpoint := newEndpoint })

def reportOffline (miner : Address) (modelIndex : ℕ) : Tx (MinerRegistry Hash) := do
  let _ ← s.binding.requireValidator env msg.sender
  let m ← s.entryAt miner modelIndex
  require (s.reported miner modelIndex msg.sender = false) "Already reported"
  let count := s.failureCount miner modelIndex + 1
  require (count < 2 ^ 16) "Panic(0x11)"
  let s := { s.setFailureCount miner modelIndex count with
    reported := assign s.reported miner
      (assign (s.reported miner) modelIndex (assign (s.reported miner modelIndex) msg.sender true)) }
  if count ≥ offlineThreshold then
    return s.setModels miner ((s.minerModels miner).set modelIndex { m with active := false })
  return s

def cleanup (miner : Address) (index : ℕ) : Tx (MinerRegistry Hash) := do
  let m ← s.entryAt miner index
  let eligible ← checkedAdd64 m.expiresAt cleanupGrace
  require (eligible < msg.timestamp) "Not yet eligible for cleanup"
  let s := releaseEndpointFor keccak256 s m.endpoint miner
  return s.setModels miner (swapPop (s.minerModels miner) index)

end Operations

/-! ## Inversion -/

section Inversion

variable [DecidableEq Hash] {keccak256 : Bytes → Hash} {env : Env Hash} {msg : Msg}
  {s s' : MinerRegistry Hash}

/-- The storage after a claim: the sender owns the endpoint. -/
def claimed (keccak256 : Bytes → Hash) (s : MinerRegistry Hash) (sender : Address)
    (endpoint : Bytes) : MinerRegistry Hash :=
  { s with endpointOwner := assign s.endpointOwner (keccak256 endpoint) sender }

theorem endpointOwner_claimed (s : MinerRegistry Hash) (sender : Address) (endpoint : Bytes)
    (h : Hash) :
    (claimed keccak256 s sender endpoint).endpointOwner h =
      if h = keccak256 endpoint then sender else s.endpointOwner h :=
  assign_apply _ _ _ _

theorem endpointOwner_releaseEndpointFor (s : MinerRegistry Hash) (endpoint : Bytes)
    (miner : Address) (h : Hash) :
    (releaseEndpointFor keccak256 s endpoint miner).endpointOwner h =
      if h = keccak256 endpoint ∧ s.endpointOwner h = miner then 0 else s.endpointOwner h := by
  by_cases hboth : h = keccak256 endpoint ∧ s.endpointOwner h = miner
  · obtain ⟨rfl, howner⟩ := hboth
    rw [releaseEndpointFor, if_pos howner, if_pos ⟨rfl, howner⟩]
    exact assign_self _ _ _
  · rw [if_neg hboth, releaseEndpointFor]
    split_ifs with howner
    · exact assign_of_ne _ _ fun hh => hboth ⟨hh, hh ▸ howner⟩
    · rfl

/-- A release changes the owners only. -/
theorem releaseEndpointFor_eq (s : MinerRegistry Hash) (endpoint : Bytes) (miner : Address) :
    releaseEndpointFor keccak256 s endpoint miner =
      { s with endpointOwner :=
        (releaseEndpointFor keccak256 s endpoint miner).endpointOwner } := by
  rw [releaseEndpointFor]
  split_ifs <;> rfl

@[simp]
theorem minerModels_releaseEndpointFor (s : MinerRegistry Hash) (endpoint : Bytes)
    (miner : Address) :
    (releaseEndpointFor keccak256 s endpoint miner).minerModels = s.minerModels := by
  rw [releaseEndpointFor_eq]

variable {endpoint : Bytes}

theorem claimEndpoint_eq_ok {sender : Address} :
    claimEndpoint keccak256 s sender endpoint = .ok s' ↔
      (s.endpointOwner (keccak256 endpoint) = 0 ∨ s.endpointOwner (keccak256 endpoint) = sender) ∧
        s' = claimed keccak256 s sender endpoint := by
  simp only [claimEndpoint, bind_eq_ok, require_eq_ok]
  have hclaimed : s.endpointOwner (keccak256 endpoint) = sender →
      claimed keccak256 s sender endpoint = s := by
    intro h
    rw [claimed, ← h, assign, Function.update_eq_self]
  constructor
  · rintro ⟨-, howner, h⟩
    split_ifs at h with hzero
    · exact ⟨howner, (Except.ok.inj h).symm⟩
    · rw [hclaimed (howner.resolve_left hzero)]
      exact ⟨howner, (Except.ok.inj h).symm⟩
  · rintro ⟨howner, rfl⟩
    refine ⟨(), howner, ?_⟩
    split_ifs with hzero
    · rfl
    · rw [hclaimed (howner.resolve_left hzero)]
      rfl

theorem findReactivatable_eq_some {models : List MinerModel} {now index : ℕ} {modelId quant : Bytes}
    (h : findReactivatable keccak256 models now modelId endpoint quant = some index) :
    ∃ m, models[index]? = some m ∧ ¬ m.Live now ∧ Matches keccak256 m modelId endpoint quant := by
  obtain ⟨hlt, hfound, -⟩ := List.findIdx?_eq_some_iff_getElem.mp h
  exact ⟨models[index], List.getElem?_eq_getElem hlt, by simpa using hfound⟩

/-- A successful `registerModel`: no live entry has the tuple, the endpoint is free or owned by the
sender, and an entry with the tuple is re-activated or a new one is pushed. -/
theorem registerModel_cases {modelId : Bytes} {modelSpecRef : Digest} {quant : Bytes}
    {maxContextLen : UInt32}
    (h : s.registerModel keccak256 env msg modelId endpoint modelSpecRef quant maxContextLen =
      .ok s') :
    (∀ m ∈ s.minerModels msg.sender,
      ¬ (m.Live msg.timestamp ∧ Matches keccak256 m modelId endpoint quant)) ∧
    (s.endpointOwner (keccak256 endpoint) = 0 ∨
      s.endpointOwner (keccak256 endpoint) = msg.sender) ∧
    ∃ expiresAt,
      (∃ index m, findReactivatable keccak256 (s.minerModels msg.sender) msg.timestamp modelId
          endpoint quant = some index ∧ (s.minerModels msg.sender)[index]? = some m ∧
        Matches keccak256 m modelId endpoint quant ∧
        s' = ((claimed keccak256 s msg.sender endpoint).setModels msg.sender
          ((s.minerModels msg.sender).set index
            { m with modelSpecRef, maxContextLen, expiresAt, active := true })).setFailureCount
            msg.sender index 0) ∨
      (findReactivatable keccak256 (s.minerModels msg.sender) msg.timestamp modelId endpoint quant =
          none ∧ (s.minerModels msg.sender).length < maxModelsPerMiner ∧
        s' = { (claimed keccak256 s msg.sender endpoint).setModels msg.sender
          (s.minerModels msg.sender ++
            [⟨modelId, endpoint, modelSpecRef, quant, maxContextLen, expiresAt, true⟩]) with
          modelProviders := assign s.modelProviders modelId
            (s.modelProviders modelId ++ [msg.sender]) }) := by
  simp only [registerModel, requireNoDuplicate, bind_eq_ok, require_eq_ok, claimEndpoint_eq_ok] at h
  obtain ⟨-, -, -, -, -, hdup, -, hroom, s₁, ⟨howner, rfl⟩, expiresAt, -, h⟩ := h
  refine ⟨hdup, howner, expiresAt, ?_⟩
  split at h
  · next index hfound =>
    obtain ⟨m, hm, -, hmatches⟩ := findReactivatable_eq_some hfound
    obtain rfl := Except.ok.inj h
    refine .inl ⟨index, m, hfound, hm, hmatches, ?_⟩
    rw [List.modify_eq_set_getElem?, hm]
    rfl
  · next hfound =>
    obtain rfl := Except.ok.inj h
    exact .inr ⟨hfound, hroom.resolve_left (by rw [hfound]; simp), rfl⟩

omit [DecidableEq Hash] in
theorem renewModel_eq_ok {index : ℕ} (h : s.renewModel env msg index = .ok s') :
    ∃ m expiresAt, (s.minerModels msg.sender)[index]? = some m ∧ m.expiresAt > msg.timestamp ∧
      s' = (s.setModels msg.sender ((s.minerModels msg.sender).set index
        { m with expiresAt, active := true })).setFailureCount msg.sender index 0 := by
  simp only [renewModel, bind_eq_ok, entryAt_eq_ok, require_eq_ok, pure_eq_ok] at h
  obtain ⟨-, -, m, hm, -, hexpires, expiresAt, -, rfl⟩ := h
  exact ⟨m, expiresAt, hm, hexpires, rfl⟩

theorem deactivateModel_eq_ok {index : ℕ} (h : s.deactivateModel keccak256 env msg index = .ok s') :
    ∃ m, (s.minerModels msg.sender)[index]? = some m ∧
      s' = (releaseEndpoint keccak256 s m.endpoint msg.sender).setModels msg.sender
        ((s.minerModels msg.sender).set index { m with active := false }) := by
  simp only [deactivateModel, bind_eq_ok, entryAt_eq_ok, pure_eq_ok] at h
  obtain ⟨-, -, m, hm, rfl⟩ := h
  refine ⟨m, hm, ?_⟩
  rw [releaseEndpoint, releaseEndpointFor]
  split_ifs <;> rfl

theorem updateEndpoint_eq_ok {index : ℕ} {newEndpoint : Bytes}
    (h : s.updateEndpoint keccak256 env msg index newEndpoint = .ok s') :
    ∃ m, (s.minerModels msg.sender)[index]? = some m ∧
      (∀ j entry, j ≠ index → (s.minerModels msg.sender)[j]? = some entry →
        ¬ (entry.Live msg.timestamp ∧ Matches keccak256 entry m.modelId newEndpoint m.quant)) ∧
      ((releaseEndpoint keccak256 s m.endpoint msg.sender).endpointOwner (keccak256 newEndpoint) = 0 ∨
        (releaseEndpoint keccak256 s m.endpoint msg.sender).endpointOwner (keccak256 newEndpoint) =
          msg.sender) ∧
      s' = (claimed keccak256 (releaseEndpoint keccak256 s m.endpoint msg.sender) msg.sender
        newEndpoint).setModels msg.sender
        ((s.minerModels msg.sender).set index { m with endpoint := newEndpoint }) := by
  simp only [updateEndpoint, requireNoDuplicateEndpointUpdate, bind_eq_ok, entryAt_eq_ok,
    require_eq_ok, pure_eq_ok, claimEndpoint_eq_ok] at h
  obtain ⟨-, -, m, hm, -, -, -, hdup, s₁, ⟨howner, rfl⟩, rfl⟩ := h
  refine ⟨m, hm, fun j entry hj hentry => ?_, howner, ?_⟩
  · exact hdup (entry, j) (List.mem_zipIdx_iff_getElem?.mpr hentry) hj
  · rw [releaseEndpoint, releaseEndpointFor]
    split_ifs <;> rfl

omit [DecidableEq Hash] in
theorem reportOffline_eq_ok {miner : Address} {modelIndex : ℕ}
    (h : s.reportOffline env msg miner modelIndex = .ok s') :
    ∃ m, (s.minerModels miner)[modelIndex]? = some m ∧
      s.reported miner modelIndex msg.sender = false ∧
      s' = { s.setFailureCount miner modelIndex (s.failureCount miner modelIndex + 1) with
        reported := assign s.reported miner (assign (s.reported miner) modelIndex
          (assign (s.reported miner modelIndex) msg.sender true))
        minerModels :=
          if s.failureCount miner modelIndex + 1 ≥ offlineThreshold then
            assign s.minerModels miner
              ((s.minerModels miner).set modelIndex { m with active := false })
          else s.minerModels } := by
  simp only [reportOffline, bind_eq_ok, entryAt_eq_ok, require_eq_ok] at h
  obtain ⟨-, -, m, hm, -, hreported, -, -, h⟩ := h
  refine ⟨m, hm, hreported, ?_⟩
  split_ifs at h ⊢
  · exact (Except.ok.inj h).symm
  · exact (Except.ok.inj h).symm

theorem cleanup_eq_ok {miner : Address} {index : ℕ}
    (h : s.cleanup keccak256 msg miner index = .ok s') :
    ∃ m, (s.minerModels miner)[index]? = some m ∧ m.expiresAt < msg.timestamp ∧
      s' = (releaseEndpointFor keccak256 s m.endpoint miner).setModels miner
        (swapPop (s.minerModels miner) index) := by
  simp only [cleanup, bind_eq_ok, entryAt_eq_ok, require_eq_ok, pure_eq_ok, checkedAdd64_eq_ok] at h
  obtain ⟨m, hm, _, ⟨-, rfl⟩, -, hexpired, rfl⟩ := h
  refine ⟨m, hm, (Nat.le_add_right _ _).trans_lt hexpired, ?_⟩
  rw [releaseEndpointFor]
  split_ifs <;> rfl

end Inversion

/-! ## The state machine -/

/-- The calls of `MinerRegistry`. -/
inductive Call where
  | registerEvm (uid : UInt16) (sigR sigS : Digest)
  | resetEvmRegistration (uid : UInt16)
  | registerModel (modelId endpoint : Bytes) (modelSpecRef : Digest) (quant : Bytes)
      (maxContextLen : UInt32)
  | renewModel (index : ℕ)
  | deactivateModel (index : ℕ)
  | updateEndpoint (index : ℕ) (newEndpoint : Bytes)
  | reportOffline (miner : Address) (modelIndex : ℕ)
  | cleanup (miner : Address) (index : ℕ)

/-- A transaction: the call, its sender and block, and the answers it sees. -/
structure Transaction (Hash : Type) where
  env : Env Hash
  msg : Msg
  call : Call

variable [DecidableEq Hash] (keccak256 : Bytes → Hash) (this : Address) (netuid : UInt16)

/-- The call of a transaction. -/
def execute (tx : Transaction Hash) (s : MinerRegistry Hash) : Tx (MinerRegistry Hash) :=
  match tx.call with
  | .registerEvm uid sigR sigS => do
    let binding ← s.binding.registerEvm keccak256 tx.env this tx.msg.sender netuid uid sigR sigS
    return { s with binding }
  | .resetEvmRegistration uid => do
    let binding ← s.binding.resetEvmRegistration tx.env tx.msg.sender uid
    return { s with binding }
  | .registerModel modelId endpoint modelSpecRef quant maxContextLen =>
    s.registerModel keccak256 tx.env tx.msg modelId endpoint modelSpecRef quant maxContextLen
  | .renewModel index => s.renewModel tx.env tx.msg index
  | .deactivateModel index => s.deactivateModel keccak256 tx.env tx.msg index
  | .updateEndpoint index newEndpoint =>
    s.updateEndpoint keccak256 tx.env tx.msg index newEndpoint
  | .reportOffline miner modelIndex => s.reportOffline tx.env tx.msg miner modelIndex
  | .cleanup miner index => s.cleanup keccak256 tx.msg miner index

/-- The storage with the timestamp of the last block. -/
structure World (Hash : Type) where
  state : MinerRegistry Hash
  now : ℕ

/-- One transaction in a block that is not earlier than the last one. A reverted call leaves the
storage as it was. -/
def step (tx : Transaction Hash) (w : World Hash) : Option (World Hash) :=
  if tx.msg.timestamp < w.now then none
  else
    match w.state.execute keccak256 this netuid tx with
    | .ok state => some ⟨state, tx.msg.timestamp⟩
    | .error _ => some ⟨w.state, tx.msg.timestamp⟩

/-- The deployed contract. -/
def deployed (now : ℕ) : World Hash := ⟨.empty, now⟩

theorem step_cases {tx : Transaction Hash} {w w' : World Hash}
    (h : step keccak256 this netuid tx w = some w') :
    w.now ≤ tx.msg.timestamp ∧ w'.now = tx.msg.timestamp ∧
      (w.state.execute keccak256 this netuid tx = .ok w'.state ∨ w'.state = w.state) := by
  unfold step at h
  split_ifs at h with htime
  split at h
  · next state hstate =>
    obtain rfl := Option.some.inj h
    exact ⟨not_lt.mp htime, rfl, .inl hstate⟩
  · obtain rfl := Option.some.inj h
    exact ⟨not_lt.mp htime, rfl, .inr rfl⟩

/-! ## Concrete transactions -/

/-- A call at time 0 that sees permissive answers. -/
def callAtZero (sender : Address) (hsender : sender ≠ 0) (call : Call) : Transaction Bytes where
  env := .permissive
  msg := ⟨sender, 0, hsender⟩
  call := call

/-- A registration of one model at one endpoint, at time 0. -/
def registration (sender : Address) (hsender : sender ≠ 0) : Transaction Bytes :=
  callAtZero sender hsender (.registerModel [109] [101] Digest.zero [113] 8)

end MinerRegistry

end Verathos.Contracts
