import Verathos.Contracts.EvmBinding
import Verathos.Lib.Transition

/-!
# ValidatorRegistry

A translation of `ValidatorRegistry.sol`: registration of validators and of their proxy endpoints,
with the stake checks, the list of validators, the default validator and the views on them.

Each operation comes with the lemma that inverts a successful call (`…_eq_ok`): which checks passed
and what the storage is afterwards.
-/

namespace Verathos.Contracts

/-! ## Storage -/

/-- `struct ValidatorInfo`. -/
structure ValidatorInfo where
  /-- The URL of the proxy; empty when the validator runs none. -/
  proxyEndpoint : Bytes
  uid : UInt16
  registeredAt : ℕ
  updatedAt : ℕ
  active : Bool
deriving DecidableEq

/-- The storage of `ValidatorRegistry`. -/
structure ValidatorRegistry where
  minValidatorStake : ℕ
  minProxyStake : ℕ
  whitelisted : Address → Bool
  validators : Address → ValidatorInfo
  validatorList : List Address
  inList : Address → Bool
  /-- `defaultValidator`; `address(0)` while none is set. -/
  defaultValidator : Address
  binding : EvmBinding

namespace ValidatorRegistry

/-- The storage after deployment. -/
def empty : ValidatorRegistry where
  minValidatorStake := 0
  minProxyStake := 0
  whitelisted := fun _ => false
  validators := fun _ => ⟨[], 0, 0, 0, false⟩
  validatorList := []
  inList := fun _ => false
  defaultValidator := 0
  binding := .empty

/-- Storage with the information of one validator replaced. -/
def setValidator (s : ValidatorRegistry) (a : Address) (v : ValidatorInfo) : ValidatorRegistry :=
  { s with validators := assign s.validators a v }

theorem validators_setValidator (s : ValidatorRegistry) (a b : Address) (v : ValidatorInfo) :
    (s.setValidator a v).validators b = if b = a then v else s.validators b :=
  assign_apply _ _ _ _

/-! ## Operations -/

section Operations

variable {Hash : Type} (env : Env Hash) (msg : Msg) (s : ValidatorRegistry)

/-- `uint64(block.timestamp)`. -/
def timestamp64 : ℕ := msg.timestamp % 2 ^ 64

def requireStake (caller : Address) (uid : UInt16) (minStake : ℕ) : Tx Unit :=
  if minStake = 0 then .ok ()
  else if caller = env.owner then .ok ()
  else if s.whitelisted caller then .ok ()
  else require (env.alphaStaked (env.hotkey uid) ≥ minStake) "Insufficient alpha stake"

/-- The stake that a validator with this endpoint has to meet. -/
def requiredStake (proxyEndpoint : Bytes) : ℕ :=
  if 0 < proxyEndpoint.length then s.minProxyStake else s.minValidatorStake

def register (proxyEndpoint : Bytes) : Tx ValidatorRegistry := do
  let uid ← s.binding.requireValidator env msg.sender
  s.requireStake env msg.sender uid (s.requiredStake proxyEndpoint)
  let v := s.validators msg.sender
  let registeredAt := if v.registeredAt = 0 then timestamp64 msg else v.registeredAt
  let s := s.setValidator msg.sender ⟨proxyEndpoint, uid, registeredAt, timestamp64 msg, true⟩
  if s.inList msg.sender then return s
  return { s with
    validatorList := s.validatorList ++ [msg.sender]
    inList := assign s.inList msg.sender true }

def updateEndpoint (newEndpoint : Bytes) : Tx ValidatorRegistry := do
  let uid ← s.binding.requireValidator env msg.sender
  let v := s.validators msg.sender
  require (0 < v.registeredAt) "Not registered"
  if 0 < newEndpoint.length then s.requireStake env msg.sender uid s.minProxyStake
  return s.setValidator msg.sender
    { v with proxyEndpoint := newEndpoint, updatedAt := timestamp64 msg }

def deactivate : Tx ValidatorRegistry := do
  let v := s.validators msg.sender
  require (0 < v.registeredAt) "Not registered"
  return s.setValidator msg.sender { v with active := false }

def reactivate : Tx ValidatorRegistry := do
  let uid ← s.binding.requireValidator env msg.sender
  let v := s.validators msg.sender
  require (0 < v.registeredAt) "Not registered"
  s.requireStake env msg.sender uid (s.requiredStake v.proxyEndpoint)
  return s.setValidator msg.sender { v with active := true, updatedAt := timestamp64 msg }

/-- The modifier `onlyOwner`. -/
def onlyOwner : Tx Unit := require (msg.sender = env.owner) "OwnableUnauthorizedAccount"

def setDefaultValidator (validator : Address) : Tx ValidatorRegistry := do
  onlyOwner env msg
  require (0 < (s.validators validator).registeredAt) "Validator not registered"
  require ((s.validators validator).active) "Validator not active"
  return { s with defaultValidator := validator }

def setMinValidatorStake (amount : ℕ) : Tx ValidatorRegistry := do
  onlyOwner env msg
  return { s with minValidatorStake := amount }

def setMinProxyStake (amount : ℕ) : Tx ValidatorRegistry := do
  onlyOwner env msg
  return { s with minProxyStake := amount }

def setWhitelisted (addr : Address) (status : Bool) : Tx ValidatorRegistry := do
  onlyOwner env msg
  return { s with whitelisted := assign s.whitelisted addr status }

def getDefault : Tx (Address × ValidatorInfo) := do
  require (s.defaultValidator ≠ 0) "No default validator set"
  return (s.defaultValidator, s.validators s.defaultValidator)

def getActiveValidators : List (Address × ValidatorInfo) :=
  (s.validatorList.filter fun addr => (s.validators addr).active).map
    fun addr => (addr, s.validators addr)

def getProxyValidators : List (Address × ValidatorInfo) :=
  (s.validatorList.filter fun addr => (s.validators addr).active &&
    0 < (s.validators addr).proxyEndpoint.length).map fun addr => (addr, s.validators addr)

end Operations

/-! ## Inversion -/

section Inversion

variable {Hash : Type} {env : Env Hash} {msg : Msg} {s s' : ValidatorRegistry}

/-- A passed stake check: the stake suffices, or the caller is the owner or whitelisted. -/
theorem requireStake_eq_ok {caller : Address} {uid : UInt16} {minStake : ℕ} {u : Unit} :
    s.requireStake env caller uid minStake = .ok u ↔
      minStake ≤ env.alphaStaked (env.hotkey uid) ∨ caller = env.owner ∨
        s.whitelisted caller = true := by
  unfold requireStake
  split_ifs with hzero howner hwhitelisted
  · simp [hzero]
  · simp [howner]
  · simp [hwhitelisted]
  · rw [require_eq_ok]
    simp [howner, hwhitelisted]

/-- A successful `register`: the stake check passed, and the sender is active in the list. -/
theorem register_eq_ok {proxyEndpoint : Bytes}
    (h : s.register env msg proxyEndpoint = .ok s') :
    ∃ uid, s.binding.requireValidator env msg.sender = .ok uid ∧
      s.requireStake env msg.sender uid (s.requiredStake proxyEndpoint) = .ok () ∧
      s' = { s.setValidator msg.sender ⟨proxyEndpoint, uid,
          if (s.validators msg.sender).registeredAt = 0 then timestamp64 msg
          else (s.validators msg.sender).registeredAt, timestamp64 msg, true⟩ with
        validatorList :=
          if s.inList msg.sender then s.validatorList else s.validatorList ++ [msg.sender]
        inList := assign s.inList msg.sender true } := by
  simp only [register, bind_eq_ok] at h
  obtain ⟨uid, huid, u, hstake, h⟩ := h
  refine ⟨uid, huid, hstake, ?_⟩
  generalize (if (s.validators msg.sender).registeredAt = 0 then timestamp64 msg
    else (s.validators msg.sender).registeredAt) = registeredAt at h ⊢
  by_cases hlist : s.inList msg.sender = true
  · have hsame : assign s.inList msg.sender true = s.inList := by
      rw [assign, ← hlist, Function.update_eq_self]
    rw [if_pos (show (s.setValidator _ _).inList msg.sender = true from hlist)] at h
    rw [← Except.ok.inj h, if_pos hlist, hsame]
    rfl
  · rw [if_neg (show ¬ (s.setValidator _ _).inList msg.sender = true from hlist)] at h
    rw [← Except.ok.inj h, if_neg hlist]
    rfl

theorem updateEndpoint_eq_ok {newEndpoint : Bytes}
    (h : s.updateEndpoint env msg newEndpoint = .ok s') :
    ∃ uid, s.binding.requireValidator env msg.sender = .ok uid ∧
      0 < (s.validators msg.sender).registeredAt ∧
      (0 < newEndpoint.length →
        s.requireStake env msg.sender uid s.minProxyStake = .ok ()) ∧
      s' = s.setValidator msg.sender { s.validators msg.sender with
        proxyEndpoint := newEndpoint, updatedAt := timestamp64 msg } := by
  simp only [updateEndpoint, bind_eq_ok, require_eq_ok] at h
  obtain ⟨uid, huid, -, hregistered, h⟩ := h
  refine ⟨uid, huid, hregistered, ?_⟩
  split_ifs at h with hproxy
  · simp only [bind_eq_ok, pure_eq_ok] at h
    obtain ⟨u, hstake, rfl⟩ := h
    exact ⟨fun _ => hstake, rfl⟩
  · exact ⟨fun hlength => absurd hlength hproxy, (Except.ok.inj h).symm⟩

theorem deactivate_eq_ok (h : s.deactivate msg = .ok s') :
    0 < (s.validators msg.sender).registeredAt ∧
      s' = s.setValidator msg.sender { s.validators msg.sender with active := false } := by
  simp only [deactivate, bind_eq_ok, require_eq_ok, pure_eq_ok] at h
  obtain ⟨-, hregistered, rfl⟩ := h
  exact ⟨hregistered, rfl⟩

theorem reactivate_eq_ok (h : s.reactivate env msg = .ok s') :
    ∃ uid, s.binding.requireValidator env msg.sender = .ok uid ∧
      0 < (s.validators msg.sender).registeredAt ∧
      s.requireStake env msg.sender uid
        (s.requiredStake (s.validators msg.sender).proxyEndpoint) = .ok () ∧
      s' = s.setValidator msg.sender { s.validators msg.sender with
        active := true, updatedAt := timestamp64 msg } := by
  simp only [reactivate, bind_eq_ok, require_eq_ok, pure_eq_ok] at h
  obtain ⟨uid, huid, -, hregistered, u, hstake, rfl⟩ := h
  exact ⟨uid, huid, hregistered, hstake, rfl⟩

theorem setDefaultValidator_eq_ok {validator : Address}
    (h : s.setDefaultValidator env msg validator = .ok s') :
    0 < (s.validators validator).registeredAt ∧ (s.validators validator).active = true ∧
      s' = { s with defaultValidator := validator } := by
  simp only [setDefaultValidator, bind_eq_ok, require_eq_ok, pure_eq_ok] at h
  obtain ⟨-, -, -, hregistered, -, hactive, rfl⟩ := h
  exact ⟨hregistered, hactive, rfl⟩

theorem mem_getProxyValidators {a : Address} {v : ValidatorInfo} :
    (a, v) ∈ s.getProxyValidators ↔ a ∈ s.validatorList ∧ (s.validators a).active = true ∧
      0 < (s.validators a).proxyEndpoint.length ∧ v = s.validators a := by
  simp only [getProxyValidators, List.mem_map, List.mem_filter, Bool.and_eq_true, decide_eq_true_eq,
    Prod.mk.injEq]
  constructor
  · rintro ⟨b, ⟨hmem, hactive, hproxy⟩, rfl, rfl⟩
    exact ⟨hmem, hactive, hproxy, rfl⟩
  · rintro ⟨hmem, hactive, hproxy, rfl⟩
    exact ⟨a, ⟨hmem, hactive, hproxy⟩, rfl, rfl⟩

end Inversion

/-! ## The state machine -/

/-- The calls of `ValidatorRegistry`. -/
inductive Call where
  | registerEvm (uid : UInt16) (sigR sigS : Digest)
  | resetEvmRegistration (uid : UInt16)
  | register (proxyEndpoint : Bytes)
  | updateEndpoint (newEndpoint : Bytes)
  | deactivate
  | reactivate
  | setDefaultValidator (validator : Address)
  | setMinValidatorStake (amount : ℕ)
  | setMinProxyStake (amount : ℕ)
  | setWhitelisted (addr : Address) (status : Bool)

/-- A transaction: the call, its sender and block, and the answers it sees. -/
structure Transaction (Hash : Type) where
  env : Env Hash
  msg : Msg
  call : Call

variable {Hash : Type} (keccak256 : Bytes → Hash) (this : Address) (netuid : UInt16)

/-- The call of a transaction. -/
def execute (tx : Transaction Hash) (s : ValidatorRegistry) : Tx ValidatorRegistry :=
  match tx.call with
  | .registerEvm uid sigR sigS => do
    let binding ← s.binding.registerEvm keccak256 tx.env this tx.msg.sender netuid uid sigR sigS
    return { s with binding }
  | .resetEvmRegistration uid => do
    let binding ← s.binding.resetEvmRegistration tx.env tx.msg.sender uid
    return { s with binding }
  | .register proxyEndpoint => s.register tx.env tx.msg proxyEndpoint
  | .updateEndpoint newEndpoint => s.updateEndpoint tx.env tx.msg newEndpoint
  | .deactivate => s.deactivate tx.msg
  | .reactivate => s.reactivate tx.env tx.msg
  | .setDefaultValidator validator => s.setDefaultValidator tx.env tx.msg validator
  | .setMinValidatorStake amount => s.setMinValidatorStake tx.env tx.msg amount
  | .setMinProxyStake amount => s.setMinProxyStake tx.env tx.msg amount
  | .setWhitelisted addr status => s.setWhitelisted tx.env tx.msg addr status

/-- One transaction. A reverted call leaves the storage as it was. -/
def step (tx : Transaction Hash) (s : ValidatorRegistry) : Option ValidatorRegistry :=
  match s.execute keccak256 this netuid tx with
  | .ok s' => some s'
  | .error _ => some s

end ValidatorRegistry

end Verathos.Contracts
