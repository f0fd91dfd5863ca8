import Verathos.Contracts.Basic

/-!
# EVM addresses and subnet UIDs

`MinerRegistry`, `ValidatorRegistry` and `UsageCheckpointRegistry` carry the same three mappings and
the same code for them: `registerEvm`, `resetEvmRegistration` and `_resolveUid`. They are modelled
once here, and the contracts embed them.

`EvmBinding.Lawful` says that the mappings are the two directions of one partial bijection; both
operations keep it.
-/

namespace Verathos.Contracts

/-- The mappings between EVM addresses and UIDs. -/
structure EvmBinding where
  evmToUid : Address → UInt16
  evmRegistered : Address → Bool
  uidToEvm : UInt16 → Address

/-- The big-endian bytes of an unsigned integer, as `abi.encodePacked` writes them. -/
def packedUint (size value : ℕ) : Bytes := (LittleEndian.toBytes size value).reverse

namespace EvmBinding

/-- The mappings after deployment. -/
def empty : EvmBinding := ⟨fun _ => 0, fun _ => false, fun _ => 0⟩

section Operations

variable {Hash : Type} (keccak256 : Bytes → Hash) (env : Env Hash) (this sender : Address)
  (netuid : UInt16) (binding : EvmBinding)

/-- `keccak256(abi.encodePacked(msg.sender, uid, netuid, address(this)))`. -/
def ownershipMessage (uid : UInt16) : Hash :=
  keccak256 (packedUint 20 sender ++ packedUint 2 uid.toNat ++ packedUint 2 netuid.toNat ++
    packedUint 20 this)

/-- The reverse heal of `registerEvm`: the sender leaves its former UID, if it still holds it. -/
def reverseHeal (uid : UInt16) : EvmBinding :=
  if binding.evmRegistered sender ∧ binding.evmToUid sender ≠ uid then
    let oldUid := binding.evmToUid sender
    if binding.uidToEvm oldUid = sender then
      { binding with uidToEvm := assign binding.uidToEvm oldUid 0 }
    else binding
  else binding

/-- The forward heal of `registerEvm`: another address that holds the UID loses it. -/
def forwardHeal (uid : UInt16) : EvmBinding :=
  let oldEvm := binding.uidToEvm uid
  if oldEvm ≠ 0 ∧ oldEvm ≠ sender then
    { binding with
      evmRegistered := assign binding.evmRegistered oldEvm false
      evmToUid := assign binding.evmToUid oldEvm 0 }
  else binding

/-- The final writes of `registerEvm`. -/
def bind (uid : UInt16) : EvmBinding where
  evmToUid := assign binding.evmToUid sender uid
  evmRegistered := assign binding.evmRegistered sender true
  uidToEvm := assign binding.uidToEvm uid sender

def registerEvm (uid : UInt16) (sigR sigS : Digest) : Tx EvmBinding := do
  require (uid.toNat < env.uidCount) "UID does not exist on subnet"
  let hotkey := env.hotkey uid
  require (hotkey ≠ Digest.zero) "UID has no hotkey"
  require (env.sr25519Verify (ownershipMessage keccak256 this sender netuid uid) hotkey sigR sigS)
    "Invalid SR25519 signature - caller does not own this hotkey"
  if binding.uidToEvm uid = sender ∧ binding.evmRegistered sender ∧
      binding.evmToUid sender = uid then
    return binding
  return ((binding.reverseHeal sender uid).forwardHeal sender uid).bind sender uid

def resetEvmRegistration (uid : UInt16) : Tx EvmBinding := do
  let old := binding.uidToEvm uid
  require (old ≠ 0) "UID not registered"
  require (sender = old ∨ sender = env.owner) "Not authorized"
  return {
    evmRegistered := assign binding.evmRegistered old false
    evmToUid := assign binding.evmToUid old 0
    uidToEvm := assign binding.uidToEvm uid 0 }

/-- `_resolveUid`: the first item of the lookup, else the mapping of the contract. -/
def resolveUid (caller : Address) : Tx UInt16 :=
  match env.uidLookup caller with
  | some (uid :: _) => .ok uid
  | _ => do
    require (binding.evmRegistered caller) "Not registered - call registerEvm(uid) first"
    return binding.evmToUid caller

/-- `_requireValidator`, and the check of the modifier `onlyValidator`. -/
def requireValidator (caller : Address) : Tx UInt16 := do
  let uid ← resolveUid env binding caller
  require (env.validatorStatus uid) "Not a validator"
  return uid

end Operations

/-! ## The law -/

/-- The mappings are the two directions of one partial bijection. -/
def Lawful (binding : EvmBinding) : Prop :=
  ∀ (uid : UInt16) (address : Address), address ≠ 0 →
    (binding.uidToEvm uid = address ↔
      binding.evmRegistered address = true ∧ binding.evmToUid address = uid)

theorem lawful_empty : empty.Lawful := by
  intro uid address hne
  simp [empty, hne.symm]

section Lawful

variable {binding : EvmBinding} {sender : Address} {uid : UInt16}

/-- The law for every address but the sender, which holds no UID but `uid`. -/
structure ReverseHealed (binding : EvmBinding) (sender : Address) (uid : UInt16) : Prop where
  others : ∀ (u : UInt16) (address : Address), address ≠ 0 → address ≠ sender →
    (binding.uidToEvm u = address ↔
      binding.evmRegistered address = true ∧ binding.evmToUid address = u)
  sender_free : ∀ u ≠ uid, binding.uidToEvm u = sender → sender = 0

/-- The law for every address but the sender, and no other address claims `uid`. -/
structure ForwardHealed (binding : EvmBinding) (sender : Address) (uid : UInt16) : Prop where
  others : ∀ (u : UInt16) (address : Address), u ≠ uid → address ≠ 0 → address ≠ sender →
    (binding.uidToEvm u = address ↔
      binding.evmRegistered address = true ∧ binding.evmToUid address = u)
  uid_free : ∀ address, address ≠ 0 → address ≠ sender →
    ¬ (binding.evmRegistered address = true ∧ binding.evmToUid address = uid)
  sender_free : ∀ u ≠ uid, binding.uidToEvm u = sender → sender = 0

theorem reverseHealed_reverseHeal (h : binding.Lawful) :
    (binding.reverseHeal sender uid).ReverseHealed sender uid := by
  simp only [reverseHeal]
  split_ifs with hregistered hold
  · -- the sender leaves its former UID
    constructor
    · intro u address hne hsender
      by_cases hu : u = binding.evmToUid sender
      · subst hu
        have hnot : binding.uidToEvm (binding.evmToUid sender) ≠ address := by
          rw [hold]
          exact hsender.symm
        simp only [assign_self, ← h _ address hne, hnot, iff_false]
        exact hne.symm
      · simp only [assign_of_ne _ _ hu, h u address hne]
    · intro u _ hu
      by_contra hzero
      by_cases hold' : u = binding.evmToUid sender
      · simp only [hold', assign_self] at hu
        exact hzero hu.symm
      · simp only [assign_of_ne _ _ hold'] at hu
        exact hold' ((h u sender hzero).mp hu).2.symm
  · -- by the law a registered sender holds its UID
    refine ⟨fun u address hne _ => h u address hne, fun u hu hholds => ?_⟩
    by_contra hzero
    exact hold ((h _ sender hzero).mpr ⟨hregistered.1, rfl⟩)
  · refine ⟨fun u address hne _ => h u address hne, fun u hu hholds => ?_⟩
    by_contra hzero
    have hbound := (h u sender hzero).mp hholds
    exact hregistered ⟨hbound.1, by rw [hbound.2]; exact hu⟩

theorem forwardHealed_forwardHeal (h : binding.ReverseHealed sender uid) :
    (binding.forwardHeal sender uid).ForwardHealed sender uid := by
  simp only [forwardHeal]
  split_ifs with hold
  · -- the old address is unregistered
    refine ⟨fun u address hu hne hsender => ?_, fun address hne hsender hclaims => ?_,
      h.sender_free⟩
    · by_cases haddress : address = binding.uidToEvm uid
      · have hbound := (h.others uid _ hold.1 hold.2).mp rfl
        have hnot : binding.uidToEvm u ≠ binding.uidToEvm uid := fun hu' =>
          hu (((h.others u _ hold.1 hold.2).mp hu').2.symm.trans hbound.2)
        simp [haddress, hnot]
      · simp only [assign_of_ne _ _ haddress, h.others u address hne hsender]
    · by_cases haddress : address = binding.uidToEvm uid
      · simp [haddress] at hclaims
      · simp only [assign_of_ne _ _ haddress] at hclaims
        exact haddress ((h.others uid address hne hsender).mpr hclaims).symm
  · refine ⟨fun u address _ hne hsender => h.others u address hne hsender,
      fun address hne hsender hclaims => ?_, h.sender_free⟩
    have hholds := (h.others uid address hne hsender).mpr hclaims
    exact hold (by rw [hholds]; exact ⟨hne, hsender⟩)

theorem lawful_bind (h : binding.ForwardHealed sender uid) : (binding.bind sender uid).Lawful := by
  intro u address hne
  by_cases haddress : address = sender
  · subst haddress
    by_cases hu : u = uid
    · simp [bind, hu]
    · simp only [bind, assign_self, assign_of_ne _ _ hu]
      exact ⟨fun hholds => absurd (h.sender_free u hu hholds) hne,
        fun hbound => absurd hbound.2.symm hu⟩
  · simp only [bind, assign_of_ne _ _ haddress]
    by_cases hu : u = uid
    · subst hu
      rw [assign_self]
      exact ⟨fun heq => absurd heq.symm haddress,
        fun hclaims => absurd hclaims (h.uid_free _ hne haddress)⟩
    · rw [assign_of_ne _ _ hu]
      exact h.others u address hu hne haddress

end Lawful

section Preservation

variable {Hash : Type} {keccak256 : Bytes → Hash} {env : Env Hash} {this sender : Address}
  {netuid : UInt16} {binding binding' : EvmBinding} {uid : UInt16} {sigR sigS : Digest}

theorem Lawful.registerEvm (h : binding.Lawful)
    (hok : EvmBinding.registerEvm keccak256 env this sender netuid binding uid sigR sigS =
      .ok binding') : binding'.Lawful := by
  simp only [EvmBinding.registerEvm, bind_eq_ok] at hok
  obtain ⟨-, -, -, -, -, -, hok⟩ := hok
  split_ifs at hok
  · obtain rfl := Except.ok.inj hok
    exact h
  · obtain rfl := Except.ok.inj hok
    exact lawful_bind (forwardHealed_forwardHeal (reverseHealed_reverseHeal h))

theorem Lawful.resetEvmRegistration (h : binding.Lawful)
    (hok : EvmBinding.resetEvmRegistration env sender binding uid = .ok binding') :
    binding'.Lawful := by
  simp only [EvmBinding.resetEvmRegistration, bind_eq_ok, require_eq_ok, pure_eq_ok] at hok
  obtain ⟨-, hold, -, -, rfl⟩ := hok
  have hbound := (h uid _ hold).mp rfl
  intro u address hne
  by_cases haddress : address = binding.uidToEvm uid
  · -- the address that held the UID is unregistered and holds no other
    by_cases hu : u = uid
    · simp [hu, haddress, hold.symm]
    · have hnot : binding.uidToEvm u ≠ binding.uidToEvm uid := fun hu' =>
        hu (((h u _ hold).mp hu').2.symm.trans hbound.2)
      simp [haddress, hu, hnot]
  · by_cases hu : u = uid
    · subst hu
      simp only [assign_self, assign_of_ne _ _ haddress, ← h u address hne]
      exact ⟨fun heq => absurd heq.symm hne, fun heq => absurd heq.symm haddress⟩
    · simp only [assign_of_ne _ _ haddress, assign_of_ne _ _ hu]
      exact h u address hne

end Preservation

end EvmBinding

end Verathos.Contracts
