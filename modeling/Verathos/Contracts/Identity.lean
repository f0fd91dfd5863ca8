import Verathos.Contracts.MinerRegistry
import Verathos.Contracts.ValidatorRegistry

/-!
# Identities of the three registries

`MinerRegistry`, `ValidatorRegistry` and `UsageCheckpointRegistry` bind EVM addresses to subnet UIDs.
In every run of each of them, with any callers and any answers of the precompiles, the binding is a
partial bijection (`binding_lawful`).

`UsageCheckpointRegistry` stores nothing but the binding: a checkpoint is an event.
-/

namespace Verathos.Contracts

open Transition

/-! ## UsageCheckpointRegistry -/

namespace UsageCheckpointRegistry

/-- The calls of `UsageCheckpointRegistry`. -/
inductive Call where
  | registerEvm (uid : UInt16) (sigR sigS : Digest)
  | resetEvmRegistration (uid : UInt16)
  | recordCheckpoint (merkleRoot : Digest) (userCount : UInt32)
      (totalConsumedWei totalConsumedUsdMicros : ℕ)

/-- A transaction: the call, its sender and block, and the answers it sees. -/
structure Transaction (Hash : Type) where
  env : Env Hash
  msg : Msg
  call : Call

variable {Hash : Type} (keccak256 : Bytes → Hash) (this : Address) (netuid : UInt16)

/-- The call of a transaction. `recordCheckpoint` checks the caller and emits an event. -/
def execute (tx : Transaction Hash) (binding : EvmBinding) : Tx EvmBinding :=
  match tx.call with
  | .registerEvm uid sigR sigS =>
    binding.registerEvm keccak256 tx.env this tx.msg.sender netuid uid sigR sigS
  | .resetEvmRegistration uid => binding.resetEvmRegistration tx.env tx.msg.sender uid
  | .recordCheckpoint _ _ _ _ => do
    let _ ← binding.requireValidator tx.env tx.msg.sender
    return binding

/-- One transaction. A reverted call leaves the storage as it was. -/
def step (tx : Transaction Hash) (binding : EvmBinding) : Option EvmBinding :=
  match execute keccak256 this netuid tx binding with
  | .ok binding' => some binding'
  | .error _ => some binding

end UsageCheckpointRegistry

/-! ## Lawful bindings -/

/-- No address is bound to two UIDs, and no UID to two addresses. -/
def EvmBinding.OneToOne (binding : EvmBinding) : Prop :=
  (∀ (uid uid' : UInt16) (address : Address), address ≠ 0 → binding.uidToEvm uid = address →
    binding.uidToEvm uid' = address → uid = uid') ∧
  ∀ (address address' : Address), address ≠ 0 → address' ≠ 0 →
    binding.evmRegistered address = true → binding.evmRegistered address' = true →
    binding.evmToUid address = binding.evmToUid address' → address = address'

theorem EvmBinding.Lawful.oneToOne {binding : EvmBinding} (h : binding.Lawful) :
    binding.OneToOne := by
  constructor
  · intro uid uid' address hzero huid huid'
    rw [← ((h uid address hzero).mp huid).2, ((h uid' address hzero).mp huid').2]
  · intro address address' hzero hzero' hregistered hregistered' huid
    rw [← (h _ address hzero).mpr ⟨hregistered, rfl⟩, huid]
    exact (h _ address' hzero').mpr ⟨hregistered', rfl⟩

section Steps

variable {Hash : Type} {keccak256 : Bytes → Hash} {this : Address} {netuid : UInt16}

theorem MinerRegistry.lawful_execute [DecidableEq Hash] {s s' : MinerRegistry Hash}
    {tx : MinerRegistry.Transaction Hash} (h : s.binding.Lawful)
    (hok : s.execute keccak256 this netuid tx = .ok s') : s'.binding.Lawful := by
  rcases tx with ⟨env, msg, call⟩
  cases call with
  | registerEvm uid sigR sigS =>
    simp only [MinerRegistry.execute, bind_eq_ok, pure_eq_ok] at hok
    obtain ⟨binding, hbinding, rfl⟩ := hok
    exact h.registerEvm hbinding
  | resetEvmRegistration uid =>
    simp only [MinerRegistry.execute, bind_eq_ok, pure_eq_ok] at hok
    obtain ⟨binding, hbinding, rfl⟩ := hok
    exact h.resetEvmRegistration hbinding
  | registerModel modelId endpoint modelSpecRef quant maxContextLen =>
    obtain ⟨-, -, expiresAt, ⟨index, m, -, -, -, rfl⟩ | ⟨-, -, rfl⟩⟩ := registerModel_cases hok
    · exact h
    · exact h
  | renewModel index =>
    obtain ⟨m, expiresAt, -, -, rfl⟩ := renewModel_eq_ok hok
    exact h
  | deactivateModel index =>
    obtain ⟨m, -, rfl⟩ := deactivateModel_eq_ok hok
    rw [releaseEndpoint, releaseEndpointFor_eq]
    exact h
  | updateEndpoint index newEndpoint =>
    obtain ⟨m, -, -, -, rfl⟩ := updateEndpoint_eq_ok hok
    rw [releaseEndpoint, releaseEndpointFor_eq]
    exact h
  | reportOffline miner modelIndex =>
    obtain ⟨m, -, -, rfl⟩ := reportOffline_eq_ok hok
    exact h
  | cleanup miner index =>
    obtain ⟨m, -, -, rfl⟩ := cleanup_eq_ok hok
    rw [releaseEndpointFor_eq]
    exact h

theorem ValidatorRegistry.lawful_execute {s s' : ValidatorRegistry}
    {tx : ValidatorRegistry.Transaction Hash} (h : s.binding.Lawful)
    (hok : s.execute keccak256 this netuid tx = .ok s') : s'.binding.Lawful := by
  rcases tx with ⟨env, msg, call⟩
  cases call with
  | registerEvm uid sigR sigS =>
    simp only [ValidatorRegistry.execute, bind_eq_ok, pure_eq_ok] at hok
    obtain ⟨binding, hbinding, rfl⟩ := hok
    exact h.registerEvm hbinding
  | resetEvmRegistration uid =>
    simp only [ValidatorRegistry.execute, bind_eq_ok, pure_eq_ok] at hok
    obtain ⟨binding, hbinding, rfl⟩ := hok
    exact h.resetEvmRegistration hbinding
  | register proxyEndpoint =>
    obtain ⟨uid, -, -, rfl⟩ := register_eq_ok hok
    exact h
  | updateEndpoint newEndpoint =>
    obtain ⟨uid, -, -, -, rfl⟩ := updateEndpoint_eq_ok hok
    exact h
  | deactivate =>
    obtain ⟨-, rfl⟩ := deactivate_eq_ok hok
    exact h
  | reactivate =>
    obtain ⟨uid, -, -, -, rfl⟩ := reactivate_eq_ok hok
    exact h
  | setDefaultValidator validator =>
    obtain ⟨-, -, rfl⟩ := setDefaultValidator_eq_ok hok
    exact h
  | setMinValidatorStake amount =>
    simp only [ValidatorRegistry.execute, setMinValidatorStake, bind_eq_ok, pure_eq_ok] at hok
    obtain ⟨-, -, rfl⟩ := hok
    exact h
  | setMinProxyStake amount =>
    simp only [ValidatorRegistry.execute, setMinProxyStake, bind_eq_ok, pure_eq_ok] at hok
    obtain ⟨-, -, rfl⟩ := hok
    exact h
  | setWhitelisted addr status =>
    simp only [ValidatorRegistry.execute, setWhitelisted, bind_eq_ok, pure_eq_ok] at hok
    obtain ⟨-, -, rfl⟩ := hok
    exact h

theorem UsageCheckpointRegistry.lawful_execute {binding binding' : EvmBinding}
    {tx : UsageCheckpointRegistry.Transaction Hash} (h : binding.Lawful)
    (hok : UsageCheckpointRegistry.execute keccak256 this netuid tx binding = .ok binding') :
    binding'.Lawful := by
  rcases tx with ⟨env, msg, call⟩
  cases call with
  | registerEvm uid sigR sigS => exact h.registerEvm hok
  | resetEvmRegistration uid => exact h.resetEvmRegistration hok
  | recordCheckpoint merkleRoot userCount totalConsumedWei totalConsumedUsdMicros =>
    simp only [UsageCheckpointRegistry.execute, bind_eq_ok, pure_eq_ok] at hok
    obtain ⟨-, -, rfl⟩ := hok
    exact h

end Steps

/-! ## Runs -/

/-- A binding that is a partial bijection, with its consequence. -/
def EvmBinding.Bijective (binding : EvmBinding) : Prop := binding.Lawful ∧ binding.OneToOne

/-- In every run of each registry the binding of EVM addresses and UIDs is a partial bijection. -/
theorem binding_lawful {Hash : Type} [DecidableEq Hash] (keccak256 : Bytes → Hash) (this : Address)
    (netuid : UInt16) :
    (∀ start w, Reachable (MinerRegistry.step keccak256 this netuid) always
      (MinerRegistry.deployed start) w → w.state.binding.Bijective) ∧
    (∀ s, Reachable (ValidatorRegistry.step keccak256 this netuid) always ValidatorRegistry.empty s →
      s.binding.Bijective) ∧
    ∀ binding, Reachable (UsageCheckpointRegistry.step keccak256 this netuid) always .empty binding →
      binding.Bijective := by
  refine ⟨fun start w hreach => ?_, fun s hreach => ?_, fun binding hreach => ?_⟩
  · have hlawful : w.state.binding.Lawful := by
      refine hreach.invariant (I := fun w => w.state.binding.Lawful) EvmBinding.lawful_empty ?_
      intro tx w w' h _ hstep
      obtain ⟨-, -, hok | hsame⟩ := MinerRegistry.step_cases keccak256 this netuid hstep
      · exact MinerRegistry.lawful_execute h hok
      · rw [hsame]
        exact h
    exact ⟨hlawful, hlawful.oneToOne⟩
  · have hlawful : s.binding.Lawful := by
      refine hreach.invariant (I := fun s => s.binding.Lawful) EvmBinding.lawful_empty ?_
      intro tx s s' h _ hstep
      unfold ValidatorRegistry.step at hstep
      split at hstep
      · next hok =>
        obtain rfl := Option.some.inj hstep
        exact ValidatorRegistry.lawful_execute h hok
      · obtain rfl := Option.some.inj hstep
        exact h
    exact ⟨hlawful, hlawful.oneToOne⟩
  · have hlawful : binding.Lawful := by
      refine hreach.invariant (I := EvmBinding.Lawful) EvmBinding.lawful_empty ?_
      intro tx b b' h _ hstep
      unfold UsageCheckpointRegistry.step at hstep
      split at hstep
      · next hok =>
        obtain rfl := Option.some.inj hstep
        exact UsageCheckpointRegistry.lawful_execute h hok
      · obtain rfl := Option.some.inj hstep
        exact h
    exact ⟨hlawful, hlawful.oneToOne⟩

/-- Address 1 takes UID 0, address 2 takes it over, and address 1 takes UID 0 again. -/
def takeoverRun : List (UsageCheckpointRegistry.Transaction Bytes) :=
  [1, 2, 1].filterMap fun sender : Address =>
    if hsender : sender ≠ 0 then
      some
        { env := { Env.permissive with hotkey := fun _ => Digest.fill 1 }
          msg := ⟨sender, 0, hsender⟩
          call := .registerEvm 0 Digest.zero Digest.zero }
    else none

/-- The theorem on a run in which a UID changes hands twice. -/
theorem binding_lawful_takeover :
    ∃ binding, run (UsageCheckpointRegistry.step id 0 0) takeoverRun .empty = some binding ∧
      binding.uidToEvm 0 = 1 ∧ binding.Bijective := by
  have hsome : (run (UsageCheckpointRegistry.step id 0 0) takeoverRun .empty).isSome := by
    decide +kernel
  obtain ⟨binding, hbinding⟩ := Option.isSome_iff_exists.mp hsome
  have hone : (run (UsageCheckpointRegistry.step id 0 0) takeoverRun .empty).map
      (fun binding => binding.uidToEvm 0) = some 1 := by decide +kernel
  rw [hbinding, Option.map_some, Option.some.injEq] at hone
  exact ⟨binding, hbinding, hone, (binding_lawful id 0 0).2.2 binding (reachable_of_run hbinding)⟩

end Verathos.Contracts
