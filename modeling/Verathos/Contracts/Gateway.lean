import Verathos.Contracts.EvmBinding
import Verathos.Lib.Transition

/-!
# X402Gateway

A translation of `X402Gateway.sol`: the split of the collected USDC and its bridging through TaoFi,
and the owner's administration. The answers of USDC and of TaoFi are arbitrary in every transaction;
TaoFi runs code that the caller of `bridge` chooses, so other calls of the gateway may happen during
its call (`nested`).

The decoding of the payload and of the hotkey in a remote call follow ABIs outside the repository and
are parameters.

`bridge` overwrites `fromToken` and `fromAmount` and forwards the rest of the payload as it is: the
configured remote addresses and the configured hotkey are read by no function. `bridge_sink_iff` says
when a bridge call is what the configuration asks for.
-/

namespace Verathos.Contracts

/-! ## Parameters of TaoFi -/

structure SwapParams where
  fromToken : Address
  fromAmount : ℕ
  /-- The approval target of the swap; zero if there is none. -/
  approvalAddress : Address
  target : Address
  data : Bytes

/-- `ITaoFiBridge.Call`. -/
structure RemoteCall where
  target : Digest
  value : ℕ
  data : Bytes

structure RemoteCallsParams where
  router : Digest
  ism : Digest
  calls : List RemoteCall
  hookMetadata : Bytes

/-- The `bytes32` of an address. -/
def addressWord (a : Address) : Digest :=
  ⟨List.replicate 12 0 ++ packedUint 20 a, by simp [packedUint]⟩

/-! ## Storage -/

/-- The storage of `X402Gateway`, with its immutables. -/
structure Gateway where
  usdc : Address
  taofi : Address
  netuid : UInt16
  owner : Address
  ownerTreasury : Address
  ownerCutBps : ℕ
  validatorHotkey : Digest
  remoteSwapAndStake : Address
  remoteWTAO : Address
  remoteUSDC : Address
  totalRevenue : ℕ
  totalTreasury : ℕ
  totalBridged : ℕ
  bridgeCount : ℕ
  minBridgeAmount : ℕ
  locked : ℕ
  emergencyAnnouncedAt : ℕ

/-- `MAX_OWNER_CUT_BPS`: 20%. -/
def maxOwnerCutBps : ℕ := 2000

/-- `EMERGENCY_TIMELOCK`: 7 days. -/
def emergencyTimelock : ℕ := 7 * 24 * 3600

namespace Gateway

open Transition

/-- The constructor. -/
def create (sender usdc taofi : Address) (netuid : UInt16) (ownerTreasury : Address)
    (ownerCutBps : ℕ) (validatorHotkey : Digest) (minBridgeAmount : ℕ) : Tx Gateway := do
  require (usdc ≠ 0) "Zero USDC"
  require (taofi ≠ 0) "Zero TaoFi"
  require (ownerTreasury ≠ 0) "Zero treasury"
  require (ownerCutBps ≤ maxOwnerCutBps) "Cut too high"
  require (validatorHotkey ≠ Digest.zero) "Zero hotkey"
  return {
    usdc, taofi, netuid
    owner := sender
    ownerTreasury, ownerCutBps, validatorHotkey
    remoteSwapAndStake := 0
    remoteWTAO := 0
    remoteUSDC := 0
    totalRevenue := 0
    totalTreasury := 0
    totalBridged := 0
    bridgeCount := 0
    minBridgeAmount
    locked := 0
    emergencyAnnouncedAt := 0 }

/-! ## Administration -/

/-- The calls of the owner. -/
inductive AdminCall where
  | setOwnerCut (newBps : ℕ)
  | setTreasury (newTreasury : Address)
  | setValidatorHotkey (newHotkey : Digest)
  | setMinBridgeAmount (newAmount : ℕ)
  | setRemoteConfig (swapAndStake wtao usdc : Address)
  | transferOwnership (newOwner : Address)
  | announceEmergencyWithdraw
  | executeEmergencyWithdraw (recipient : Address) (amount : ℕ)
  | cancelEmergencyWithdraw

/-- What a call of the owner sees. -/
structure AdminEnv where
  sender : Address
  timestamp : ℕ
  /-- The USDC balance of the gateway; `none` when the call fails. -/
  balance : Option ℕ
  transferOk : Bool

def usdcBalance (balance : Option ℕ) : Tx ℕ :=
  match balance with
  | some amount => .ok amount
  | none => .error "balanceOf failed"

/-- A call of the owner. -/
def admin (env : AdminEnv) (s : Gateway) (call : AdminCall) : Tx Gateway := do
  require (env.sender = s.owner) "Not owner"
  match call with
  | .setOwnerCut newBps => do
    require (newBps ≤ maxOwnerCutBps) "Cut too high"
    return { s with ownerCutBps := newBps }
  | .setTreasury newTreasury => do
    require (newTreasury ≠ 0) "Zero treasury"
    return { s with ownerTreasury := newTreasury }
  | .setValidatorHotkey newHotkey => do
    require (newHotkey ≠ Digest.zero) "Zero hotkey"
    return { s with validatorHotkey := newHotkey }
  | .setMinBridgeAmount newAmount => return { s with minBridgeAmount := newAmount }
  | .setRemoteConfig swapAndStake wtao usdc =>
    return { s with remoteSwapAndStake := swapAndStake, remoteWTAO := wtao, remoteUSDC := usdc }
  | .transferOwnership newOwner => do
    require (newOwner ≠ 0) "Zero owner"
    return { s with owner := newOwner }
  | .announceEmergencyWithdraw => return { s with emergencyAnnouncedAt := env.timestamp }
  | .executeEmergencyWithdraw recipient amount => do
    require (0 < s.emergencyAnnouncedAt) "Not announced"
    require (s.emergencyAnnouncedAt + emergencyTimelock ≤ env.timestamp) "Timelock not expired"
    require (recipient ≠ 0) "Zero recipient"
    let balance ← usdcBalance env.balance
    require (amount ≤ balance) "Exceeds balance"
    require (env.transferOk) "USDC transfer failed"
    return { s with emergencyAnnouncedAt := 0 }
  | .cancelEmergencyWithdraw => return { s with emergencyAnnouncedAt := 0 }

/-! ## Bridge -/

/-- What a call of `bridge` sees. -/
structure BridgeEnv where
  /-- The USDC balance of the gateway; `none` when the call fails. -/
  balance : Option ℕ
  transferOk : Bool
  approveOk : Bool
  bridgeOk : Bool
  /-- The calls of the gateway during the call of TaoFi. Those of `bridge` revert at its guard. -/
  nested : List (AdminEnv × AdminCall)

/-- The decoded payload of `bridge`. -/
structure Payload where
  swapParams : SwapParams
  remoteParams : RemoteCallsParams
  bridgeCost : ℕ

/-- The calls that a successful `bridge` makes. -/
structure Effects where
  balance : ℕ
  treasuryCut : ℕ
  /-- The transfer of the cut, when it is not zero: recipient and amount. -/
  transfer : Option (Address × ℕ)
  approval : Address × ℕ
  call : Payload

/-- Calls of the owner that happen during another call. A reverted one has no effect. -/
def runNested (s : Gateway) : List (AdminEnv × AdminCall) → Gateway
  | [] => s
  | (env, call) :: rest =>
    match s.admin env call with
    | .ok s' => runNested s' rest
    | .error _ => runNested s rest

/-- Checked `uint256` arithmetic: the result has to be in range. -/
def checked256 (value : ℕ) : Tx ℕ := do
  require (value < 2 ^ 256) "Panic(0x11)"
  return value

/-- `abi.decode(bridgeCallData, …)`. -/
def decodePayload (decode : Bytes → Option Payload) (bridgeCallData : Bytes) : Tx Payload :=
  match decode bridgeCallData with
  | some payload => .ok payload
  | none => .error ""

@[simp]
theorem decodePayload_eq_ok {decode : Bytes → Option Payload} {bridgeCallData : Bytes}
    {payload : Payload} :
    decodePayload decode bridgeCallData = .ok payload ↔ decode bridgeCallData = some payload := by
  unfold decodePayload
  cases decode bridgeCallData <;> simp

def bridge (decode : Bytes → Option Payload) (env : BridgeEnv) (s : Gateway)
    (bridgeCallData : Bytes) : Tx (Gateway × Effects) := do
  require (s.locked = 0) "Reentrant"
  let s := { s with locked := 1 }
  let balance ← usdcBalance env.balance
  require (balance ≥ s.minBridgeAmount) "Below min bridge amount"
  let product ← checked256 (balance * s.ownerCutBps)
  let treasuryCut := product / 10000
  require (treasuryCut ≤ balance) "Panic(0x11)"
  let bridgeAmount := balance - treasuryCut
  require (treasuryCut = 0 ∨ env.transferOk) "USDC transfer failed"
  require (env.approveOk) "USDC approve failed"
  let payload ← decodePayload decode bridgeCallData
  let swapParams := { payload.swapParams with fromToken := s.usdc, fromAmount := bridgeAmount }
  let effects : Effects :=
    { balance, treasuryCut
      transfer := if 0 < treasuryCut then some (s.ownerTreasury, treasuryCut) else none
      approval := (s.taofi, bridgeAmount)
      call := { payload with swapParams } }
  require (env.bridgeOk) ""
  let s := s.runNested env.nested
  let totalRevenue ← checked256 (s.totalRevenue + balance)
  let totalTreasury ← checked256 (s.totalTreasury + treasuryCut)
  let totalBridged ← checked256 (s.totalBridged + bridgeAmount)
  let bridgeCount ← checked256 (s.bridgeCount + 1)
  return ({ s with totalRevenue, totalTreasury, totalBridged, bridgeCount, locked := 0 }, effects)

/-! ## The state machine -/

/-- A transaction. -/
inductive Transaction where
  | admin (env : AdminEnv) (call : AdminCall)
  | bridge (env : BridgeEnv) (bridgeCallData : Bytes)

/-- One transaction. A reverted call leaves the storage as it was. -/
def step (decode : Bytes → Option Payload) (tx : Transaction) (s : Gateway) : Option Gateway :=
  match tx with
  | .admin env call =>
    match s.admin env call with
    | .ok s' => some s'
    | .error _ => some s
  | .bridge env bridgeCallData =>
    match s.bridge decode env bridgeCallData with
    | .ok (s', _) => some s'
    | .error _ => some s

/-! ## The property -/

section Sink

variable (stakeHotkey : Bytes → Option Digest)

/-- The remote addresses of the configuration. -/
def configured (s : Gateway) : List Address := [s.remoteSwapAndStake, s.remoteWTAO, s.remoteUSDC]

/-- The parameters name no beneficiary of the caller: a swap, if there is one, is with a configured
address, every remote call is to a configured address, and what it stakes goes to the configured
hotkey. -/
def BeneficiariesConfigured (s : Gateway) (p : Payload) : Prop :=
  (p.swapParams.target = 0 ∨ p.swapParams.target ∈ s.configured) ∧
  (p.swapParams.approvalAddress = 0 ∨ p.swapParams.approvalAddress ∈ s.configured) ∧
  ∀ call ∈ p.remoteParams.calls, call.target ∈ s.configured.map addressWord ∧
    ∀ hotkey, stakeHotkey call.data = some hotkey → hotkey = s.validatorHotkey

/-- What a successful `bridge` has to do: send at most a fifth of the balance, to the treasury, and
bridge the rest of it as USDC without a beneficiary of the caller. -/
structure IsSink (s : Gateway) (effects : Effects) : Prop where
  cut_le : 5 * effects.treasuryCut ≤ effects.balance
  transfer : effects.transfer =
    if 0 < effects.treasuryCut then some (s.ownerTreasury, effects.treasuryCut) else none
  fromToken : effects.call.swapParams.fromToken = s.usdc
  fromAmount : effects.call.swapParams.fromAmount = effects.balance - effects.treasuryCut
  beneficiaries : BeneficiariesConfigured stakeHotkey s effects.call

/-- The payload names no beneficiary of the caller. -/
def PayloadConfigured (decode : Bytes → Option Payload) (s : Gateway) (bridgeCallData : Bytes) :
    Prop :=
  ∀ p, decode bridgeCallData = some p → BeneficiariesConfigured stakeHotkey s p

end Sink

/-! ## Steps -/

/-- The invariant: the cut is at most 20%, and the totals add up. -/
structure Accounted (s : Gateway) : Prop where
  cut_le : s.ownerCutBps ≤ maxOwnerCutBps
  total : s.totalRevenue = s.totalTreasury + s.totalBridged

section Steps

variable {s s' : Gateway}

theorem accounted_create {sender usdc taofi : Address} {netuid : UInt16} {ownerTreasury : Address}
    {ownerCutBps : ℕ} {validatorHotkey : Digest} {minBridgeAmount : ℕ}
    (h : create sender usdc taofi netuid ownerTreasury ownerCutBps validatorHotkey minBridgeAmount =
      .ok s) : s.Accounted := by
  simp only [create, bind_eq_ok, require_eq_ok, pure_eq_ok] at h
  obtain ⟨-, -, -, -, -, -, -, hcut, -, -, rfl⟩ := h
  exact ⟨hcut, rfl⟩

theorem Accounted.admin (h : s.Accounted) {env : AdminEnv} {call : AdminCall}
    (hok : s.admin env call = .ok s') : s'.Accounted := by
  simp only [Gateway.admin, bind_eq_ok] at hok
  obtain ⟨-, -, hok⟩ := hok
  cases call with
  | setOwnerCut newBps =>
    simp only [bind_eq_ok, require_eq_ok, pure_eq_ok] at hok
    obtain ⟨-, hcut, rfl⟩ := hok
    exact ⟨hcut, h.total⟩
  | setTreasury newTreasury =>
    simp only [bind_eq_ok, pure_eq_ok] at hok
    obtain ⟨-, -, rfl⟩ := hok
    exact ⟨h.cut_le, h.total⟩
  | setValidatorHotkey newHotkey =>
    simp only [bind_eq_ok, pure_eq_ok] at hok
    obtain ⟨-, -, rfl⟩ := hok
    exact ⟨h.cut_le, h.total⟩
  | setMinBridgeAmount newAmount =>
    obtain rfl := Except.ok.inj hok
    exact ⟨h.cut_le, h.total⟩
  | setRemoteConfig swapAndStake wtao usdc =>
    obtain rfl := Except.ok.inj hok
    exact ⟨h.cut_le, h.total⟩
  | transferOwnership newOwner =>
    simp only [bind_eq_ok, pure_eq_ok] at hok
    obtain ⟨-, -, rfl⟩ := hok
    exact ⟨h.cut_le, h.total⟩
  | announceEmergencyWithdraw =>
    obtain rfl := Except.ok.inj hok
    exact ⟨h.cut_le, h.total⟩
  | executeEmergencyWithdraw recipient amount =>
    simp only [bind_eq_ok, pure_eq_ok] at hok
    obtain ⟨-, -, -, -, -, -, balance, -, -, -, -, -, rfl⟩ := hok
    exact ⟨h.cut_le, h.total⟩
  | cancelEmergencyWithdraw =>
    obtain rfl := Except.ok.inj hok
    exact ⟨h.cut_le, h.total⟩

theorem Accounted.runNested {calls : List (AdminEnv × AdminCall)} (h : s.Accounted) :
    (s.runNested calls).Accounted := by
  induction calls generalizing s with
  | nil => exact h
  | cons entry rest ih =>
    obtain ⟨env, call⟩ := entry
    simp only [Gateway.runNested]
    split
    · next hok => exact ih (h.admin hok)
    · exact ih h

@[simp]
theorem checked256_eq_ok {value result : ℕ} :
    checked256 value = .ok result ↔ value < 2 ^ 256 ∧ result = value := by
  simp only [checked256, bind_eq_ok, require_eq_ok, pure_eq_ok]
  constructor
  · rintro ⟨-, hlt, rfl⟩
    exact ⟨hlt, rfl⟩
  · rintro ⟨hlt, rfl⟩
    exact ⟨(), hlt, rfl⟩

variable {decode : Bytes → Option Payload} {env : BridgeEnv} {bridgeCallData : Bytes}
  {effects : Effects}

/-- A successful `bridge`: the split of the balance, the forwarded payload, and the totals. -/
theorem bridge_eq_ok (h : s.bridge decode env bridgeCallData = .ok (s', effects)) :
    ∃ balance p, decode bridgeCallData = some p ∧
      effects =
        { balance
          treasuryCut := balance * s.ownerCutBps / 10000
          transfer :=
            if 0 < balance * s.ownerCutBps / 10000 then
              some (s.ownerTreasury, balance * s.ownerCutBps / 10000)
            else none
          approval := (s.taofi, balance - balance * s.ownerCutBps / 10000)
          call := { p with swapParams := { p.swapParams with
            fromToken := s.usdc
            fromAmount := balance - balance * s.ownerCutBps / 10000 } } } ∧
      balance * s.ownerCutBps / 10000 ≤ balance ∧
      let after := ({ s with locked := 1 } : Gateway).runNested env.nested
      s' = { after with
        totalRevenue := after.totalRevenue + balance
        totalTreasury := after.totalTreasury + balance * s.ownerCutBps / 10000
        totalBridged := after.totalBridged + (balance - balance * s.ownerCutBps / 10000)
        bridgeCount := after.bridgeCount + 1
        locked := 0 } := by
  simp only [bridge, bind_eq_ok, checked256_eq_ok, require_eq_ok, pure_eq_ok,
    decodePayload_eq_ok] at h
  obtain ⟨-, -, balance, -, -, -, _, ⟨-, rfl⟩, -, hle, -, -, -, -, p, hp, -, -, _, ⟨-, rfl⟩, _,
    ⟨-, rfl⟩, _, ⟨-, rfl⟩, _, ⟨-, rfl⟩, h⟩ := h
  refine ⟨balance, p, hp, ?_, hle, ?_⟩
  · exact (Prod.mk.inj h).2.symm
  · exact (Prod.mk.inj h).1.symm

theorem Accounted.bridge (h : s.Accounted)
    (hok : s.bridge decode env bridgeCallData = .ok (s', effects)) : s'.Accounted := by
  obtain ⟨balance, p, -, -, hle, rfl⟩ := bridge_eq_ok hok
  have hlocked : ({ s with locked := 1 } : Gateway).Accounted := ⟨h.cut_le, h.total⟩
  have hnested : (({ s with locked := 1 } : Gateway).runNested env.nested).Accounted :=
    hlocked.runNested
  refine ⟨hnested.cut_le, ?_⟩
  have htotal := hnested.total
  dsimp only
  omega

/-- In an accounted state, a successful `bridge` is a sink exactly when the payload names no
beneficiary of the caller. -/
theorem Accounted.isSink_iff (h : s.Accounted) (stakeHotkey : Bytes → Option Digest)
    (hok : s.bridge decode env bridgeCallData = .ok (s', effects)) :
    IsSink stakeHotkey s effects ↔ PayloadConfigured stakeHotkey decode s bridgeCallData := by
  obtain ⟨balance, p, hp, rfl, hle, -⟩ := bridge_eq_ok hok
  constructor
  · intro hsink q hq
    obtain rfl := Option.some.inj (hp.symm.trans hq)
    exact hsink.beneficiaries
  · intro hpayload
    refine ⟨?_, rfl, rfl, rfl, hpayload p hp⟩
    -- at most 2000 of 10000
    have hcut : balance * s.ownerCutBps ≤ balance * 2000 := Nat.mul_le_mul_left _ h.cut_le
    dsimp only
    omega

end Steps

/-! ## Runs -/

/-- In every state that a run of `bridge` and of owner calls by any callers reaches, the totals add
up, and a successful `bridge` is a sink exactly when its payload names no beneficiary of the
caller. -/
theorem bridge_sink_iff {decode : Bytes → Option Payload} (stakeHotkey : Bytes → Option Digest)
    {sender usdc taofi : Address} {netuid : UInt16} {ownerTreasury : Address} {ownerCutBps : ℕ}
    {validatorHotkey : Digest} {minBridgeAmount : ℕ} {s₀ s : Gateway}
    (hcreate : create sender usdc taofi netuid ownerTreasury ownerCutBps validatorHotkey
      minBridgeAmount = .ok s₀)
    (hreach : Reachable (step decode) always s₀ s) :
    s.totalRevenue = s.totalTreasury + s.totalBridged ∧
    ∀ env bridgeCallData s' effects, s.bridge decode env bridgeCallData = .ok (s', effects) →
      (IsSink stakeHotkey s effects ↔ PayloadConfigured stakeHotkey decode s bridgeCallData) := by
  have haccounted : s.Accounted := by
    refine hreach.invariant (I := Accounted) (accounted_create hcreate) ?_
    intro tx s s' h _ hstep
    cases tx with
    | admin env call =>
      simp only [step] at hstep
      split at hstep
      · next hok =>
        obtain rfl := Option.some.inj hstep
        exact h.admin hok
      · obtain rfl := Option.some.inj hstep
        exact h
    | bridge env bridgeCallData =>
      simp only [step] at hstep
      split at hstep
      · next hok =>
        obtain rfl := Option.some.inj hstep
        exact h.bridge hok
      · obtain rfl := Option.some.inj hstep
        exact h
  exact ⟨haccounted.total, fun env bridgeCallData s' effects hok =>
    haccounted.isSink_iff stakeHotkey hok⟩

/-- A payload without a swap and with one remote call, to an address. -/
def payloadTo (target : Address) : Payload :=
  ⟨⟨0, 0, 0, 0, []⟩, ⟨Digest.zero, Digest.zero, [⟨addressWord target, 0, []⟩], []⟩, 0⟩

/-- Payloads of one byte, which is the address of the remote call. -/
def decodeByte : Bytes → Option Payload
  | [target] => some (payloadTo (Fin.ofNat _ target.toNat))
  | _ => none

/-- A new gateway with a cut of 10%. -/
def newGateway : Gateway where
  usdc := 2
  taofi := 3
  netuid := 96
  owner := 1
  ownerTreasury := 4
  ownerCutBps := 1000
  validatorHotkey := addressWord 5
  remoteSwapAndStake := 0
  remoteWTAO := 0
  remoteUSDC := 0
  totalRevenue := 0
  totalTreasury := 0
  totalBridged := 0
  bridgeCount := 0
  minBridgeAmount := 10
  locked := 0
  emergencyAnnouncedAt := 0

/-- The gateway after its owner has set the remote addresses 21, 22 and 23. -/
def configuredGateway : Gateway :=
  { newGateway with remoteSwapAndStake := 21, remoteWTAO := 22, remoteUSDC := 23 }

theorem create_newGateway : create 1 2 3 96 4 1000 (addressWord 5) 10 = .ok newGateway := rfl

theorem reachable_configuredGateway :
    Reachable (step decodeByte) always newGateway configuredGateway :=
  .step .refl trivial (show step decodeByte (.admin ⟨1, 0, none, false⟩
    (.setRemoteConfig 21 22 23)) newGateway = some configuredGateway from rfl)

/-- A balance of 100, and calls that succeed. -/
def exampleEnv : BridgeEnv := ⟨some 100, true, true, true, []⟩

/-- The calls of a `bridge` of that balance with a remote call to an address. -/
def exampleEffects (target : Address) : Effects where
  balance := 100
  treasuryCut := 10
  transfer := some (4, 10)
  approval := (3, 90)
  call := { payloadTo target with swapParams := ⟨2, 90, 0, 0, []⟩ }

/-- A caller bridges the USDC with a remote call to address 66, which is not configured. -/
theorem bridge_not_sink :
    create 1 2 3 96 4 1000 (addressWord 5) 10 = .ok newGateway ∧
      Reachable (step decodeByte) always newGateway configuredGateway ∧
      (∃ s', configuredGateway.bridge decodeByte exampleEnv [66] = .ok (s', exampleEffects 66)) ∧
      ¬ IsSink (fun _ => none) configuredGateway (exampleEffects 66) := by
  refine ⟨create_newGateway, reachable_configuredGateway, ⟨_, rfl⟩, fun hsink => ?_⟩
  have htarget := (hsink.beneficiaries.2.2 ⟨addressWord 66, 0, []⟩ List.mem_cons_self).1
  exact absurd htarget (by decide)

/-- The theorem on a bridge with a remote call to a configured address. -/
theorem bridge_sink_iff_configured :
    create 1 2 3 96 4 1000 (addressWord 5) 10 = .ok newGateway ∧
      Reachable (step decodeByte) always newGateway configuredGateway ∧
      (∃ s', configuredGateway.bridge decodeByte exampleEnv [21] = .ok (s', exampleEffects 21)) ∧
      IsSink (fun _ => none) configuredGateway (exampleEffects 21) := by
  refine ⟨create_newGateway, reachable_configuredGateway, ⟨_, rfl⟩, ?_⟩
  have hsink := (bridge_sink_iff (fun _ => none) create_newGateway reachable_configuredGateway).2
    exampleEnv [21] _ (exampleEffects 21) rfl
  refine hsink.mpr fun p hp => ?_
  obtain rfl := Option.some.inj hp
  refine ⟨.inl rfl, .inl rfl, fun call hcall => ?_⟩
  obtain rfl := List.mem_singleton.mp hcall
  exact ⟨by decide, by simp⟩

end Gateway

end Verathos.Contracts
