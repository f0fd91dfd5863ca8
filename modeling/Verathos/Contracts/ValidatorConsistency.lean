import Verathos.Contracts.ValidatorRegistry

/-!
# Consistency of ValidatorRegistry

What the list of validators, the stored UIDs, the proxy validators and the default validator stand
for is the history of the calls. It is recorded beside the storage (`Tracked`), without any influence
on it.

* The list holds exactly the registered validators, each once.
* A proxy validator met `minProxyStake` when it last registered, changed its endpoint or
  re-activated, or was exempt then: whitelisted, or the owner.
* The stored UID is the one that the last `register` resolved. `updateEndpoint` and `reactivate`
  resolve the UID again and do not store it.
* The default validator is registered, and active unless it deactivated itself since.
-/

namespace Verathos.Contracts.ValidatorRegistry

open Transition

/-! ## History -/

/-- What a validator-checked call saw: `register`, `updateEndpoint` or `reactivate`. -/
structure Action where
  uid : UInt16
  /-- Whether the stake of the hotkey of the UID was at least `minProxyStake`. -/
  stakeMet : Bool
  whitelisted : Bool
  owner : Bool

/-- The successful calls so far. -/
structure Log where
  last : Address → Option Action
  /-- The UID that the last `register` of an address resolved. -/
  registered : Address → Option UInt16
  /-- Whether an address called `deactivate` after its last `register` or `reactivate`. -/
  deactivated : Address → Bool

/-- No calls. -/
def Log.initial : Log := ⟨fun _ => none, fun _ => none, fun _ => false⟩

section Tracking

variable {Hash : Type}

/-- What a validator-checked call by the sender sees. -/
def seenAction (tx : Transaction Hash) (s : ValidatorRegistry) : Option Action :=
  (s.binding.requireValidator tx.env tx.msg.sender).toOption.map fun uid =>
    { uid
      stakeMet := s.minProxyStake ≤ tx.env.alphaStaked (tx.env.hotkey uid)
      whitelisted := s.whitelisted tx.msg.sender
      owner := tx.msg.sender = tx.env.owner }

/-- The log after a successful transaction. -/
def Log.after (log : Log) (tx : Transaction Hash) (s : ValidatorRegistry) : Log :=
  let sender := tx.msg.sender
  let action := seenAction tx s
  match tx.call with
  | .register _ =>
    { last := assign log.last sender action
      registered := assign log.registered sender (action.map Action.uid)
      deactivated := assign log.deactivated sender false }
  | .updateEndpoint _ => { log with last := assign log.last sender action }
  | .reactivate =>
    { log with
      last := assign log.last sender action
      deactivated := assign log.deactivated sender false }
  | .deactivate => { log with deactivated := assign log.deactivated sender true }
  | _ => log

/-- The contract with the log of the calls. -/
structure Tracked where
  state : ValidatorRegistry
  log : Log

variable (keccak256 : Bytes → Hash) (this : Address) (netuid : UInt16)

/-- One transaction, recorded when it is successful. -/
def trackedStep (tx : Transaction Hash) (t : Tracked) : Option Tracked :=
  match t.state.execute keccak256 this netuid tx with
  | .ok state => some ⟨state, t.log.after tx t.state⟩
  | .error _ => some t

/-- The deployed contract, without calls. -/
def trackedDeployed : Tracked := ⟨empty, .initial⟩

/-- A block whose timestamp is not zero as a `uint64`. -/
def PositiveTime {σ : Type} (tx : Transaction Hash) (_ : σ) : Prop := 0 < timestamp64 tx.msg

variable {keccak256 this netuid}

/-- The record has no influence: what the contract reaches is reached with a record. -/
theorem exists_tracked {s : ValidatorRegistry}
    (h : Reachable (step keccak256 this netuid) PositiveTime empty s) :
    ∃ t : Tracked, t.state = s ∧
      Reachable (trackedStep keccak256 this netuid) PositiveTime trackedDeployed t := by
  induction h with
  | refl => exact ⟨_, rfl, .refl⟩
  | @step s s' tx _ hcondition hstep ih =>
    obtain ⟨t, rfl, ht⟩ := ih
    unfold step at hstep
    cases hexecute : t.state.execute keccak256 this netuid tx with
    | ok state =>
      rw [hexecute] at hstep
      refine ⟨⟨state, t.log.after tx t.state⟩, Option.some.inj hstep, .step ht hcondition ?_⟩
      rw [trackedStep, hexecute]
    | error reason =>
      rw [hexecute] at hstep
      exact ⟨t, Option.some.inj hstep, ht⟩

end Tracking

/-! ## The property -/

/-- The list holds exactly the registered validators, each once. -/
def ListExact (s : ValidatorRegistry) : Prop :=
  s.validatorList.Nodup ∧ ∀ a, a ∈ s.validatorList ↔ 0 < (s.validators a).registeredAt

/-- Every proxy validator met `minProxyStake`, or was exempt, at its last validator-checked call. -/
def ProxiesChecked (t : Tracked) (exempt : Action → Prop) : Prop :=
  ∀ entry ∈ t.state.getProxyValidators,
    ∃ action, t.log.last entry.1 = some action ∧ (action.stakeMet = true ∨ exempt action)

/-- The default validator is registered, and active unless it is `excused`. -/
def DefaultRegistered (s : ValidatorRegistry) (excused : Address → Prop) : Prop :=
  s.defaultValidator ≠ 0 → 0 < (s.validators s.defaultValidator).registeredAt ∧
    ((s.validators s.defaultValidator).active = true ∨ excused s.defaultValidator)

/-! ## The invariant -/

/-- The invariant of the storage and the log. -/
structure Consistent (t : Tracked) : Prop where
  nodup : t.state.validatorList.Nodup
  listed : ∀ a, t.state.inList a = true ↔ a ∈ t.state.validatorList
  registered : ∀ a, a ∈ t.state.validatorList ↔ 0 < (t.state.validators a).registeredAt
  /-- An active validator with an endpoint met the stake or was exempt. -/
  checked : ∀ a, (t.state.validators a).active = true →
    0 < (t.state.validators a).proxyEndpoint.length →
    ∃ action, t.log.last a = some action ∧
      (action.stakeMet = true ∨ action.whitelisted = true ∨ action.owner = true)
  uid : ∀ a, 0 < (t.state.validators a).registeredAt →
    t.log.registered a = some (t.state.validators a).uid
  /-- A registered validator is active unless it deactivated itself. -/
  active : ∀ a, 0 < (t.state.validators a).registeredAt →
    (t.state.validators a).active = true ∨ t.log.deactivated a = true
  default : t.state.defaultValidator ≠ 0 →
    0 < (t.state.validators t.state.defaultValidator).registeredAt

theorem seenAction_of_requireStake {Hash : Type} {env : Env Hash} {msg : Msg} {call : Call}
    {s : ValidatorRegistry} {uid : UInt16}
    (huid : s.binding.requireValidator env msg.sender = .ok uid)
    (hstake : s.requireStake env msg.sender uid s.minProxyStake = .ok ()) :
    ∃ action, seenAction ⟨env, msg, call⟩ s = some action ∧
      (action.stakeMet = true ∨ action.whitelisted = true ∨ action.owner = true) := by
  simp only [seenAction, huid, Except.toOption, Option.map_some]
  refine ⟨_, rfl, ?_⟩
  rcases requireStake_eq_ok.mp hstake with hmet | howner | hwhitelisted
  · exact .inl (decide_eq_true hmet)
  · exact .inr (.inr (decide_eq_true howner))
  · exact .inr (.inl hwhitelisted)

namespace Consistent

variable {t : Tracked}

theorem set (h : Consistent t) {a : Address} {v : ValidatorInfo} {log : Log}
    (hregistered : 0 < (t.state.validators a).registeredAt)
    (hkept : v.registeredAt = (t.state.validators a).registeredAt ∧
      v.uid = (t.state.validators a).uid)
    (hlast : ∀ b ≠ a, log.last b = t.log.last b)
    (hlogged : log.registered = t.log.registered)
    (hdeactivated : ∀ b ≠ a, log.deactivated b = t.log.deactivated b)
    (hchecked : v.active = true → 0 < v.proxyEndpoint.length →
      ∃ action, log.last a = some action ∧
        (action.stakeMet = true ∨ action.whitelisted = true ∨ action.owner = true))
    (hactive : v.active = true ∨ log.deactivated a = true) :
    Consistent ⟨t.state.setValidator a v, log⟩ := by
  have hcases : ∀ b, (t.state.setValidator a v).validators b =
      if b = a then v else t.state.validators b := fun b => validators_setValidator t.state a b v
  constructor
  case nodup => exact h.nodup
  case listed => exact h.listed
  case registered =>
    intro b
    rw [hcases]
    split_ifs with hb
    · rw [hkept.1, hb]
      exact h.registered a
    · exact h.registered b
  case checked =>
    intro b
    dsimp only
    rw [hcases]
    split_ifs with hb
    · rw [hb]
      exact hchecked
    · rw [hlast b hb]
      exact h.checked b
  case uid =>
    intro b
    dsimp only
    rw [hcases, hlogged]
    split_ifs with hb
    · rw [hkept.1, hkept.2, hb]
      exact h.uid a
    · exact h.uid b
  case active =>
    intro b
    dsimp only
    rw [hcases]
    split_ifs with hb
    · rw [hb]
      exact fun _ => hactive
    · rw [hdeactivated b hb]
      exact h.active b
  case default =>
    intro hdefault
    dsimp only
    rw [hcases]
    split_ifs
    · rw [hkept.1]
      exact hregistered
    · exact h.default hdefault

variable {Hash : Type} {env : Env Hash} {msg : Msg} {s' : ValidatorRegistry}

theorem register (h : Consistent t) {proxyEndpoint : Bytes} (htime : 0 < timestamp64 msg)
    (hok : t.state.register env msg proxyEndpoint = .ok s') :
    Consistent ⟨s', t.log.after ⟨env, msg, .register proxyEndpoint⟩ t.state⟩ := by
  obtain ⟨uid, huid, hstake, rfl⟩ := register_eq_ok hok
  set registeredAt := if (t.state.validators msg.sender).registeredAt = 0 then timestamp64 msg
    else (t.state.validators msg.sender).registeredAt
  have hpositive : 0 < registeredAt := by
    unfold registeredAt
    split_ifs with hzero
    · exact htime
    · exact Nat.pos_of_ne_zero hzero
  set v : ValidatorInfo := ⟨proxyEndpoint, uid, registeredAt, timestamp64 msg, true⟩
  have hcases : ∀ b, (t.state.setValidator msg.sender v).validators b =
      if b = msg.sender then v else t.state.validators b :=
    fun b => validators_setValidator t.state msg.sender b v
  have hmem : ∀ b, b ∈ (if t.state.inList msg.sender then t.state.validatorList
      else t.state.validatorList ++ [msg.sender]) ↔
      b = msg.sender ∨ b ∈ t.state.validatorList := by
    intro b
    split_ifs with hlist
    · have hsender := (h.listed msg.sender).mp hlist
      exact ⟨.inr, fun hb => hb.elim (fun heq => heq ▸ hsender) id⟩
    · rw [List.mem_append, List.mem_singleton, or_comm]
  constructor
  case nodup =>
    dsimp only
    split_ifs with hlist
    · exact h.nodup
    · have hnot : msg.sender ∉ t.state.validatorList := fun hin =>
        hlist ((h.listed msg.sender).mpr hin)
      rw [List.nodup_append_comm]
      exact List.nodup_cons.mpr ⟨hnot, h.nodup⟩
  case listed =>
    intro b
    rw [hmem, ← h.listed]
    dsimp only
    rw [assign_apply]
    split_ifs with hb
    · simp [hb]
    · simp [hb]
  case registered =>
    intro b
    rw [hmem]
    change _ ↔ 0 < ((t.state.setValidator msg.sender v).validators b).registeredAt
    rw [hcases]
    split_ifs with hb
    · exact ⟨fun _ => hpositive, fun _ => .inl hb⟩
    · rw [h.registered]
      exact ⟨fun hor => hor.resolve_left hb, .inr⟩
  case checked =>
    intro b
    change ((t.state.setValidator msg.sender v).validators b).active = true →
      0 < ((t.state.setValidator msg.sender v).validators b).proxyEndpoint.length →
      ∃ action, assign t.log.last msg.sender _ b = some action ∧ _
    rw [hcases, assign_apply]
    split_ifs with hb
    · intro _ hproxy
      rw [requiredStake, if_pos hproxy] at hstake
      exact seenAction_of_requireStake huid hstake
    · exact h.checked b
  case uid =>
    intro b
    change 0 < ((t.state.setValidator msg.sender v).validators b).registeredAt →
      assign t.log.registered msg.sender _ b =
        some ((t.state.setValidator msg.sender v).validators b).uid
    rw [hcases, assign_apply]
    split_ifs with hb
    · intro _
      simp [seenAction, huid, Except.toOption, v]
    · exact h.uid b
  case active =>
    intro b
    change 0 < ((t.state.setValidator msg.sender v).validators b).registeredAt →
      ((t.state.setValidator msg.sender v).validators b).active = true ∨
        assign t.log.deactivated msg.sender false b = true
    rw [hcases, assign_apply]
    split_ifs with hb
    · exact fun _ => .inl rfl
    · exact h.active b
  case default =>
    intro hdefault
    change 0 < ((t.state.setValidator msg.sender v).validators
      t.state.defaultValidator).registeredAt
    rw [hcases]
    split_ifs
    · exact hpositive
    · exact h.default hdefault

theorem updateEndpoint (h : Consistent t) {newEndpoint : Bytes}
    (hok : t.state.updateEndpoint env msg newEndpoint = .ok s') :
    Consistent ⟨s', t.log.after ⟨env, msg, .updateEndpoint newEndpoint⟩ t.state⟩ := by
  obtain ⟨uid, huid, hregistered, hstake, rfl⟩ := updateEndpoint_eq_ok hok
  refine h.set hregistered ⟨rfl, rfl⟩ (fun b hb => assign_of_ne _ _ hb) rfl (fun _ _ => rfl)
    (fun _ hproxy => ?_) (h.active _ hregistered)
  obtain ⟨action, haction, hmet⟩ := seenAction_of_requireStake huid (hstake hproxy)
  exact ⟨action, (assign_self _ _ _).trans haction, hmet⟩

theorem deactivate (h : Consistent t) (hok : t.state.deactivate msg = .ok s') :
    Consistent ⟨s', t.log.after ⟨env, msg, .deactivate⟩ t.state⟩ := by
  obtain ⟨hregistered, rfl⟩ := deactivate_eq_ok hok
  exact h.set hregistered ⟨rfl, rfl⟩ (fun _ _ => rfl) rfl (fun b hb => assign_of_ne _ _ hb)
    (fun hfalse => absurd hfalse (by simp)) (.inr (assign_self _ _ _))

theorem reactivate (h : Consistent t) (hok : t.state.reactivate env msg = .ok s') :
    Consistent ⟨s', t.log.after ⟨env, msg, .reactivate⟩ t.state⟩ := by
  obtain ⟨uid, huid, hregistered, hstake, rfl⟩ := reactivate_eq_ok hok
  refine h.set hregistered ⟨rfl, rfl⟩ (fun b hb => assign_of_ne _ _ hb) rfl
    (fun b hb => assign_of_ne _ _ hb) (fun _ hproxy => ?_) (.inl rfl)
  rw [requiredStake, if_pos hproxy] at hstake
  obtain ⟨action, haction, hmet⟩ := seenAction_of_requireStake huid hstake
  exact ⟨action, (assign_self _ _ _).trans haction, hmet⟩

theorem frame (h : Consistent t) {s : ValidatorRegistry}
    (hvalidators : s.validators = t.state.validators)
    (hlist : s.validatorList = t.state.validatorList) (hin : s.inList = t.state.inList)
    (hdefault : s.defaultValidator ≠ 0 → 0 < (s.validators s.defaultValidator).registeredAt) :
    Consistent ⟨s, t.log⟩ := by
  constructor
  case nodup => exact hlist ▸ h.nodup
  case listed => exact fun a => hin ▸ hlist ▸ h.listed a
  case registered => exact fun a => hvalidators ▸ hlist ▸ h.registered a
  case checked => exact fun a => hvalidators ▸ h.checked a
  case uid => exact fun a => hvalidators ▸ h.uid a
  case active => exact fun a => hvalidators ▸ h.active a
  case default => exact hdefault

variable {keccak256 : Bytes → Hash} {this : Address} {netuid : UInt16} {tx : Transaction Hash}

theorem step {t' : Tracked} (h : Consistent t) (htime : PositiveTime tx t)
    (hstep : trackedStep keccak256 this netuid tx t = some t') : Consistent t' := by
  unfold trackedStep at hstep
  cases hok : t.state.execute keccak256 this netuid tx with
  | error reason =>
    rw [hok] at hstep
    obtain rfl := Option.some.inj hstep
    exact h
  | ok s' =>
    rw [hok] at hstep
    obtain rfl := Option.some.inj hstep
    rcases tx with ⟨env, msg, call⟩
    cases call with
    | registerEvm uid sigR sigS =>
      simp only [execute, bind_eq_ok, pure_eq_ok] at hok
      obtain ⟨binding, -, rfl⟩ := hok
      exact h.frame rfl rfl rfl h.default
    | resetEvmRegistration uid =>
      simp only [execute, bind_eq_ok, pure_eq_ok] at hok
      obtain ⟨binding, -, rfl⟩ := hok
      exact h.frame rfl rfl rfl h.default
    | register proxyEndpoint => exact h.register htime hok
    | updateEndpoint newEndpoint => exact h.updateEndpoint hok
    | deactivate => exact h.deactivate hok
    | reactivate => exact h.reactivate hok
    | setDefaultValidator validator =>
      obtain ⟨hregistered, -, rfl⟩ := setDefaultValidator_eq_ok hok
      exact h.frame rfl rfl rfl fun _ => hregistered
    | setMinValidatorStake amount =>
      simp only [execute, setMinValidatorStake, bind_eq_ok, pure_eq_ok] at hok
      obtain ⟨-, -, rfl⟩ := hok
      exact h.frame rfl rfl rfl h.default
    | setMinProxyStake amount =>
      simp only [execute, setMinProxyStake, bind_eq_ok, pure_eq_ok] at hok
      obtain ⟨-, -, rfl⟩ := hok
      exact h.frame rfl rfl rfl h.default
    | setWhitelisted addr status =>
      simp only [execute, setWhitelisted, bind_eq_ok, pure_eq_ok] at hok
      obtain ⟨-, -, rfl⟩ := hok
      exact h.frame rfl rfl rfl h.default

end Consistent

/-! ## Runs -/

/-- The stored UIDs of the validators are given by the log. -/
def UidsResolved (t : Tracked) (resolved : Address → Option UInt16) : Prop :=
  ∀ a ∈ t.state.validatorList, (t.state.validators a).active = true →
    resolved a = some (t.state.validators a).uid

section Runs

variable {Hash : Type} {keccak256 : Bytes → Hash} {this : Address} {netuid : UInt16}

theorem consistent_of_reachable {t : Tracked}
    (hreach : Reachable (trackedStep keccak256 this netuid) PositiveTime trackedDeployed t) :
    Consistent t := by
  refine hreach.invariant (I := Consistent) ?_ fun _ _ _ h htime hstep => h.step htime hstep
  constructor
  case nodup => exact List.nodup_nil
  case listed => simp [trackedDeployed, empty]
  case registered => simp [trackedDeployed, empty]
  case checked => simp [trackedDeployed, empty]
  case uid => simp [trackedDeployed, empty]
  case active => simp [trackedDeployed, empty]
  case default => simp [trackedDeployed, empty]

end Runs

/-- A call at time 1 while address 9 is the owner and every address resolves to the UID, whose hotkey
has no stake. -/
def callWithUid (sender : Address) (hsender : sender ≠ 0) (uid : UInt16) (call : Call) :
    Transaction Bytes where
  env := { Env.permissive with owner := 9, uidLookup := fun _ => some [uid] }
  msg := ⟨sender, 1, hsender⟩
  call := call

/-- The owner sets a stake for proxies and registers a proxy without stake. -/
def ownerProxyRun : List (Transaction Bytes) :=
  [callWithUid 9 sender_nine 1 (.setMinProxyStake 5), callWithUid 9 sender_nine 1 (.register [104])]

/-- A validator registers, and updates its endpoint after it has moved to another UID. -/
def staleUidRun : List (Transaction Bytes) :=
  [callWithUid 7 sender_seven 1 (.register []), callWithUid 7 sender_seven 2 (.updateEndpoint [])]

/-- The default validator deactivates itself. -/
def inactiveDefaultRun : List (Transaction Bytes) :=
  [callWithUid 7 sender_seven 1 (.register []),
    callWithUid 9 sender_nine 1 (.setDefaultValidator 7), callWithUid 7 sender_seven 1 .deactivate]

end Verathos.Contracts.ValidatorRegistry
