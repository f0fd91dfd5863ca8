import Verathos.Contracts.Gateway

/-!
# PaymentGateway

A translation of `PaymentGateway.sol`: deposits that are split between the treasury and the stake, and
the owner's administration. A world is the storage with the balance of the contract and what it has
sent: the payments to treasuries, the stakes, and the deposits that went through.

The treasury is an arbitrary contract. During its call it may call the gateway again, with any
transactions in any number and depth; they are part of the transaction (`Transaction.deposit`), and
`execute` runs them on the storage of that moment. The staking precompile only answers.

- Every deposit is split into a payment of at most 20%, a stake in whole RAO and a dust of less than
  one RAO, and the totals of the users are the sum of these (`deposits_conserved`).
- While a deposit runs, nothing is deposited, paid or staked by other calls (`executeAll_of_entered`).
-/

namespace Verathos.Contracts

/-- The storage of `PaymentGateway`. The address of the precompile is left out. -/
structure PaymentGateway where
  owner : Address
  netuid : UInt16
  ownerTreasury : Address
  ownerCutBps : ℕ
  totalDeposited : Address → ℕ
  emergencyAnnouncedAt : ℕ
  entered : Bool

/-- A deposit that went through. -/
structure Deposit where
  user : Address
  validatorHotkey : Digest
  value : ℕ
  ownerCut : ℕ
  stakeRao : ℕ
deriving DecidableEq

/-- The wei of a deposit that are neither sent to the treasury nor staked. -/
def Deposit.dust (d : Deposit) : ℕ := d.value - d.ownerCut - 10 ^ 9 * d.stakeRao

namespace PaymentGateway

/-- `MAX_OWNER_CUT_BPS`: 20%. -/
def maxOwnerCutBps : ℕ := 2000

/-- `EMERGENCY_TIMELOCK`: 7 days. -/
def emergencyTimelock : ℕ := 7 * 24 * 3600

/-- The storage of the gateway, and what it has sent and received. -/
structure World where
  state : PaymentGateway
  balance : ℕ
  payments : List (Address × ℕ)
  stakes : List (Digest × ℕ × UInt16)
  deposits : List Deposit
  received : ℕ

/-- `initialize`. -/
def initializeGateway (sender : Address) (netuid : UInt16) (ownerTreasury : Address) (ownerCutBps : ℕ) :
    Tx PaymentGateway := do
  require (ownerTreasury ≠ 0) "Zero treasury"
  require (ownerCutBps ≤ maxOwnerCutBps) "Cut too high"
  return ⟨sender, netuid, ownerTreasury, ownerCutBps, fun _ => 0, 0, false⟩

/-- The gateway after its initialization, with the wei that its address already had. -/
def deployed (s : PaymentGateway) (balance : ℕ) : World := ⟨s, balance, [], [], [], balance⟩

/-! ## Administration -/

/-- The calls of the owner. -/
inductive AdminCall where
  | setOwnerCut (newBps : ℕ)
  | setTreasury (newTreasury : Address)
  | transferOwnership (newOwner : Address)
  | announceEmergencyWithdraw
  /-- `executeEmergencyWithdraw`, with the wei that `removeStake` credits; `none` when it reverts. -/
  | executeEmergencyWithdraw (hotkey : Digest) (amount : ℕ) (credited : Option ℕ)
  | cancelEmergencyWithdraw

/-- Wei that come in without a deposit: `receive`, or the proceeds of unstaking. -/
def World.credit (w : World) (amount : ℕ) : World :=
  { w with balance := w.balance + amount, received := w.received + amount }

def World.removeStake (w : World) (credited : Option ℕ) : Tx World :=
  match credited with
  | some amount => .ok (w.credit amount)
  | none => .error "removeStake failed"

/-- The world with another storage. -/
def World.setState (w : World) (s : PaymentGateway) : World := { w with state := s }

/-- A call of the owner. -/
def admin (sender : Address) (timestamp : ℕ) (call : AdminCall) (w : World) : Tx World := do
  let s := w.state
  require (sender = s.owner) "OwnableUnauthorizedAccount"
  match call with
  | .setOwnerCut newBps => do
    require (newBps ≤ maxOwnerCutBps) "Cut too high"
    return w.setState { s with ownerCutBps := newBps }
  | .setTreasury newTreasury => do
    require (newTreasury ≠ 0) "Zero treasury"
    return w.setState { s with ownerTreasury := newTreasury }
  | .transferOwnership newOwner => do
    require (newOwner ≠ 0) "OwnableInvalidOwner"
    return w.setState { s with owner := newOwner }
  | .announceEmergencyWithdraw => return w.setState { s with emergencyAnnouncedAt := timestamp }
  | .executeEmergencyWithdraw _ _ credited => do
    require (0 < s.emergencyAnnouncedAt) "Not announced"
    require (s.emergencyAnnouncedAt + emergencyTimelock ≤ timestamp) "Timelock not expired"
    let w ← w.removeStake credited
    return w.setState { s with emergencyAnnouncedAt := 0 }
  | .cancelEmergencyWithdraw => return w.setState { s with emergencyAnnouncedAt := 0 }

/-! ## Transactions -/

/-- A transaction, with what it does during external calls. -/
inductive Transaction where
  | admin (sender : Address) (timestamp : ℕ) (call : AdminCall)
  | receive (value : ℕ)
  /-- `deposit`: its sender and arguments, the transactions that the treasury makes during its call,
  and whether the call of the treasury and `addStake` succeed. -/
  | deposit (sender : Address) (validatorHotkey : Digest) (value : ℕ) (nested : List Transaction)
      (sent staked : Bool)

/-- `totalDeposited[msg.sender] += msg.value`, and the wei of the call. -/
def World.count (w : World) (sender : Address) (value total : ℕ) : World :=
  { w with
    state := { w.state with
      totalDeposited := assign w.state.totalDeposited sender total
      entered := true }
    balance := w.balance + value }

/-- `payable(ownerTreasury).call{value: ownerCut}("")`, before the code of the treasury runs. -/
def World.pay (w : World) (ownerCut : ℕ) : World :=
  { w with
    balance := w.balance - ownerCut
    payments := w.payments ++ [(w.state.ownerTreasury, ownerCut)] }

/-- `STAKING.addStake`. The precompile takes the stake from the balance. -/
def World.stake (w : World) (validatorHotkey : Digest) (stakeRao : ℕ) : World :=
  { w with
    balance := w.balance - 10 ^ 9 * stakeRao
    stakes := w.stakes ++ [(validatorHotkey, stakeRao, w.state.netuid)] }

/-- The end of a deposit. -/
def World.finish (w : World) (d : Deposit) : World :=
  { w with
    state := { w.state with entered := false }
    deposits := w.deposits ++ [d] }

mutual

/-- The execution of a transaction. -/
def execute : Transaction → World → Tx World
  | .admin sender timestamp call, w => admin sender timestamp call w
  | .receive value, w => .ok (w.credit value)
  | .deposit sender validatorHotkey value nested sent staked, w => do
    require (w.state.entered = false) "ReentrancyGuardReentrantCall"
    require (0 < value) "Zero deposit"
    let product ← Gateway.checked256 (value * w.state.ownerCutBps)
    let ownerCut := product / 10000
    require (ownerCut ≤ value) "Panic(0x11)"
    let stakeCut := value - ownerCut
    let total ← Gateway.checked256 (w.state.totalDeposited sender + value)
    let w := w.count sender value total
    let w ← (if 0 < ownerCut then do
        let w := executeAll nested (w.pay ownerCut)
        require sent "Treasury transfer failed"
        return w
      else return w)
    if 0 < stakeCut then
      let stakeRao := stakeCut / 10 ^ 9
      require (0 < stakeRao) "Stake amount too small"
      require staked "addStake failed"
      let w := w.stake validatorHotkey stakeRao
      return w.finish ⟨sender, validatorHotkey, value, ownerCut, stakeRao⟩
    else return w.finish ⟨sender, validatorHotkey, value, ownerCut, 0⟩

/-- The execution of transactions one after the other. A reverted one changes nothing. -/
def executeAll : List Transaction → World → World
  | [], w => w
  | tx :: rest, w => executeAll rest ((execute tx w).toOption.getD w)

end

/-- One transaction. A reverted one changes nothing. -/
def step (tx : Transaction) (w : World) : World := (execute tx w).toOption.getD w

/-! ## Calls during a deposit -/

/-- Nothing is deposited, paid or staked, and the guard keeps its status; wei may come in. -/
structure Undisturbed (w w' : World) : Prop where
  entered : w'.state.entered = w.state.entered
  cut_le : w.state.ownerCutBps ≤ maxOwnerCutBps → w'.state.ownerCutBps ≤ maxOwnerCutBps
  totalDeposited : w'.state.totalDeposited = w.state.totalDeposited
  payments : w'.payments = w.payments
  stakes : w'.stakes = w.stakes
  deposits : w'.deposits = w.deposits
  received_le : w.received ≤ w'.received
  balance : w'.balance + w.received = w.balance + w'.received

theorem Undisturbed.refl (w : World) : Undisturbed w w :=
  ⟨rfl, id, rfl, rfl, rfl, rfl, le_rfl, rfl⟩

theorem Undisturbed.trans {w w₁ w₂ : World} (h : Undisturbed w w₁) (h' : Undisturbed w₁ w₂) :
    Undisturbed w w₂ where
  entered := h'.entered.trans h.entered
  cut_le := h'.cut_le ∘ h.cut_le
  totalDeposited := h'.totalDeposited.trans h.totalDeposited
  payments := h'.payments.trans h.payments
  stakes := h'.stakes.trans h.stakes
  deposits := h'.deposits.trans h.deposits
  received_le := h.received_le.trans h'.received_le
  balance := by
    have := h.balance
    have := h'.balance
    omega

theorem undisturbed_credit (w : World) (amount : ℕ) : Undisturbed w (w.credit amount) where
  entered := rfl
  cut_le := id
  totalDeposited := rfl
  payments := rfl
  stakes := rfl
  deposits := rfl
  received_le := Nat.le_add_right _ _
  balance := by
    simp only [World.credit]
    omega

theorem undisturbed_setState (w : World) {s : PaymentGateway}
    (hentered : s.entered = w.state.entered) (htotal : s.totalDeposited = w.state.totalDeposited)
    (hcut : w.state.ownerCutBps ≤ maxOwnerCutBps → s.ownerCutBps ≤ maxOwnerCutBps) :
    Undisturbed w (w.setState s) :=
  ⟨hentered, hcut, htotal, rfl, rfl, rfl, le_rfl, rfl⟩

variable {sender : Address} {w' : World}

theorem undisturbed_admin {timestamp : ℕ} {call : AdminCall} {w : World}
    (h : admin sender timestamp call w = .ok w') : Undisturbed w w' := by
  cases call with
  | setOwnerCut newBps =>
    simp only [admin, bind_eq_ok, require_eq_ok, pure_eq_ok] at h
    obtain ⟨-, -, -, hcap, rfl⟩ := h
    exact undisturbed_setState w rfl rfl fun _ => hcap
  | setTreasury newTreasury =>
    simp only [admin, bind_eq_ok, require_eq_ok, pure_eq_ok] at h
    obtain ⟨-, -, -, -, rfl⟩ := h
    exact undisturbed_setState w rfl rfl id
  | transferOwnership newOwner =>
    simp only [admin, bind_eq_ok, require_eq_ok, pure_eq_ok] at h
    obtain ⟨-, -, -, -, rfl⟩ := h
    exact undisturbed_setState w rfl rfl id
  | announceEmergencyWithdraw =>
    simp only [admin, bind_eq_ok, require_eq_ok, pure_eq_ok] at h
    obtain ⟨-, -, rfl⟩ := h
    exact undisturbed_setState w rfl rfl id
  | executeEmergencyWithdraw hotkey amount credited =>
    simp only [admin, bind_eq_ok, require_eq_ok, pure_eq_ok] at h
    obtain ⟨-, -, -, -, -, -, w₁, hremove, rfl⟩ := h
    cases credited with
    | none => cases hremove
    | some credited =>
      obtain rfl := Except.ok.inj hremove
      exact (undisturbed_credit w credited).trans (undisturbed_setState _ rfl rfl id)
  | cancelEmergencyWithdraw =>
    simp only [admin, bind_eq_ok, require_eq_ok, pure_eq_ok] at h
    obtain ⟨-, -, rfl⟩ := h
    exact undisturbed_setState w rfl rfl id

variable {validatorHotkey : Digest} {value : ℕ} {nested : List Transaction} {sent : Bool}

theorem execute_deposit_of_entered {staked : Bool} {w : World} (hentered : w.state.entered = true) :
    execute (.deposit sender validatorHotkey value nested sent staked) w =
      .error "ReentrancyGuardReentrantCall" := by
  rw [execute, require, if_neg (by simp [hentered])]
  rfl

theorem undisturbed_execute {tx : Transaction} {w : World} (hentered : w.state.entered = true)
    (h : execute tx w = .ok w') : Undisturbed w w' := by
  cases tx with
  | admin sender timestamp call =>
    rw [execute] at h
    exact undisturbed_admin h
  | receive value =>
    rw [execute] at h
    obtain rfl := Except.ok.inj h
    exact undisturbed_credit w value
  | deposit sender validatorHotkey value nested sent staked =>
    rw [execute_deposit_of_entered hentered] at h
    cases h

theorem executeAll_of_entered (txs : List Transaction) {w : World}
    (hentered : w.state.entered = true) : Undisturbed w (executeAll txs w) := by
  induction txs generalizing w with
  | nil =>
    rw [executeAll]
    exact .refl w
  | cons tx rest ih =>
    rw [executeAll]
    cases hexecute : execute tx w with
    | error e => exact ih hentered
    | ok w' =>
      have hstep := undisturbed_execute hentered hexecute
      exact hstep.trans (ih (hstep.entered.trans hentered))

/-! ## Deposits -/

/-- A deposit is split into a cut of at most 20%, a stake in RAO and less than one RAO of dust. -/
structure IsSplit (d : Deposit) : Prop where
  value : d.value = d.ownerCut + 10 ^ 9 * d.stakeRao + d.dust
  dust_lt : d.dust < 10 ^ 9
  ownerCut_le : 5 * d.ownerCut ≤ d.value
  stakeRao_pos : 0 < d.stakeRao

theorem ownerCut_le {bps : ℕ} (hcap : bps ≤ maxOwnerCutBps) :
    5 * (value * bps / 10000) ≤ value := by
  have hdiv : value * bps / 10000 * 10000 ≤ value * bps := Nat.div_mul_le_self _ _
  have hbps : value * bps ≤ value * 2000 := Nat.mul_le_mul_left value hcap
  omega

theorem isSplit_of_stake {user : Address} {ownerCut : ℕ} (hcut : 5 * ownerCut ≤ value)
    (hstake : 0 < (value - ownerCut) / 10 ^ 9) :
    IsSplit ⟨user, validatorHotkey, value, ownerCut, (value - ownerCut) / 10 ^ 9⟩ := by
  have hdiv := Nat.div_add_mod (value - ownerCut) (10 ^ 9)
  have hmod := Nat.mod_lt (value - ownerCut) (show 0 < 10 ^ 9 by decide)
  refine ⟨?_, ?_, hcut, hstake⟩
  · simp only [Deposit.dust]
    omega
  · simp only [Deposit.dust]
    omega

/-- The world after the payment, if there is one. -/
def World.paid (w : World) (ownerCut : ℕ) : World := if 0 < ownerCut then w.pay ownerCut else w

section Paid

variable (w : World) (ownerCut : ℕ)

@[simp]
theorem state_paid : (w.paid ownerCut).state = w.state := by
  unfold World.paid
  split_ifs <;> rfl

@[simp]
theorem payments_paid : (w.paid ownerCut).payments =
    w.payments ++ (if 0 < ownerCut then [(w.state.ownerTreasury, ownerCut)] else []) := by
  unfold World.paid
  split_ifs <;> simp [World.pay]

@[simp]
theorem stakes_paid : (w.paid ownerCut).stakes = w.stakes := by
  unfold World.paid
  split_ifs <;> rfl

@[simp]
theorem deposits_paid : (w.paid ownerCut).deposits = w.deposits := by
  unfold World.paid
  split_ifs <;> rfl

@[simp]
theorem received_paid : (w.paid ownerCut).received = w.received := by
  unfold World.paid
  split_ifs <;> rfl

@[simp]
theorem balance_paid : (w.paid ownerCut).balance = w.balance - ownerCut := by
  unfold World.paid
  split_ifs with h
  · rfl
  · omega

end Paid

theorem undisturbed_paid {w w₁ : World} {ownerCut : ℕ} (hentered : w.state.entered = true)
    (h : (if 0 < ownerCut then do
        let w := executeAll nested (w.pay ownerCut)
        require sent "Treasury transfer failed"
        return w
      else return w : Tx World) = .ok w₁) : Undisturbed (w.paid ownerCut) w₁ := by
  unfold World.paid
  split_ifs at h ⊢ with hpos
  · simp only [bind_eq_ok, require_eq_ok, pure_eq_ok] at h
    obtain ⟨-, -, rfl⟩ := h
    exact executeAll_of_entered nested hentered
  · obtain rfl := pure_eq_ok.mp h
    exact .refl _

/-- A deposit counts its value once, pays the cut and stakes the rest. -/
structure Deposited (w w' : World) (d : Deposit) : Prop where
  isSplit : IsSplit d
  entered : w'.state.entered = false
  cut_le : w'.state.ownerCutBps ≤ maxOwnerCutBps
  totalDeposited : w'.state.totalDeposited =
    assign w.state.totalDeposited d.user (w.state.totalDeposited d.user + d.value)
  payments : w'.payments =
    w.payments ++ (if 0 < d.ownerCut then [(w.state.ownerTreasury, d.ownerCut)] else [])
  stakes : ∃ netuid, w'.stakes = w.stakes ++ [(d.validatorHotkey, d.stakeRao, netuid)]
  deposits : w'.deposits = w.deposits ++ [d]
  balance : w'.balance + w.received = w.balance + d.dust + w'.received

theorem execute_deposit_eq_ok {staked : Bool} {w : World}
    (hcap : w.state.ownerCutBps ≤ maxOwnerCutBps)
    (h : execute (.deposit sender validatorHotkey value nested sent staked) w = .ok w') :
    ∃ d : Deposit, (d.user = sender ∧ d.validatorHotkey = validatorHotkey ∧ d.value = value) ∧
      Deposited w w' d := by
  simp only [execute, Gateway.checked256, bind_eq_ok, require_eq_ok, pure_eq_ok] at h
  obtain ⟨-, -, -, hvalue, _, ⟨-, -, rfl⟩, -, -, _, ⟨-, -, rfl⟩, w₁, hpay, h⟩ := h
  have hcut : 5 * (value * w.state.ownerCutBps / 10000) ≤ value := ownerCut_le hcap
  have hsame := undisturbed_paid rfl hpay
  generalize value * w.state.ownerCutBps / 10000 = ownerCut at hcut hsame h
  rw [if_pos (show 0 < value - ownerCut by omega)] at h
  simp only [bind_eq_ok, require_eq_ok, pure_eq_ok] at h
  obtain ⟨-, hstake, -, -, rfl⟩ := h
  have hsplit : IsSplit ⟨sender, validatorHotkey, value, ownerCut, (value - ownerCut) / 10 ^ 9⟩ :=
    isSplit_of_stake hcut hstake
  refine ⟨_, ⟨rfl, rfl, rfl⟩, hsplit, rfl, ?_, ?_, ?_, ⟨w₁.state.netuid, ?_⟩, ?_, ?_⟩
  · refine hsame.cut_le ?_
    rw [state_paid]
    exact hcap
  · have htotal := hsame.totalDeposited
    rw [state_paid] at htotal
    exact htotal
  · have hpayments := hsame.payments
    rw [payments_paid] at hpayments
    exact hpayments
  · have hstakes := hsame.stakes
    rw [stakes_paid] at hstakes
    exact congrArg (· ++ _) hstakes
  · have hdeposits := hsame.deposits
    rw [deposits_paid] at hdeposits
    exact congrArg (· ++ _) hdeposits
  · have hbalance := hsame.balance
    have hreceived := hsame.received_le
    rw [balance_paid, received_paid] at hbalance
    rw [received_paid] at hreceived
    have hparts := hsplit.value
    simp only [World.count] at hbalance hreceived
    simp only [World.finish, World.stake] at hparts ⊢
    omega

/-! ## Histories -/

/-- The accounts of a world that is not in a deposit. -/
structure Accounted (w : World) : Prop where
  entered : w.state.entered = false
  cut_le : w.state.ownerCutBps ≤ maxOwnerCutBps
  isSplit : ∀ d ∈ w.deposits, IsSplit d
  totalDeposited : ∀ a, w.state.totalDeposited a =
    ((w.deposits.filter (·.user = a)).map Deposit.value).sum
  payments : (w.payments.map Prod.snd).sum = (w.deposits.map Deposit.ownerCut).sum
  /-- What is staked is the stakes of the deposits, in their order. -/
  stakes : (w.stakes.map fun stake => (stake.1, stake.2.1)) =
    w.deposits.map fun d => (d.validatorHotkey, d.stakeRao)
  /-- The balance is the dust and what came in otherwise. -/
  balance : w.balance = (w.deposits.map Deposit.dust).sum + w.received

theorem Accounted.undisturbed {w : World} (h : Accounted w) (hsame : Undisturbed w w') :
    Accounted w' where
  entered := hsame.entered.trans h.entered
  cut_le := hsame.cut_le h.cut_le
  isSplit := by
    rw [hsame.deposits]
    exact h.isSplit
  totalDeposited := by
    rw [hsame.totalDeposited, hsame.deposits]
    exact h.totalDeposited
  payments := by
    rw [hsame.payments, hsame.deposits]
    exact h.payments
  stakes := by
    rw [hsame.stakes, hsame.deposits]
    exact h.stakes
  balance := by
    rw [hsame.deposits]
    have := h.balance
    have := hsame.balance
    omega

theorem Accounted.deposited {w : World} {d : Deposit} (h : Accounted w)
    (hdeposit : Deposited w w' d) : Accounted w' where
  entered := hdeposit.entered
  cut_le := hdeposit.cut_le
  isSplit := by
    rw [hdeposit.deposits]
    intro d' hd'
    rcases List.mem_append.mp hd' with hold | hnew
    · exact h.isSplit d' hold
    · rw [List.mem_singleton.mp hnew]
      exact hdeposit.isSplit
  totalDeposited := by
    intro a
    rw [hdeposit.totalDeposited, hdeposit.deposits, List.filter_append, List.map_append,
      List.sum_append, ← h.totalDeposited, assign_apply]
    split_ifs with ha
    · simp [ha]
    · simp [Ne.symm ha]
  payments := by
    rw [hdeposit.payments, hdeposit.deposits, List.map_append, List.sum_append, h.payments,
      List.map_append, List.sum_append]
    split_ifs with hpos
    · simp
    · simp only [List.map_nil, List.map_cons, List.sum_nil, List.sum_cons]
      omega
  stakes := by
    obtain ⟨netuid, hstakes⟩ := hdeposit.stakes
    rw [hstakes, hdeposit.deposits, List.map_append, List.map_append, h.stakes]
    rfl
  balance := by
    rw [hdeposit.deposits, List.map_append, List.sum_append]
    have := h.balance
    have := hdeposit.balance
    simp only [List.map_cons, List.map_nil, List.sum_cons, List.sum_nil]
    omega

theorem Accounted.execute {tx : Transaction} {w : World} (h : Accounted w)
    (hexecute : execute tx w = .ok w') : Accounted w' := by
  cases tx with
  | admin sender timestamp call =>
    rw [PaymentGateway.execute] at hexecute
    exact h.undisturbed (undisturbed_admin hexecute)
  | receive value =>
    rw [PaymentGateway.execute] at hexecute
    obtain rfl := Except.ok.inj hexecute
    exact h.undisturbed (undisturbed_credit w value)
  | deposit sender validatorHotkey value nested sent staked =>
    obtain ⟨d, -, hdeposit⟩ := execute_deposit_eq_ok h.cut_le hexecute
    exact h.deposited hdeposit

theorem Accounted.executeAll (txs : List Transaction) {w : World} (h : Accounted w) :
    Accounted (executeAll txs w) := by
  induction txs generalizing w with
  | nil =>
    rw [PaymentGateway.executeAll]
    exact h
  | cons tx rest ih =>
    rw [PaymentGateway.executeAll]
    cases hexecute : PaymentGateway.execute tx w with
    | error e => exact ih h
    | ok w' => exact ih (h.execute hexecute)

theorem accounted_deployed {ownerTreasury : Address} {netuid : UInt16} {ownerCutBps : ℕ}
    {s : PaymentGateway} (h : initializeGateway sender netuid ownerTreasury ownerCutBps = .ok s)
    (balance : ℕ) : Accounted (deployed s balance) := by
  simp only [initializeGateway, bind_eq_ok, require_eq_ok, pure_eq_ok] at h
  obtain ⟨-, -, -, hcap, rfl⟩ := h
  refine ⟨rfl, hcap, ?_, ?_, rfl, rfl, ?_⟩ <;> simp [deployed]

theorem sum_filter_user (deposits : List Deposit) :
    ∑ a : Address, ((deposits.filter (·.user = a)).map Deposit.value).sum =
      (deposits.map Deposit.value).sum := by
  induction deposits with
  | nil => simp
  | cons d deposits ih =>
    have hcons : ∀ a : Address, (((d :: deposits).filter (·.user = a)).map Deposit.value).sum =
        (if d.user = a then d.value else 0) +
          ((deposits.filter (·.user = a)).map Deposit.value).sum := by
      intro a
      by_cases ha : d.user = a <;> simp [ha]
    rw [Finset.sum_congr rfl fun a _ => hcons a, Finset.sum_add_distrib, ih,
      Finset.sum_ite_eq Finset.univ d.user fun _ => d.value, if_pos (Finset.mem_univ _),
      List.map_cons, List.sum_cons]

theorem sum_value {deposits : List Deposit} (h : ∀ d ∈ deposits, IsSplit d) :
    (deposits.map Deposit.value).sum = (deposits.map Deposit.ownerCut).sum +
      10 ^ 9 * (deposits.map Deposit.stakeRao).sum + (deposits.map Deposit.dust).sum := by
  induction deposits with
  | nil => rfl
  | cons d deposits ih =>
    obtain ⟨hd, hrest⟩ := List.forall_mem_cons.mp h
    simp only [List.map_cons, List.sum_cons, ih hrest]
    have := hd.value
    omega

/-- Deposit conservation. After every history of transactions, what all users deposited is what the
treasuries were paid, the staked RAO and the dust, and the dust is what stays on the balance. Every
deposit is split into a cut of at most 20%, a stake and less than one RAO of dust, and it is staked
once and counted once for its user. A reverted transaction changes nothing. During the call of the
treasury other deposits revert, and a successful deposit makes one deposit and one stake. -/
theorem deposits_conserved {sender ownerTreasury : Address} {netuid : UInt16} {ownerCutBps : ℕ}
    {s : PaymentGateway} (h : initializeGateway sender netuid ownerTreasury ownerCutBps = .ok s)
    (balance : ℕ) (txs : List Transaction) :
    let w := executeAll txs (deployed s balance)
    (∑ a, w.state.totalDeposited a = (w.payments.map Prod.snd).sum +
        10 ^ 9 * (w.stakes.map fun stake => stake.2.1).sum + (w.deposits.map Deposit.dust).sum ∧
      w.balance = (w.deposits.map Deposit.dust).sum + w.received) ∧
    (∀ d ∈ w.deposits, IsSplit d) ∧
    (∀ a, w.state.totalDeposited a = ((w.deposits.filter (·.user = a)).map Deposit.value).sum) ∧
    ((w.stakes.map fun stake => (stake.1, stake.2.1)) =
      w.deposits.map fun d => (d.validatorHotkey, d.stakeRao)) ∧
    (∀ tx error, execute tx w = .error error → step tx w = w) ∧
    ∀ user validatorHotkey value nested sent staked w',
      execute (.deposit user validatorHotkey value nested sent staked) w = .ok w' →
        (∃ d : Deposit, (d.user = user ∧ d.validatorHotkey = validatorHotkey ∧ d.value = value) ∧
          Deposited w w' d) ∧
        ∀ w₁ : World, w₁.state.entered = true → ∀ inner,
          (∀ user validatorHotkey value nested sent staked,
            execute (.deposit user validatorHotkey value nested sent staked) w₁ =
              .error "ReentrancyGuardReentrantCall") ∧ Undisturbed w₁ (executeAll inner w₁) := by
  intro w
  have hw : Accounted w := (accounted_deployed h balance).executeAll txs
  refine ⟨⟨?_, hw.balance⟩, hw.isSplit, hw.totalDeposited, hw.stakes, ?_, ?_⟩
  · have hstakes : (w.stakes.map fun stake => stake.2.1) = w.deposits.map Deposit.stakeRao := by
      have hsecond := congrArg (List.map Prod.snd) hw.stakes
      rw [List.map_map, List.map_map] at hsecond
      exact hsecond
    rw [Finset.sum_congr rfl fun a _ => hw.totalDeposited a, sum_filter_user, sum_value hw.isSplit,
      hw.payments, hstakes]
  · intro tx error herror
    rw [step, herror]
    rfl
  · intro user validatorHotkey value nested sent staked w' hexecute
    refine ⟨execute_deposit_eq_ok hw.cut_le hexecute, fun w₁ hentered inner => ⟨?_, ?_⟩⟩
    · intro _ _ _ _ _ _
      exact execute_deposit_of_entered hentered
    · exact executeAll_of_entered inner hentered

/-- A gateway with a cut of 10%. -/
def sampleGateway : PaymentGateway := ⟨9, 96, 5, 1000, fun _ => 0, 0, false⟩

/-- A deposit during which the treasury makes a deposit of its own, and a change of the cut. -/
def reentrantRun : List Transaction :=
  [.deposit 7 Digest.zero 3000000005 [.deposit 5 Digest.zero 4000000000 [] true true] true true,
    .admin 9 1 (.setOwnerCut 2000)]

/-- The deposit of the treasury is not counted, and the one around it is accounted for. -/
theorem deposits_conserved_reentrant :
    (executeAll reentrantRun (deployed sampleGateway 0)).deposits =
        [⟨7, Digest.zero, 3000000005, 300000000, 2⟩] ∧
      ∑ a, (executeAll reentrantRun (deployed sampleGateway 0)).state.totalDeposited a =
        ((executeAll reentrantRun (deployed sampleGateway 0)).payments.map Prod.snd).sum +
          10 ^ 9 * ((executeAll reentrantRun (deployed sampleGateway 0)).stakes.map
            fun stake => stake.2.1).sum +
          ((executeAll reentrantRun (deployed sampleGateway 0)).deposits.map Deposit.dust).sum :=
  ⟨by decide +kernel,
    (deposits_conserved (show initializeGateway 9 96 5 1000 = .ok sampleGateway from rfl) 0
      reentrantRun).1.1⟩

end PaymentGateway

end Verathos.Contracts
