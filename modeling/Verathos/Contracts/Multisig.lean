import Verathos.Contracts.EvmBinding
import Verathos.Lib.Transition

/-!
# VerathosMultisig

A translation of `VerathosMultisig.sol`, as a machine that takes one step at a time, so that the
states in the middle of a call are states of the machine.

* `authorize` is the part of `execute` before its call: the signatures are checked and the nonce is
  raised. The call of another account leaves the control to foreign code, which may call the multisig
  again, open calls of its own that may be reverted, and return or fail.
* A call of the multisig by itself is entered with `address(this)` as its sender. This is the only
  way to the functions that manage the signers.
* A failed call restores the storage that its frame saved. A call may also fail at any point for
  reasons outside the contract (`abort`): gas, or the balance.

Foreign code is arbitrary, and so are `ecrecover` and the decoding of call data.
-/

namespace Verathos.Contracts

/-- The storage of `VerathosMultisig`. -/
structure Multisig where
  signers : List Address
  isSigner : Address → Bool
  threshold : ℕ
  nonce : ℕ

namespace Multisig

/-! ## Constructor -/

/-- The loop of the constructor. -/
def addSigners : List Address → Multisig → Tx Multisig
  | [], s => .ok s
  | signer :: rest, s => do
    require (signer ≠ 0) "Zero signer"
    require (s.isSigner signer = false) "Duplicate signer"
    addSigners rest
      { s with isSigner := assign s.isSigner signer true, signers := s.signers ++ [signer] }

/-- The constructor. -/
def create (signers : List Address) (threshold : ℕ) : Tx Multisig := do
  require (signers.length ≥ threshold) "Threshold exceeds signer count"
  require (threshold > 0) "Zero threshold"
  let s ← addSigners signers ⟨[], fun _ => false, 0, 0⟩
  return { s with threshold }

/-! ## Signatures -/

/-- The chain and the functions outside the contract. -/
structure Chain where
  keccak256 : Bytes → Digest
  /-- `ecrecover(digest, v, r, s)`; `address(0)` for an invalid signature. -/
  ecrecover : Digest → ℕ → Bytes → Bytes → Address
  chainId : ℕ
  this : Address

/-- The bytes of `"\x19Ethereum Signed Message:\n32"`. -/
def signedMessageHeader : Bytes :=
  [0x19, 0x45, 0x74, 0x68, 0x65, 0x72, 0x65, 0x75, 0x6d, 0x20, 0x53, 0x69, 0x67, 0x6e, 0x65, 0x64,
    0x20, 0x4d, 0x65, 0x73, 0x73, 0x61, 0x67, 0x65, 0x3a, 0x0a, 0x33, 0x32]

/-- The largest `s` that is not in the upper half of the curve. -/
def maxS : ℕ := 0x7FFFFFFFFFFFFFFFFFFFFFFFFFFFFFFF5D576E7357A4501DDFE92F46681B20A0

/-- A call that signers approve. -/
structure CallData where
  target : Address
  value : ℕ
  data : Bytes
deriving DecidableEq

/-- `_digest`, with the nonce that it reads. -/
def digest (chain : Chain) (nonce : ℕ) (call : CallData) : Digest :=
  let structHash := chain.keccak256 (packedUint 32 chain.chainId ++ packedUint 20 chain.this ++
    packedUint 32 nonce ++ packedUint 20 call.target ++ packedUint 32 call.value ++ call.data)
  chain.keccak256 (signedMessageHeader ++ structHash.bytes)

def recover (chain : Chain) (digest : Digest) (sig : Bytes) : Tx Address := do
  require (sig.length = 65) "Invalid signature length"
  let r := sig.take 32
  let s := (sig.drop 32).take 32
  let v := (sig.getD 64 0).toNat
  let v := if v < 27 then v + 27 else v
  require (v = 27 ∨ v = 28) "Invalid v value"
  require (LittleEndian.toNat s.reverse ≤ maxS) "Invalid s value (malleability)"
  let recovered := chain.ecrecover digest v r s
  require (recovered ≠ 0) "Invalid signature"
  return recovered

/-- The loop of `execute`: every signature is of a signer, and the signers are ascending. -/
def checkSignatures (chain : Chain) (s : Multisig) (digest : Digest) :
    List Bytes → Address → Tx Unit
  | [], _ => .ok ()
  | sig :: rest, lastSigner => do
    let recovered ← recover chain digest sig
    require (s.isSigner recovered) "Not a signer"
    require (recovered > lastSigner) "Signatures not sorted or duplicate"
    checkSignatures chain s digest rest recovered

/-- `execute` up to its call. -/
def authorize (chain : Chain) (s : Multisig) (call : CallData) (signatures : List Bytes) :
    Tx Multisig := do
  require (signatures.length ≥ s.threshold) "Below threshold"
  checkSignatures chain s (digest chain s.nonce call) signatures 0
  require (s.nonce + 1 < 2 ^ 256) "Panic(0x11)"
  return { s with nonce := s.nonce + 1 }

/-! ## Self-management -/

/-- The swap-and-pop loop of `removeSigner`. -/
def swapRemove (signers : List Address) (signer : Address) : List Address :=
  match signers.idxOf? signer with
  | some index => swapPop signers index
  | none => signers

/-- The functions of the contract. -/
inductive Function where
  | execute (call : CallData) (signatures : List Bytes)
  | addSigner (signer : Address)
  | removeSigner (signer : Address)
  | changeThreshold (newThreshold : ℕ)
  /-- `signers`, `isSigner`, `threshold`, `nonce`, `getSigners`, `getSignerCount`, `getDigest`. -/
  | view
  | receive

section Management

variable (this sender : Address) (s : Multisig)

def addSigner (signer : Address) : Tx Multisig := do
  require (sender = this) "Only via execute()"
  require (signer ≠ 0) "Zero signer"
  require (s.isSigner signer = false) "Already a signer"
  return { s with isSigner := assign s.isSigner signer true, signers := s.signers ++ [signer] }

def removeSigner (signer : Address) : Tx Multisig := do
  require (sender = this) "Only via execute()"
  require (s.isSigner signer) "Not a signer"
  require (1 ≤ s.signers.length) "Panic(0x11)"
  require (s.signers.length - 1 ≥ s.threshold) "Would break threshold"
  return { s with
    isSigner := assign s.isSigner signer false
    signers := swapRemove s.signers signer }

def changeThreshold (newThreshold : ℕ) : Tx Multisig := do
  require (sender = this) "Only via execute()"
  require (newThreshold > 0) "Zero threshold"
  require (newThreshold ≤ s.signers.length) "Exceeds signer count"
  return { s with threshold := newThreshold }

/-- A function other than `execute`, called with a value. Only `receive` is payable. -/
def runFunction (value : ℕ) : Function → Tx Multisig
  | .addSigner signer => do
    require (value = 0) ""
    s.addSigner this sender signer
  | .removeSigner signer => do
    require (value = 0) ""
    s.removeSigner this sender signer
  | .changeThreshold newThreshold => do
    require (value = 0) ""
    s.changeThreshold this sender newThreshold
  | .view => do
    require (value = 0) ""
    return s
  | .receive => .ok s
  | .execute _ _ => .error ""

end Management

/-! ## The machine -/

/-- A call that `execute` performed, with the storage at that moment. -/
structure Performed where
  call : CallData
  signatures : List Bytes
  /-- The storage at the moment of the call, before the nonce is raised. -/
  storage : Multisig

/-- The storage with the calls performed so far. A call that is reverted is taken back with its
effects. -/
structure Ledger where
  storage : Multisig
  performed : List Performed

/-- What a frame of the call stack waits for. -/
inductive FrameKind where
  | foreignCall
  | executeOther
  /-- `execute`, while the multisig runs as the called account. -/
  | executeSelf
deriving DecidableEq

/-- A frame of the call stack. -/
structure Frame where
  kind : FrameKind
  /-- The ledger before the call, which is restored when it fails. -/
  saved : Ledger

/-- Who runs. -/
inductive Control where
  | foreign
  /-- The multisig, at the entry of a function; `none` for call data that it does not decode. -/
  | entering (sender : Address) (value : ℕ) (function : Option Function)
  | returning (ok : Bool)

/-- The state of the machine. -/
structure Machine where
  ledger : Ledger
  stack : List Frame
  control : Control

/-- What happens next. -/
inductive Action where
  | call (sender : Address) (value : ℕ) (function : Option Function)
  /-- Foreign code calls foreign code, or a transaction starts. -/
  | enter
  | finish (ok : Bool)
  | proceed
  /-- The multisig fails for a reason outside the contract. -/
  | abort

/-- The ledger after a call: the current one, or the saved one when the call failed. -/
def Frame.leave (frame : Frame) (ledger : Ledger) (ok : Bool) : Ledger :=
  if ok then ledger else frame.saved

/-- The return of a function other than `execute`. -/
def afterFunction (m : Machine) : Tx Multisig → Machine
  | .ok storage => { m with ledger := { m.ledger with storage }, control := .returning true }
  | .error _ => { m with control := .returning false }

variable (chain : Chain) (decode : Bytes → Option Function)

/-- The entry of a function. -/
def enterFunction (m : Machine) (sender : Address) (value : ℕ) : Option Function → Machine
  | none => { m with control := .returning false }
  | some (.execute call signatures) =>
    match authorize chain m.ledger.storage call signatures with
    | .ok storage =>
      { ledger := ⟨storage, ⟨call, signatures, m.ledger.storage⟩ :: m.ledger.performed⟩
        stack :=
          ⟨if call.target = chain.this then .executeSelf else .executeOther, m.ledger⟩ :: m.stack
        control :=
          if call.target = chain.this then .entering chain.this call.value (decode call.data)
          else .foreign }
    | .error _ => { m with control := .returning false }
  | some function =>
    afterFunction m (runFunction chain.this sender m.ledger.storage value function)

/-- One step of the machine. -/
def step (action : Action) (m : Machine) : Option Machine :=
  match m.control, action with
  | .foreign, .call sender value function =>
    if sender = chain.this then none
    else some { m with control := .entering sender value function }
  | .foreign, .enter => some { m with stack := ⟨.foreignCall, m.ledger⟩ :: m.stack }
  | .foreign, .finish ok =>
    match m.stack with
    | frame :: rest =>
      match frame.kind with
      | .foreignCall => some ⟨frame.leave m.ledger ok, rest, .foreign⟩
      | .executeOther => some ⟨frame.leave m.ledger ok, rest, .returning ok⟩
      | .executeSelf => none
    | [] => none
  | .entering sender value function, .proceed =>
    some (enterFunction chain decode m sender value function)
  | .entering _ _ _, .abort => some { m with control := .returning false }
  | .returning ok, .proceed =>
    match m.stack with
    | frame :: rest =>
      if frame.kind = .executeSelf then some ⟨frame.leave m.ledger ok, rest, .returning ok⟩
      else some { m with control := .foreign }
    | [] => some { m with control := .foreign }
  | .returning _, .abort =>
    match m.stack with
    | frame :: rest =>
      if frame.kind = .executeSelf then some ⟨frame.saved, rest, .returning false⟩ else none
    | [] => none
  | _, _ => none

/-- The machine after a successful constructor. -/
def created (s : Multisig) : Machine := ⟨⟨s, []⟩, [], .foreign⟩

end Multisig

end Verathos.Contracts
