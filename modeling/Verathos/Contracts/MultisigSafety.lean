import Verathos.Contracts.Multisig

/-!
# Safety of VerathosMultisig

In every state of the machine, in the middle of calls as well, the signers are consistent with
`isSigner` and suffice for the threshold, every performed call is covered by signatures of enough
different signers of that moment, and no two performed calls have the same nonce. A failed `execute`
leaves the ledger as it was (`multisig_safe`).
-/

namespace Verathos.Contracts.Multisig

open Transition

/-! ## Signers -/

/-- The signers are different and not zero, `isSigner` is membership, and they suffice for the
threshold. -/
structure Valid (s : Multisig) : Prop where
  nodup : s.signers.Nodup
  nonzero : 0 ∉ s.signers
  exact : ∀ a, s.isSigner a = true ↔ a ∈ s.signers
  positive : 0 < s.threshold
  bounded : s.threshold ≤ s.signers.length

section Signers

variable {s s' : Multisig}

variable {signer : Address}

theorem signers_added (hnodup : s.signers.Nodup) (hnonzero : 0 ∉ s.signers)
    (hexact : ∀ a, s.isSigner a = true ↔ a ∈ s.signers) (hsigner : signer ≠ 0)
    (hnew : s.isSigner signer = false) :
    (s.signers ++ [signer]).Nodup ∧ 0 ∉ s.signers ++ [signer] ∧
      ∀ a, assign s.isSigner signer true a = true ↔ a ∈ s.signers ++ [signer] := by
  have hnot : signer ∉ s.signers := by
    rw [← hexact, hnew]
    simp
  refine ⟨?_, ?_, fun a => ?_⟩
  · rw [List.nodup_append_comm]
    exact List.nodup_cons.mpr ⟨hnot, hnodup⟩
  · simp [hnonzero, hsigner.symm]
  · rw [assign_apply, List.mem_append, List.mem_singleton, ← hexact]
    split_ifs with ha
    · simp [ha]
    · simp [ha]

theorem addSigners_spec {signers : List Address} (hnodup : s.signers.Nodup)
    (hnonzero : 0 ∉ s.signers) (hexact : ∀ a, s.isSigner a = true ↔ a ∈ s.signers)
    (h : addSigners signers s = .ok s') :
    s'.signers.Nodup ∧ 0 ∉ s'.signers ∧ (∀ a, s'.isSigner a = true ↔ a ∈ s'.signers) ∧
      s'.signers = s.signers ++ signers := by
  induction signers generalizing s with
  | nil =>
    obtain rfl := Except.ok.inj h
    exact ⟨hnodup, hnonzero, hexact, (List.append_nil _).symm⟩
  | cons signer rest ih =>
    simp only [addSigners, bind_eq_ok, require_eq_ok] at h
    obtain ⟨-, hsigner, -, hnew, h⟩ := h
    obtain ⟨hnodup', hnonzero', hexact'⟩ := signers_added hnodup hnonzero hexact hsigner hnew
    obtain ⟨h₁, h₂, h₃, h₄⟩ := ih hnodup' hnonzero' hexact' h
    refine ⟨h₁, h₂, h₃, h₄.trans ?_⟩
    rw [List.append_assoc, List.singleton_append]

theorem valid_create {signers : List Address} {threshold : ℕ}
    (h : create signers threshold = .ok s) : Valid s := by
  simp only [create, bind_eq_ok, require_eq_ok, pure_eq_ok] at h
  obtain ⟨-, hlength, -, hpositive, s₁, hadd, rfl⟩ := h
  obtain ⟨hnodup, hnonzero, hexact, hsigners⟩ :=
    addSigners_spec List.nodup_nil List.not_mem_nil (by simp) hadd
  refine ⟨hnodup, hnonzero, hexact, hpositive, ?_⟩
  change threshold ≤ s₁.signers.length
  rw [hsigners, List.nil_append]
  exact hlength

variable {sender : Address}

variable {this : Address}

theorem Valid.addSigner (h : Valid s) (hok : s.addSigner this sender signer = .ok s') :
    Valid s' := by
  simp only [Multisig.addSigner, bind_eq_ok, require_eq_ok, pure_eq_ok] at hok
  obtain ⟨-, -, -, hsigner, -, hnew, rfl⟩ := hok
  obtain ⟨hnodup, hnonzero, hexact⟩ := signers_added h.nodup h.nonzero h.exact hsigner hnew
  refine ⟨hnodup, hnonzero, hexact, h.positive, ?_⟩
  rw [List.length_append]
  exact Nat.le_add_right_of_le h.bounded

theorem Valid.removeSigner (h : Valid s) (hok : s.removeSigner this sender signer = .ok s') :
    Valid s' := by
  simp only [Multisig.removeSigner, bind_eq_ok, require_eq_ok, pure_eq_ok] at hok
  obtain ⟨-, -, -, hsigner, -, -, -, hbound, rfl⟩ := hok
  have hmem : signer ∈ s.signers := (h.exact signer).mp hsigner
  obtain ⟨index, hindex⟩ := Option.isSome_iff_exists.mp (List.isSome_idxOf?.mpr hmem)
  have hremoved : s.signers[index]? = some signer := by
    rw [List.idxOf?_eq_some_iff] at hindex
    obtain ⟨hlt, heq, -⟩ := hindex
    rw [List.getElem?_eq_getElem hlt, heq]
  have hswap : swapRemove s.signers signer = swapPop s.signers index := by
    rw [swapRemove, hindex]
  rw [hswap]
  refine ⟨nodup_swapPop hremoved h.nodup, fun hzero => ?_, fun a => ?_, h.positive, ?_⟩
  · exact h.nonzero ((mem_swapPop_iff hremoved h.nodup).mp hzero).1
  · rw [mem_swapPop_iff hremoved h.nodup, ← h.exact]
    dsimp only
    rw [assign_apply]
    split_ifs with ha
    · simp [ha]
    · simp [ha]
  · rw [length_swapPop (List.getElem?_eq_some_iff.mp hremoved).1]
    exact hbound

theorem Valid.changeThreshold {newThreshold : ℕ} (h : Valid s)
    (hok : s.changeThreshold this sender newThreshold = .ok s') : Valid s' := by
  simp only [Multisig.changeThreshold, bind_eq_ok, require_eq_ok, pure_eq_ok] at hok
  obtain ⟨-, -, -, hpositive, -, hbound, rfl⟩ := hok
  exact ⟨h.nodup, h.nonzero, h.exact, hpositive, hbound⟩

theorem Valid.runFunction {value : ℕ} {function : Function} (h : Valid s)
    (hok : s.runFunction this sender value function = .ok s') : Valid s' ∧ s'.nonce = s.nonce := by
  cases function with
  | execute call signatures => exact absurd hok (by simp [Multisig.runFunction])
  | addSigner signer =>
    simp only [Multisig.runFunction, bind_eq_ok] at hok
    obtain ⟨-, -, hok⟩ := hok
    refine ⟨h.addSigner hok, ?_⟩
    simp only [Multisig.addSigner, bind_eq_ok, pure_eq_ok] at hok
    obtain ⟨-, -, -, -, -, -, rfl⟩ := hok
    rfl
  | removeSigner signer =>
    simp only [Multisig.runFunction, bind_eq_ok] at hok
    obtain ⟨-, -, hok⟩ := hok
    refine ⟨h.removeSigner hok, ?_⟩
    simp only [Multisig.removeSigner, bind_eq_ok, pure_eq_ok] at hok
    obtain ⟨-, -, -, -, -, -, -, -, rfl⟩ := hok
    rfl
  | changeThreshold newThreshold =>
    simp only [Multisig.runFunction, bind_eq_ok] at hok
    obtain ⟨-, -, hok⟩ := hok
    refine ⟨h.changeThreshold hok, ?_⟩
    simp only [Multisig.changeThreshold, bind_eq_ok, pure_eq_ok] at hok
    obtain ⟨-, -, -, -, -, -, rfl⟩ := hok
    rfl
  | view =>
    simp only [Multisig.runFunction, bind_eq_ok, pure_eq_ok] at hok
    obtain ⟨-, -, rfl⟩ := hok
    exact ⟨h, rfl⟩
  | receive =>
    obtain rfl := Except.ok.inj hok
    exact ⟨h, rfl⟩

end Signers

/-! ## Signatures -/

/-- A performed call is covered: at least `threshold` different signers of that moment have
signatures that recover over the digest of the call and the nonce of that moment. -/
def Covered (chain : Chain) (p : Performed) : Prop :=
  ∃ approvers : List Address, approvers.Nodup ∧ p.storage.threshold ≤ approvers.length ∧
    ∀ a ∈ approvers, a ∈ p.storage.signers ∧ ∃ sig ∈ p.signatures,
      recover chain (digest chain p.storage.nonce p.call) sig = .ok a

section Signatures

variable {chain : Chain} {s s' : Multisig}

/-- The loop of `execute`: one signer for each signature, in ascending order. -/
theorem checkSignatures_spec {digest : Digest} {signatures : List Bytes} {lastSigner : Address}
    {u : Unit} (h : checkSignatures chain s digest signatures lastSigner = .ok u) :
    ∃ approvers : List Address, approvers.length = signatures.length ∧
      (lastSigner :: approvers).Pairwise (· < ·) ∧
      ∀ a ∈ approvers, s.isSigner a = true ∧ ∃ sig ∈ signatures, recover chain digest sig = .ok a := by
  induction signatures generalizing lastSigner with
  | nil => exact ⟨[], rfl, List.pairwise_singleton _ _, by simp⟩
  | cons sig rest ih =>
    simp only [checkSignatures, bind_eq_ok, require_eq_ok] at h
    obtain ⟨recovered, hrecovered, -, hsigner, -, hlast, h⟩ := h
    obtain ⟨approvers, hlength, hsorted, happrovers⟩ := ih h
    refine ⟨recovered :: approvers, by simp [hlength], ?_, fun a ha => ?_⟩
    · refine List.pairwise_cons.mpr ⟨fun a ha => ?_, hsorted⟩
      rcases List.mem_cons.mp ha with rfl | ha
      · exact hlast
      · exact hlast.trans ((List.pairwise_cons.mp hsorted).1 a ha)
    · rcases List.mem_cons.mp ha with rfl | ha
      · exact ⟨hsigner, sig, List.mem_cons_self, hrecovered⟩
      · obtain ⟨hmem, other, hother, hrec⟩ := happrovers a ha
        exact ⟨hmem, other, List.mem_cons_of_mem _ hother, hrec⟩

/-- An authorized call is covered, and only the nonce changes. -/
theorem authorize_spec {call : CallData} {signatures : List Bytes} (hvalid : Valid s)
    (h : authorize chain s call signatures = .ok s') :
    Covered chain ⟨call, signatures, s⟩ ∧ s' = { s with nonce := s.nonce + 1 } := by
  simp only [authorize, bind_eq_ok, require_eq_ok, pure_eq_ok] at h
  obtain ⟨-, hthreshold, u, hsignatures, -, -, rfl⟩ := h
  obtain ⟨approvers, hlength, hsorted, happrovers⟩ := checkSignatures_spec hsignatures
  refine ⟨⟨approvers, ?_, ?_, fun a ha => ?_⟩, rfl⟩
  · exact (List.pairwise_cons.mp hsorted).2.imp fun hlt => ne_of_lt hlt
  · rw [hlength]
    exact hthreshold
  · obtain ⟨hsigner, hsig⟩ := happrovers a ha
    exact ⟨(hvalid.exact a).mp hsigner, hsig⟩

end Signatures

/-! ## Steps -/

/-- What a step does to the ledger and the stack: nothing, open or close a call, run a function of
the contract, or perform a call. -/
inductive Effect (chain : Chain) : Ledger × List Frame → Ledger × List Frame → Prop where
  | same (ledger : Ledger) (stack : List Frame) : Effect chain (ledger, stack) (ledger, stack)
  | enter (ledger : Ledger) (stack : List Frame) :
      Effect chain (ledger, stack) (ledger, ⟨.foreignCall, ledger⟩ :: stack)
  | leave (ledger : Ledger) (frame : Frame) (stack : List Frame) (ok : Bool) :
      Effect chain (ledger, frame :: stack) (frame.leave ledger ok, stack)
  | function (ledger : Ledger) (stack : List Frame) (sender : Address) (value : ℕ)
      (function : Function) (storage : Multisig)
      (hok : ledger.storage.runFunction chain.this sender value function = .ok storage) :
      Effect chain (ledger, stack) ({ ledger with storage }, stack)
  | perform (ledger : Ledger) (stack : List Frame) (call : CallData) (signatures : List Bytes)
      (kind : FrameKind) (storage : Multisig)
      (hok : authorize chain ledger.storage call signatures = .ok storage) :
      Effect chain (ledger, stack)
        (⟨storage, ⟨call, signatures, ledger.storage⟩ :: ledger.performed⟩,
          ⟨kind, ledger⟩ :: stack)

section Steps

variable {chain : Chain} {decode : Bytes → Option Function} {m m' : Machine}

theorem enterFunction_effect (m : Machine) (sender : Address) (value : ℕ)
    (function : Option Function) :
    Effect chain (m.ledger, m.stack) ((enterFunction chain decode m sender value function).ledger,
      (enterFunction chain decode m sender value function).stack) := by
  have hrun : ∀ function, Effect chain (m.ledger, m.stack)
      ((afterFunction m (runFunction chain.this sender m.ledger.storage value function)).ledger,
      (afterFunction m (runFunction chain.this sender m.ledger.storage value function)).stack) := by
    intro function
    cases hok : runFunction chain.this sender m.ledger.storage value function with
    | ok storage => exact .function m.ledger m.stack sender value function storage hok
    | error reason => exact .same _ _
  match function with
  | none => exact .same _ _
  | some (.execute call signatures) =>
    simp only [enterFunction]
    cases hok : authorize chain m.ledger.storage call signatures with
    | ok storage => exact .perform m.ledger m.stack call signatures _ storage hok
    | error reason => exact .same _ _
  | some (.addSigner signer) => exact hrun _
  | some (.removeSigner signer) => exact hrun _
  | some (.changeThreshold newThreshold) => exact hrun _
  | some .view => exact hrun _
  | some .receive => exact hrun .receive

theorem step_effect {action : Action} (h : step chain decode action m = some m') :
    Effect chain (m.ledger, m.stack) (m'.ledger, m'.stack) := by
  rcases m with ⟨ledger, stack, control⟩
  cases control with
  | foreign =>
    cases action with
    | call sender value function =>
      simp only [step] at h
      split_ifs at h
      obtain rfl := Option.some.inj h
      exact .same _ _
    | enter =>
      obtain rfl := Option.some.inj h
      exact .enter _ _
    | finish ok =>
      simp only [step] at h
      split at h
      · next frame rest =>
        split at h
        · obtain rfl := Option.some.inj h
          exact .leave ledger frame rest ok
        · obtain rfl := Option.some.inj h
          exact .leave ledger frame rest ok
        · exact absurd h (by simp)
      · exact absurd h (by simp)
    | proceed => exact absurd h (by simp [step])
    | abort => exact absurd h (by simp [step])
  | entering sender value function =>
    cases action with
    | proceed =>
      obtain rfl := Option.some.inj h
      exact enterFunction_effect ⟨ledger, stack, .entering sender value function⟩ sender value _
    | abort =>
      obtain rfl := Option.some.inj h
      exact .same _ _
    | call sender value function => exact absurd h (by simp [step])
    | enter => exact absurd h (by simp [step])
    | finish ok => exact absurd h (by simp [step])
  | returning ok =>
    cases action with
    | proceed =>
      simp only [step] at h
      split at h
      · next frame rest =>
        split_ifs at h
        · obtain rfl := Option.some.inj h
          exact .leave ledger frame rest ok
        · obtain rfl := Option.some.inj h
          exact .same _ _
      · obtain rfl := Option.some.inj h
        exact .same _ _
    | abort =>
      simp only [step] at h
      split at h
      · next frame rest =>
        split_ifs at h
        obtain rfl := Option.some.inj h
        exact .leave ledger frame rest false
      · exact absurd h (by simp)
    | call sender value function => exact absurd h (by simp [step])
    | enter => exact absurd h (by simp [step])
    | finish ok => exact absurd h (by simp [step])

/-! ## The invariant -/

/-- A ledger with valid signers, whose performed calls are covered and have different nonces below
the current one. -/
structure Ledger.Safe (chain : Chain) (ledger : Ledger) : Prop where
  valid : Valid ledger.storage
  covered : ∀ p ∈ ledger.performed, Covered chain p
  below : ∀ p ∈ ledger.performed, p.storage.nonce < ledger.storage.nonce
  distinct : ledger.performed.Pairwise fun p q => p.storage.nonce ≠ q.storage.nonce

theorem Effect.safe {before after : Ledger × List Frame} (h : Effect chain before after)
    (hledger : before.1.Safe chain) (hstack : ∀ frame ∈ before.2, frame.saved.Safe chain) :
    after.1.Safe chain ∧ ∀ frame ∈ after.2, frame.saved.Safe chain := by
  cases h with
  | same ledger stack => exact ⟨hledger, hstack⟩
  | enter ledger stack =>
    refine ⟨hledger, fun frame hframe => ?_⟩
    rcases List.mem_cons.mp hframe with rfl | hframe
    · exact hledger
    · exact hstack frame hframe
  | leave ledger frame stack ok =>
    refine ⟨?_, fun other hother => hstack other (List.mem_cons_of_mem _ hother)⟩
    simp only [Frame.leave]
    split_ifs
    · exact hledger
    · exact hstack frame List.mem_cons_self
  | function ledger stack sender value function storage hok =>
    obtain ⟨hvalid, hnonce⟩ := hledger.valid.runFunction hok
    refine ⟨⟨hvalid, hledger.covered, fun p hp => ?_, hledger.distinct⟩, hstack⟩
    change p.storage.nonce < storage.nonce
    rw [hnonce]
    exact hledger.below p hp
  | perform ledger stack call signatures kind storage hok =>
    obtain ⟨hcovered, rfl⟩ := authorize_spec hledger.valid hok
    have hvalid := hledger.valid
    constructor
    · refine ⟨⟨hvalid.nodup, hvalid.nonzero, hvalid.exact, hvalid.positive, hvalid.bounded⟩,
        fun p hp => ?_, fun p hp => ?_, ?_⟩
      · rcases List.mem_cons.mp hp with rfl | hp
        · exact hcovered
        · exact hledger.covered p hp
      · rcases List.mem_cons.mp hp with rfl | hp
        · exact Nat.lt_succ_self _
        · exact (hledger.below p hp).trans (Nat.lt_succ_self _)
      · -- the earlier calls have smaller nonces
        exact List.pairwise_cons.mpr
          ⟨fun p hp => (hledger.below p hp).ne', hledger.distinct⟩
    · intro frame hframe
      rcases List.mem_cons.mp hframe with rfl | hframe
      · exact hledger
      · exact hstack frame hframe

theorem safe_of_reachable {signers : List Address} {threshold : ℕ} {s : Multisig}
    (hcreate : create signers threshold = .ok s)
    (hreach : Reachable (step chain decode) always (created s) m) :
    m.ledger.Safe chain ∧ ∀ frame ∈ m.stack, frame.saved.Safe chain := by
  refine hreach.invariant
    (I := fun m => m.ledger.Safe chain ∧ ∀ frame ∈ m.stack, frame.saved.Safe chain) ?_ ?_
  · exact ⟨⟨valid_create hcreate, by simp [created], by simp [created], List.Pairwise.nil⟩,
      by simp [created]⟩
  · intro action m m' h _ hstep
    exact (step_effect hstep).safe h.1 h.2

/-! ## Failed calls -/

theorem Effect.suffix {before after : Ledger × List Frame} (h : Effect chain before after)
    {frame : Frame} {rest : List Frame} (hsuffix : frame :: rest <:+ before.2)
    (habove : rest.length < after.2.length) : frame :: rest <:+ after.2 := by
  cases h with
  | same ledger stack => exact hsuffix
  | enter ledger stack => exact hsuffix.trans (List.suffix_cons _ _)
  | leave ledger top stack ok =>
    rcases List.suffix_cons_iff.mp hsuffix with heq | hsuffix
    · obtain ⟨-, hrest⟩ := List.cons.inj heq
      rw [hrest] at habove
      exact absurd habove (lt_irrefl _)
    · exact hsuffix
  | function ledger stack sender value function storage hok => exact hsuffix
  | perform ledger stack call signatures kind storage hok =>
    exact hsuffix.trans (List.suffix_cons _ _)

end Steps

section Calls

variable (chain : Chain) (decode : Bytes → Option Function)

/-- The machine `m` enters an `execute` that performs its call, and in `m'` that call is the one that
runs. -/
def InExecute (m m' : Machine) : Prop :=
  ∃ sender value call signatures m₁,
    m.control = .entering sender value (some (.execute call signatures)) ∧
    step chain decode .proceed m = some m₁ ∧ m.stack.length < m₁.stack.length ∧
    Reachable (step chain decode) (fun _ m₂ => m.stack.length < m₂.stack.length) m₁ m' ∧
    m'.stack.length = m.stack.length + 1

/-- The call of the `execute` in the top frame fails: the code of the other account fails, or the
function of the multisig itself does. -/
def InnerCallFails (m : Machine) (action : Action) : Prop :=
  ∃ frame rest, m.stack = frame :: rest ∧
    (frame.kind = .executeOther ∧ m.control = .foreign ∧ action = .finish false ∨
      frame.kind = .executeSelf ∧ m.control = .returning false ∧ action = .proceed)

variable {chain decode}

/-- An `execute` whose call fails returns failure, with the ledger and the stack of its entry. -/
theorem restored_of_innerCallFails {m m' m'' : Machine} {action : Action}
    (hexecute : InExecute chain decode m m') (hfails : InnerCallFails m' action)
    (hstep : step chain decode action m' = some m'') :
    m'' = ⟨m.ledger, m.stack, .returning false⟩ := by
  obtain ⟨sender, value, call, signatures, m₁, hcontrol, hfirst, hpushed, hreach, hlength⟩ := hexecute
  -- the entry pushes a frame with the ledger of the entry
  obtain ⟨kind, hstack⟩ : ∃ kind, m₁.stack = ⟨kind, m.ledger⟩ :: m.stack := by
    simp only [step, hcontrol, enterFunction, Option.some.injEq] at hfirst
    split at hfirst
    · exact ⟨_, by rw [← hfirst]⟩
    · rw [← hfirst] at hpushed
      exact absurd hpushed (lt_irrefl _)
  -- which is still there, and on the top
  have hsuffix : m.stack.length < m'.stack.length → ⟨kind, m.ledger⟩ :: m.stack <:+ m'.stack := by
    refine hreach.invariant (I := fun m₂ => m.stack.length < m₂.stack.length →
      ⟨kind, m.ledger⟩ :: m.stack <:+ m₂.stack) (fun _ => by rw [hstack]) ?_
    intro action m₂ m₃ h habove hstep habove'
    exact (step_effect hstep).suffix (h habove) habove'
  have htop : m'.stack = ⟨kind, m.ledger⟩ :: m.stack :=
    ((hsuffix (by omega)).eq_of_length (by rw [List.length_cons, hlength])).symm
  obtain ⟨frame, rest, hframe, hcases⟩ := hfails
  rw [htop] at hframe
  obtain ⟨rfl, rfl⟩ := List.cons.inj hframe
  rcases m' with ⟨ledger, stack, control⟩
  rcases hcases with ⟨hkind, hforeign, rfl⟩ | ⟨hkind, hreturning, rfl⟩
  · dsimp only at htop hforeign hkind
    subst htop hforeign hkind
    exact (Option.some.inj hstep).symm
  · dsimp only at htop hreturning hkind
    subst htop hreturning hkind
    exact (Option.some.inj hstep).symm

/-! ## The result -/

/-- In every state that any interleaving of outer and nested calls reaches from a successful
constructor: the signers are valid, a call that is authorized is covered by enough different signers
of that moment, the performed calls are so and have different nonces, and an `execute` that is
entered there and whose call fails leaves the ledger as it was. -/
theorem multisig_safe {signers : List Address} {threshold : ℕ} {s : Multisig}
    (hcreate : create signers threshold = .ok s) {m : Machine}
    (hreach : Reachable (step chain decode) always (created s) m) :
    Valid m.ledger.storage ∧
    (∀ call signatures storage, authorize chain m.ledger.storage call signatures = .ok storage →
      Covered chain ⟨call, signatures, m.ledger.storage⟩) ∧
    (∀ p ∈ m.ledger.performed, Covered chain p) ∧
    m.ledger.performed.Pairwise (fun p q => p.storage.nonce ≠ q.storage.nonce) ∧
    ∀ m' m'' action, InExecute chain decode m m' → InnerCallFails m' action →
      step chain decode action m' = some m'' → m''.ledger = m.ledger := by
  have hsafe := (safe_of_reachable hcreate hreach).1
  refine ⟨hsafe.valid, fun call signatures storage hok => (authorize_spec hsafe.valid hok).1,
    hsafe.covered, hsafe.distinct, fun m' m'' action hexecute hfails hstep => ?_⟩
  rw [restored_of_innerCallFails hexecute hfails hstep]

end Calls

/-- A chain on which the first word of a signature is its signer. -/
def exampleChain : Chain where
  keccak256 := fun _ => Digest.zero
  ecrecover := fun _ _ r _ => Fin.ofNat _ (LittleEndian.toNat r.reverse)
  chainId := 964
  this := 8

/-- The signature of a signer on that chain. -/
def exampleSignature (signer : Address) : Bytes :=
  packedUint 32 signer ++ packedUint 32 1 ++ [27]

/-- Account 5 submits a call of account 7 that signers 1 and 2 approve; account 7 submits a second
call, of the multisig by itself, that has the signature of one signer only. -/
def exampleActions : List Action :=
  [.call 5 0 (some (.execute ⟨7, 0, []⟩ [exampleSignature 1, exampleSignature 2])), .proceed,
    .call 7 0 (some (.execute ⟨8, 0, []⟩ [exampleSignature 1])), .proceed, .proceed]

/-- The theorem in the middle of a call: the first call is performed, and the second is not. -/
theorem multisig_safe_example :
    ∃ s m, create [1, 2] 2 = .ok s ∧
      run (step exampleChain fun _ => none) exampleActions (created s) = some m ∧
      m.stack.length = 1 ∧ m.ledger.performed.length = 1 ∧ Valid m.ledger.storage ∧
      ∀ p ∈ m.ledger.performed, Covered exampleChain p := by
  have hcreate : (create [1, 2] 2).toOption.isSome := by decide +kernel
  cases hs : create [1, 2] 2 with
  | error reason => exact absurd hcreate (by simp [hs, Except.toOption])
  | ok s =>
    have hrun : (create [1, 2] 2).toOption.bind (fun s =>
        (run (step exampleChain fun _ => none) exampleActions (created s)).map fun m =>
          (m.stack.length, m.ledger.performed.length)) = some (1, 1) := by decide +kernel
    rw [hs] at hrun
    obtain ⟨m, hm, hlengths⟩ := Option.map_eq_some_iff.mp hrun
    obtain ⟨hstack, hperformed⟩ := Prod.mk.inj hlengths
    have hsafe := multisig_safe hs (reachable_of_run hm)
    exact ⟨s, m, rfl, hm, hstack, hperformed, hsafe.1, hsafe.2.2.1⟩

end Verathos.Contracts.Multisig
