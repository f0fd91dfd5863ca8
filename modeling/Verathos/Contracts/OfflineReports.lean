import Verathos.Contracts.MinerRegistry

/-!
# Offline reports in MinerRegistry

`failureCount` and `reported` are kept by slot. What they stand for is the history of a slot: which
validators reported the entry that is stored there now. The history is recorded beside the storage
(`Tracked`), without any influence on it.

* A renewal or a re-activation resets `failureCount` and keeps `reported`: a validator reports an
  entry once, and not again after a renewal.
* `cleanup` moves an entry to another slot and leaves both mappings where they were.

For a miner of which no entry was cleaned up, the count is the number of reporters since the last
renewal, and three validators that have not reported an entry before can report it while it is live
and leave it inactive (`reports_counted`).
-/

namespace Verathos.Contracts

namespace MinerRegistry

open Transition

variable {Hash : Type}

/-! ## History -/

/-- `mapping[miner][index] = value`. -/
def assignSlot {ν : Type} (mapping : Address → ℕ → ν) (miner : Address) (index : ℕ) (value : ν) :
    Address → ℕ → ν :=
  assign mapping miner (assign (mapping miner) index value)

section AssignSlot

variable {ν : Type} (mapping : Address → ℕ → ν) (miner : Address) (index : ℕ) (value : ν)

theorem assignSlot_self (i : ℕ) :
    assignSlot mapping miner index value miner i = if i = index then value else mapping miner i := by
  rw [assignSlot, assign_self, assign_apply]

theorem assignSlot_of_ne {a : Address} (h : a ≠ miner) :
    assignSlot mapping miner index value a = mapping a := by
  rw [assignSlot, assign_of_ne _ _ h]

end AssignSlot

/-- The successful reports against the entries that are stored now. -/
structure Reports where
  /-- The validators that reported the entry in a slot since it was created, re-activated or renewed
  last. -/
  current : Address → ℕ → Finset Address
  /-- The validators that reported the entry in a slot since it was created. -/
  all : Address → ℕ → Finset Address
  /-- Whether an entry of the miner was removed by `cleanup`. -/
  cleaned : Address → Bool

/-- No reports. -/
def Reports.initial : Reports := ⟨fun _ _ => ∅, fun _ _ => ∅, fun _ => false⟩

/-- A mapping by slot after a swap-and-pop removal of the entry at `index` among `length` entries. -/
def moveLast (mapping : Address → ℕ → Finset Address) (miner : Address) (length index : ℕ) :
    Address → ℕ → Finset Address :=
  assignSlot (assignSlot mapping miner index (mapping miner (length - 1))) miner (length - 1) ∅

section Tracking

variable [DecidableEq Hash] (keccak256 : Bytes → Hash)

/-- The reports after a successful transaction. -/
def Reports.after (r : Reports) (tx : Transaction Hash) (s : MinerRegistry Hash) : Reports :=
  let sender := tx.msg.sender
  match tx.call with
  | .registerModel modelId endpoint _ quant _ =>
    let models := s.minerModels sender
    match findReactivatable keccak256 models tx.msg.timestamp modelId endpoint quant with
    | some index => { r with current := assignSlot r.current sender index ∅ }
    | none =>
      { r with
        current := assignSlot r.current sender models.length ∅
        all := assignSlot r.all sender models.length ∅ }
  | .renewModel index => { r with current := assignSlot r.current sender index ∅ }
  | .reportOffline miner index =>
    { r with
      current := assignSlot r.current miner index (insert sender (r.current miner index))
      all := assignSlot r.all miner index (insert sender (r.all miner index)) }
  | .cleanup miner index =>
    let length := (s.minerModels miner).length
    { current := moveLast r.current miner length index
      all := moveLast r.all miner length index
      cleaned := assign r.cleaned miner true }
  | _ => r

/-- The contract with the reports made so far. -/
structure Tracked (Hash : Type) where
  world : World Hash
  reports : Reports

variable (this : Address) (netuid : UInt16)

/-- One transaction, recorded when it is successful. -/
def trackedStep (tx : Transaction Hash) (t : Tracked Hash) : Option (Tracked Hash) :=
  (step keccak256 this netuid tx t.world).map fun world =>
    { world
      reports :=
        match t.world.state.execute keccak256 this netuid tx with
        | .ok _ => t.reports.after keccak256 tx t.world.state
        | .error _ => t.reports }

/-- The deployed contract, without reports. -/
def trackedDeployed (now : ℕ) : Tracked Hash := ⟨deployed now, .initial⟩

/-- The record has no influence: what the contract reaches is reached with a record. -/
theorem exists_tracked {start : ℕ} {w : World Hash}
    (h : Reachable (step keccak256 this netuid) always (deployed start) w) :
    ∃ t : Tracked Hash, t.world = w ∧
      Reachable (trackedStep keccak256 this netuid) always (trackedDeployed start) t := by
  induction h with
  | refl => exact ⟨_, rfl, .refl⟩
  | @step w w' tx _ _ hstep ih =>
    obtain ⟨t, rfl, ht⟩ := ih
    refine ⟨_, ?_, .step ht trivial (Option.map_eq_some_iff.mpr ⟨w', hstep, rfl⟩)⟩
    rfl

end Tracking

/-! ## The property -/

/-- The counters of a miner are the numbers of reporters since the last renewal. -/
def CountsReports (t : Tracked Hash) (miner : Address) : Prop :=
  ∀ i < (t.world.state.minerModels miner).length,
    t.world.state.failureCount miner i = (t.reports.current miner i).card

/-- Reports by validators that are `fresh` for an entry. -/
structure ReportsDeactivate (t : Tracked Hash) (miner : Address)
    (fresh : ℕ → Address → Prop) : Prop where
  can_report : ∀ (env : Env Hash) (msg : Msg) (i : ℕ) (m : MinerModel) (uid : UInt16),
    t.world.now ≤ msg.timestamp → (t.world.state.minerModels miner)[i]? = some m →
    m.Live msg.timestamp → t.world.state.binding.requireValidator env msg.sender = .ok uid →
    fresh i msg.sender → ∃ s', t.world.state.reportOffline env msg miner i = .ok s'
  /-- Three fresh validators can report a live entry one after the other, and leave it inactive. -/
  three_reports : ∀ (env₁ env₂ env₃ : Env Hash) (msg₁ msg₂ msg₃ : Msg) (i : ℕ) (m : MinerModel)
    (uid₁ uid₂ uid₃ : UInt16),
    t.world.now ≤ msg₁.timestamp → (t.world.state.minerModels miner)[i]? = some m →
    m.Live msg₁.timestamp →
    msg₁.sender ≠ msg₂.sender → msg₁.sender ≠ msg₃.sender → msg₂.sender ≠ msg₃.sender →
    t.world.state.binding.requireValidator env₁ msg₁.sender = .ok uid₁ →
    t.world.state.binding.requireValidator env₂ msg₂.sender = .ok uid₂ →
    t.world.state.binding.requireValidator env₃ msg₃.sender = .ok uid₃ →
    fresh i msg₁.sender → fresh i msg₂.sender → fresh i msg₃.sender →
    ∃ s₁ s₂ s₃, t.world.state.reportOffline env₁ msg₁ miner i = .ok s₁ ∧
      s₁.reportOffline env₂ msg₂ miner i = .ok s₂ ∧ s₂.reportOffline env₃ msg₃ miner i = .ok s₃ ∧
      ∃ m', (s₃.minerModels miner)[i]? = some m' ∧ m'.active = false
  /-- An entry with three reporters since its last renewal is inactive. -/
  inactive : ∀ (i : ℕ) (m : MinerModel), (t.world.state.minerModels miner)[i]? = some m →
    offlineThreshold ≤ (t.reports.current miner i).card → m.active = false

/-! ## The invariant of one miner -/

/-- The mappings of a miner and its reports: the reporters since the last renewal are counted, the
flags are the reporters since the creation, slots without an entry have none, and an entry at the
threshold is inactive. -/
structure ReportsInvariant (s : MinerRegistry Hash) (r : Reports) (miner : Address) : Prop where
  /-- The counters count the reporters since the last renewal. -/
  count : ∀ i, s.failureCount miner i = (r.current miner i).card
  subset : ∀ i, r.current miner i ⊆ r.all miner i
  /-- The flags are set for the reporters since the creation. -/
  flags : ∀ i v, s.reported miner i v = true ↔ v ∈ r.all miner i
  unused : ∀ i, (s.minerModels miner).length ≤ i → r.all miner i = ∅
  inactive : ∀ (i : ℕ) (m : MinerModel), (s.minerModels miner)[i]? = some m →
    offlineThreshold ≤ s.failureCount miner i → m.active = false

namespace ReportsInvariant

variable {s s' : MinerRegistry Hash} {r r' : Reports} {miner : Address}

theorem frame (h : ReportsInvariant s r miner)
    (hcount : s'.failureCount miner = s.failureCount miner)
    (hreported : s'.reported miner = s.reported miner) (hcurrent : r'.current miner = r.current miner)
    (hall : r'.all miner = r.all miner)
    (hlength : (s'.minerModels miner).length = (s.minerModels miner).length)
    (hactive : ∀ (i : ℕ) (m' : MinerModel), (s'.minerModels miner)[i]? = some m' →
      ∃ m, (s.minerModels miner)[i]? = some m ∧ (m.active = false → m'.active = false)) :
    ReportsInvariant s' r' miner := by
  refine ⟨fun i => ?_, fun i => ?_, fun i v => ?_, fun i hi => ?_, fun i m' hm' hthreshold => ?_⟩
  · rw [hcount, hcurrent]
    exact h.count i
  · rw [hcurrent, hall]
    exact h.subset i
  · rw [hreported, hall]
    exact h.flags i v
  · rw [hall]
    exact h.unused i (hlength ▸ hi)
  · rw [hcount] at hthreshold
    obtain ⟨m, hm, himp⟩ := hactive i m' hm'
    exact himp (h.inactive i m hm hthreshold)

theorem frame_eq (h : ReportsInvariant s r miner)
    (hcount : s'.failureCount miner = s.failureCount miner)
    (hreported : s'.reported miner = s.reported miner) (hcurrent : r'.current miner = r.current miner)
    (hall : r'.all miner = r.all miner) (hmodels : s'.minerModels miner = s.minerModels miner) :
    ReportsInvariant s' r' miner :=
  h.frame hcount hreported hcurrent hall (by rw [hmodels])
    fun _ m' hm' => ⟨m', by rw [← hmodels]; exact hm', fun hfalse => hfalse⟩

variable {new : MinerModel}

/-- A step that replaces one entry by one that is not active unless the old one is. -/
theorem frame_set (h : ReportsInvariant s r miner)
    (hcount : s'.failureCount miner = s.failureCount miner)
    (hreported : s'.reported miner = s.reported miner) {index : ℕ} {m : MinerModel}
    (hm : (s.minerModels miner)[index]? = some m)
    (hmodels : s'.minerModels miner = (s.minerModels miner).set index new)
    (hactive : m.active = false → new.active = false) : ReportsInvariant s' r miner := by
  refine h.frame hcount hreported rfl rfl (by rw [hmodels, List.length_set]) fun i m' hm' => ?_
  rw [hmodels] at hm'
  rcases getElem?_set_cases hm' with ⟨rfl, rfl⟩ | ⟨-, hold⟩
  · exact ⟨m, hm, hactive⟩
  · exact ⟨m', hold, fun hfalse => hfalse⟩

theorem renewed (h : ReportsInvariant s r miner) {index : ℕ}
    (hcount : ∀ i, s'.failureCount miner i = if i = index then 0 else s.failureCount miner i)
    (hreported : s'.reported miner = s.reported miner)
    (hcurrent : ∀ i, r'.current miner i = if i = index then ∅ else r.current miner i)
    (hall : r'.all miner = r.all miner)
    (hmodels : s'.minerModels miner = (s.minerModels miner).set index new) :
    ReportsInvariant s' r' miner := by
  refine ⟨fun i => ?_, fun i => ?_, fun i v => ?_, fun i hi => ?_, fun i m' hm' hthreshold => ?_⟩
  · rw [hcount, hcurrent]
    split_ifs
    · rfl
    · exact h.count i
  · rw [hcurrent, hall]
    split_ifs
    · exact Finset.empty_subset _
    · exact h.subset i
  · rw [hreported, hall]
    exact h.flags i v
  · rw [hmodels, List.length_set] at hi
    rw [hall]
    exact h.unused i hi
  · rw [hcount] at hthreshold
    rw [hmodels] at hm'
    rcases getElem?_set_cases hm' with ⟨rfl, -⟩ | ⟨hne, hold⟩
    · rw [if_pos rfl] at hthreshold
      exact absurd hthreshold (by decide)
    · rw [if_neg hne] at hthreshold
      exact h.inactive i m' hold hthreshold

/-- A pushed entry: its slot had no reporters. -/
theorem pushed (h : ReportsInvariant s r miner)
    (hcount : s'.failureCount miner = s.failureCount miner)
    (hreported : s'.reported miner = s.reported miner) (hcurrent : ∀ i, r'.current miner i =
      if i = (s.minerModels miner).length then ∅ else r.current miner i)
    (hall : ∀ i, r'.all miner i = if i = (s.minerModels miner).length then ∅ else r.all miner i)
    (hmodels : s'.minerModels miner = s.minerModels miner ++ [new]) :
    ReportsInvariant s' r' miner := by
  set length := (s.minerModels miner).length
  have hallLength : r.all miner length = ∅ := h.unused length le_rfl
  have hcurrentLength : r.current miner length = ∅ :=
    Finset.subset_empty.mp (hallLength ▸ h.subset length)
  -- so clearing the slot changes nothing
  have hcurrent' : r'.current miner = r.current miner := by
    funext i
    rw [hcurrent]
    split_ifs with hi
    · rw [hi, hcurrentLength]
    · rfl
  have hall' : r'.all miner = r.all miner := by
    funext i
    rw [hall]
    split_ifs with hi
    · rw [hi, hallLength]
    · rfl
  refine ⟨fun i => ?_, fun i => ?_, fun i v => ?_, fun i hi => ?_, fun i m' hm' hthreshold => ?_⟩
  · rw [hcount, hcurrent']
    exact h.count i
  · rw [hcurrent', hall']
    exact h.subset i
  · rw [hreported, hall']
    exact h.flags i v
  · rw [hmodels, List.length_append] at hi
    rw [hall']
    exact h.unused i (by omega)
  · rw [hcount] at hthreshold
    rw [hmodels] at hm'
    rcases getElem?_push_cases hm' with hold | ⟨rfl, -⟩
    · exact h.inactive i m' hold hthreshold
    · rw [h.count, hcurrentLength] at hthreshold
      exact absurd hthreshold (by decide)

theorem reported (h : ReportsInvariant s r miner) {index : ℕ} {m : MinerModel} {sender : Address}
    (hm : (s.minerModels miner)[index]? = some m) (hfresh : s.reported miner index sender = false)
    (hcount : ∀ i, s'.failureCount miner i =
      if i = index then s.failureCount miner index + 1 else s.failureCount miner i)
    (hreported : ∀ i v, s'.reported miner i v =
      if i = index ∧ v = sender then true else s.reported miner i v)
    (hcurrent : ∀ i, r'.current miner i =
      if i = index then insert sender (r.current miner index) else r.current miner i)
    (hall : ∀ i, r'.all miner i =
      if i = index then insert sender (r.all miner index) else r.all miner i)
    (hmodels : s'.minerModels miner =
      if s.failureCount miner index + 1 ≥ offlineThreshold then
        (s.minerModels miner).set index { m with active := false }
      else s.minerModels miner) : ReportsInvariant s' r' miner := by
  have hnotAll : sender ∉ r.all miner index := by
    rw [← h.flags, hfresh]
    simp
  have hnotCurrent : sender ∉ r.current miner index := fun hmem => hnotAll (h.subset index hmem)
  refine ⟨fun i => ?_, fun i => ?_, fun i v => ?_, fun i hi => ?_, fun i m' hm' hthreshold => ?_⟩
  · rw [hcount, hcurrent]
    split_ifs
    · rw [Finset.card_insert_of_notMem hnotCurrent, h.count]
    · exact h.count i
  · rw [hcurrent, hall]
    split_ifs
    · exact Finset.insert_subset_insert _ (h.subset index)
    · exact h.subset i
  · rw [hreported, hall]
    by_cases hi : i = index
    · rw [if_pos hi, Finset.mem_insert, ← h.flags, hi]
      by_cases hv : v = sender
      · simp [hv]
      · simp [hv]
    · rw [if_neg hi, if_neg fun hboth => hi hboth.1]
      exact h.flags i v
  · have hlength : (s'.minerModels miner).length = (s.minerModels miner).length := by
      rw [hmodels]
      split_ifs
      · exact List.length_set
      · rfl
    have hindex : index < (s.minerModels miner).length := (List.getElem?_eq_some_iff.mp hm).1
    rw [hall, if_neg (by omega)]
    exact h.unused i (by omega)
  · rw [hcount] at hthreshold
    rw [hmodels] at hm'
    split_ifs at hm' with hreached
    · rcases getElem?_set_cases hm' with ⟨-, rfl⟩ | ⟨hne, hold⟩
      · rfl
      · rw [if_neg hne] at hthreshold
        exact h.inactive i m' hold hthreshold
    · split_ifs at hthreshold with hi
      · exact absurd hthreshold hreached
      · exact h.inactive i m' hm' hthreshold

section Steps

variable [DecidableEq Hash] {keccak256 : Bytes → Hash} {env : Env Hash} {msg : Msg}

theorem registerModel (h : ReportsInvariant s r miner) {modelId endpoint : Bytes}
    {modelSpecRef : Digest} {quant : Bytes} {maxContextLen : UInt32}
    (hok : s.registerModel keccak256 env msg modelId endpoint modelSpecRef quant maxContextLen =
      .ok s') :
    ReportsInvariant s' (r.after keccak256
      ⟨env, msg, .registerModel modelId endpoint modelSpecRef quant maxContextLen⟩ s) miner := by
  obtain ⟨-, -, expiresAt, ⟨index, m, hfound, -, -, rfl⟩ | ⟨hfound, -, rfl⟩⟩ :=
    registerModel_cases hok
  · simp only [Reports.after, hfound]
    by_cases hminer : miner = msg.sender
    · subst hminer
      refine h.renewed (fun i => ?_) rfl (fun i => ?_) rfl (assign_self _ _ _)
      · rw [failureCount_setFailureCount]
        simp [claimed]
      · exact assignSlot_self _ _ _ _ i
    · exact h.frame_eq (assign_of_ne _ _ hminer) rfl (assignSlot_of_ne _ _ _ _ hminer) rfl
        (assign_of_ne _ _ hminer)
  · simp only [Reports.after, hfound]
    by_cases hminer : miner = msg.sender
    · subst hminer
      refine h.pushed rfl rfl (fun i => ?_) (fun i => ?_) (assign_self _ _ _)
      · exact assignSlot_self _ _ _ _ i
      · exact assignSlot_self _ _ _ _ i
    · exact h.frame_eq rfl rfl (assignSlot_of_ne _ _ _ _ hminer) (assignSlot_of_ne _ _ _ _ hminer)
        (assign_of_ne _ _ hminer)

theorem renewModel (h : ReportsInvariant s r miner) {index : ℕ}
    (hok : s.renewModel env msg index = .ok s') :
    ReportsInvariant s' (r.after keccak256 ⟨env, msg, .renewModel index⟩ s) miner := by
  obtain ⟨m, expiresAt, -, -, rfl⟩ := renewModel_eq_ok hok
  simp only [Reports.after]
  by_cases hminer : miner = msg.sender
  · subst hminer
    refine h.renewed (fun i => ?_) rfl (fun i => ?_) rfl (assign_self _ _ _)
    · rw [failureCount_setFailureCount]
      simp
    · exact assignSlot_self _ _ _ _ i
  · exact h.frame_eq (assign_of_ne _ _ hminer) rfl (assignSlot_of_ne _ _ _ _ hminer) rfl
      (assign_of_ne _ _ hminer)

theorem deactivateModel (h : ReportsInvariant s r miner) {index : ℕ}
    (hok : s.deactivateModel keccak256 env msg index = .ok s') : ReportsInvariant s' r miner := by
  obtain ⟨m, hm, rfl⟩ := deactivateModel_eq_ok hok
  rw [releaseEndpoint, releaseEndpointFor_eq]
  by_cases hminer : miner = msg.sender
  · subst hminer
    exact h.frame_set rfl rfl hm (assign_self _ _ _) fun _ => rfl
  · exact h.frame_eq rfl rfl rfl rfl (assign_of_ne _ _ hminer)

theorem updateEndpoint (h : ReportsInvariant s r miner) {index : ℕ} {newEndpoint : Bytes}
    (hok : s.updateEndpoint keccak256 env msg index newEndpoint = .ok s') :
    ReportsInvariant s' r miner := by
  obtain ⟨m, hm, -, -, rfl⟩ := updateEndpoint_eq_ok hok
  rw [releaseEndpoint, releaseEndpointFor_eq]
  by_cases hminer : miner = msg.sender
  · subst hminer
    exact h.frame_set rfl rfl hm (assign_self _ _ _) fun hfalse => hfalse
  · exact h.frame_eq rfl rfl rfl rfl (assign_of_ne _ _ hminer)

theorem reportOffline (h : ReportsInvariant s r miner) {target : Address} {index : ℕ}
    (hok : s.reportOffline env msg target index = .ok s') :
    ReportsInvariant s' (r.after keccak256 ⟨env, msg, .reportOffline target index⟩ s) miner := by
  obtain ⟨m, hm, hfresh, rfl⟩ := reportOffline_eq_ok hok
  simp only [Reports.after]
  by_cases hminer : miner = target
  · subst hminer
    refine h.reported hm hfresh (fun i => ?_) (fun i v => ?_) (fun i => ?_) (fun i => ?_) ?_
    · exact (failureCount_setFailureCount s miner index _ miner i).trans (by simp)
    · change assign s.reported miner (assign (s.reported miner) index _) miner i v = _
      rw [assign_self, assign_apply]
      by_cases hi : i = index
      · rw [if_pos hi, assign_apply, hi]
        simp
      · rw [if_neg hi, if_neg fun hboth => hi hboth.1]
    · exact assignSlot_self _ _ _ _ i
    · exact assignSlot_self _ _ _ _ i
    · dsimp only
      split_ifs
      · exact assign_self _ _ _
      · rfl
  · refine h.frame_eq (assign_of_ne _ _ hminer) (assign_of_ne _ _ hminer)
      (assignSlot_of_ne _ _ _ _ hminer) (assignSlot_of_ne _ _ _ _ hminer) ?_
    · dsimp only
      split_ifs
      · exact assign_of_ne _ _ hminer
      · rfl

theorem cleanup (h : ReportsInvariant s r miner) {target : Address} {index : ℕ}
    (hne : miner ≠ target) (hok : s.cleanup keccak256 msg target index = .ok s') :
    ReportsInvariant s' (r.after keccak256 ⟨env, msg, .cleanup target index⟩ s) miner := by
  obtain ⟨m, -, -, rfl⟩ := cleanup_eq_ok hok
  rw [releaseEndpointFor_eq]
  have hmoved : ∀ mapping : Address → ℕ → Finset Address,
      moveLast mapping target (s.minerModels target).length index miner = mapping miner := by
    intro mapping
    rw [moveLast, assignSlot_of_ne _ _ _ _ hne, assignSlot_of_ne _ _ _ _ hne]
  exact h.frame_eq rfl rfl (hmoved _) (hmoved _) (assign_of_ne _ _ hne)

variable {this : Address} {netuid : UInt16} {tx : Transaction Hash}

/-- A successful transaction keeps the invariant of every miner whose entries were not cleaned up. -/
theorem execute (h : r.cleaned miner = false → ReportsInvariant s r miner)
    (hok : s.execute keccak256 this netuid tx = .ok s')
    (hcleaned : (r.after keccak256 tx s).cleaned miner = false) :
    ReportsInvariant s' (r.after keccak256 tx s) miner := by
  rcases tx with ⟨env, msg, call⟩
  cases call with
  | registerEvm uid sigR sigS =>
    simp only [MinerRegistry.execute, bind_eq_ok, pure_eq_ok] at hok
    obtain ⟨binding, -, hok⟩ := hok
    rw [← hok]
    exact (h hcleaned).frame_eq rfl rfl rfl rfl rfl
  | resetEvmRegistration uid =>
    simp only [MinerRegistry.execute, bind_eq_ok, pure_eq_ok] at hok
    obtain ⟨binding, -, hok⟩ := hok
    rw [← hok]
    exact (h hcleaned).frame_eq rfl rfl rfl rfl rfl
  | registerModel modelId endpoint modelSpecRef quant maxContextLen =>
    have hcleaned' : r.cleaned miner = false := by
      simp only [Reports.after] at hcleaned
      split at hcleaned
      · exact hcleaned
      · exact hcleaned
    exact (h hcleaned').registerModel hok
  | renewModel index => exact (h hcleaned).renewModel hok
  | deactivateModel index => exact (h hcleaned).deactivateModel hok
  | updateEndpoint index newEndpoint => exact (h hcleaned).updateEndpoint hok
  | reportOffline target index => exact (h hcleaned).reportOffline hok
  | cleanup target index =>
    have hne : miner ≠ target := by
      rintro rfl
      simp [Reports.after] at hcleaned
    have hcleaned' : r.cleaned miner = false := by
      simpa [Reports.after, hne] using hcleaned
    exact (h hcleaned').cleanup hne hok

end Steps

end ReportsInvariant

/-! ## Runs -/

theorem reportOffline_of_fresh {s : MinerRegistry Hash} {env : Env Hash} {msg : Msg}
    {miner : Address} {i : ℕ} {m : MinerModel} {uid : UInt16}
    (hm : (s.minerModels miner)[i]? = some m)
    (hvalidator : s.binding.requireValidator env msg.sender = .ok uid)
    (hfresh : s.reported miner i msg.sender = false) (hcount : s.failureCount miner i + 1 < 2 ^ 16) :
    ∃ s', s.reportOffline env msg miner i = .ok s' ∧ s'.binding = s.binding ∧
      s'.failureCount miner i = s.failureCount miner i + 1 ∧
      (∀ v ≠ msg.sender, s'.reported miner i v = s.reported miner i v) ∧
      ∃ m', (s'.minerModels miner)[i]? = some m' ∧
        (offlineThreshold ≤ s.failureCount miner i + 1 → m'.active = false) := by
  have hreported : ∀ v ≠ msg.sender,
      assign s.reported miner (assign (s.reported miner) i (assign (s.reported miner i) msg.sender
        true)) miner i v = s.reported miner i v := by
    intro v hv
    rw [assign_self, assign_self, assign_of_ne _ _ hv]
  have hcount' : ∀ count, (s.setFailureCount miner i count).failureCount miner i = count := by
    intro count
    rw [failureCount_setFailureCount, if_pos ⟨rfl, rfl⟩]
  simp only [reportOffline, hvalidator, entryAt_eq_ok.mpr hm, require, hfresh, hcount, if_true,
    bind, Except.bind]
  by_cases hthreshold : offlineThreshold ≤ s.failureCount miner i + 1
  · refine ⟨_, if_pos hthreshold, rfl, hcount' _, hreported, { m with active := false }, ?_,
      fun _ => rfl⟩
    rw [minerModels_setModels, if_pos rfl, List.getElem?_set_self']
    exact congrArg (Option.map fun _ => _) hm
  · exact ⟨_, if_neg hthreshold, rfl, hcount' _, hreported, m, hm, fun h => absurd h hthreshold⟩

theorem ReportsInvariant.reportsDeactivate {t : Tracked Hash} {miner : Address}
    (h : ReportsInvariant t.world.state t.reports miner) :
    ReportsDeactivate t miner fun i v => v ∉ t.reports.all miner i := by
  have hunset : ∀ {i : ℕ} {v : Address}, v ∉ t.reports.all miner i →
      t.world.state.reported miner i v = false := by
    intro i v hv
    rw [← h.flags] at hv
    simpa using hv
  have hbelow : ∀ {i now : ℕ} {m : MinerModel}, (t.world.state.minerModels miner)[i]? = some m →
      m.Live now → t.world.state.failureCount miner i < offlineThreshold := by
    intro i now m hm hlive
    by_contra hge
    have hinactive := h.inactive i m hm (not_lt.mp hge)
    rw [hlive.1] at hinactive
    exact absurd hinactive (by simp)
  have hthree : offlineThreshold = 3 := rfl
  constructor
  case can_report =>
    intro env msg i m uid _ hm hlive hvalidator hfresh
    have hcount := hbelow hm hlive
    obtain ⟨s', hs', -⟩ := reportOffline_of_fresh hm hvalidator (hunset hfresh) (by omega)
    exact ⟨s', hs'⟩
  case three_reports =>
    intro env₁ env₂ env₃ msg₁ msg₂ msg₃ i m uid₁ uid₂ uid₃ _ hm hlive h₁₂ h₁₃ h₂₃ hv₁ hv₂ hv₃
      hf₁ hf₂ hf₃
    have hcount := hbelow hm hlive
    obtain ⟨s₁, hs₁, hb₁, hc₁, hr₁, m₁, hm₁, -⟩ :=
      reportOffline_of_fresh hm hv₁ (hunset hf₁) (by omega)
    have hunset₂ : s₁.reported miner i msg₂.sender = false :=
      (hr₁ _ h₁₂.symm).trans (hunset hf₂)
    obtain ⟨s₂, hs₂, hb₂, hc₂, hr₂, m₂, hm₂, -⟩ :=
      reportOffline_of_fresh hm₁ (hb₁ ▸ hv₂) hunset₂ (by omega)
    have hunset₃ : s₂.reported miner i msg₃.sender = false :=
      (hr₂ _ h₂₃.symm).trans ((hr₁ _ h₁₃.symm).trans (hunset hf₃))
    obtain ⟨s₃, hs₃, -, -, -, m₃, hm₃, hinactive⟩ :=
      reportOffline_of_fresh hm₂ (hb₂ ▸ hb₁ ▸ hv₃) hunset₃ (by omega)
    exact ⟨s₁, s₂, s₃, hs₁, hs₂, hs₃, m₃, hm₃, hinactive (by omega)⟩
  case inactive =>
    intro i m hm hthreshold
    exact h.inactive i m hm (hthreshold.trans (h.count i).ge)

section Runs

variable [DecidableEq Hash] {keccak256 : Bytes → Hash} {this : Address} {netuid : UInt16}
  {start : ℕ} {t : Tracked Hash}

theorem reportsInvariant_of_reachable
    (hreach : Reachable (trackedStep keccak256 this netuid) always (trackedDeployed start) t) :
    ∀ miner, t.reports.cleaned miner = false →
      ReportsInvariant t.world.state t.reports miner := by
  refine hreach.invariant (I := fun t => ∀ miner, t.reports.cleaned miner = false →
    ReportsInvariant t.world.state t.reports miner) ?_ ?_
  · intro miner _
    exact ⟨fun _ => rfl, fun _ => Finset.Subset.refl _,
      fun _ _ => ⟨fun h => Bool.noConfusion h, fun h => absurd h (Finset.notMem_empty _)⟩,
      fun _ _ => rfl, fun _ _ hm => absurd hm (by simp [trackedDeployed, deployed, empty])⟩
  · intro tx t t' h _ hstep
    obtain ⟨w', hworld, rfl⟩ := Option.map_eq_some_iff.mp hstep
    simp only [step] at hworld
    split_ifs at hworld
    cases hexecute : t.world.state.execute keccak256 this netuid tx with
    | ok state =>
      rw [hexecute] at hworld
      obtain rfl := Option.some.inj hworld
      intro miner hcleaned
      exact ReportsInvariant.execute (h miner) hexecute hcleaned
    | error reason =>
      rw [hexecute] at hworld
      obtain rfl := Option.some.inj hworld
      exact h

/-- In every run, for every miner of which no entry was removed by `cleanup`: the counter of a slot
is the number of validators that reported its entry since it was created, re-activated or renewed
last, and three validators that have not reported a live entry before can report it and leave it
inactive. -/
theorem reports_counted
    (hreach : Reachable (trackedStep keccak256 this netuid) always (trackedDeployed start) t)
    (miner : Address) (hcleaned : t.reports.cleaned miner = false) :
    CountsReports t miner ∧ ReportsDeactivate t miner fun i v => v ∉ t.reports.all miner i := by
  have hinvariant := reportsInvariant_of_reachable hreach miner hcleaned
  exact ⟨fun i _ => hinvariant.count i, hinvariant.reportsDeactivate⟩

/-- A call that sees permissive answers. -/
def callAt (sender : Address) (hsender : sender ≠ 0) (timestamp : ℕ) (call : Call) :
    Transaction Bytes where
  env := .permissive
  msg := ⟨sender, timestamp, hsender⟩
  call := call

/-- A time at which an entry that was registered at time 0 can be cleaned up. -/
def cleanupTime : ℕ := leaseDuration + cleanupGrace + 1

/-- Validator 5 reports the entry of miner 1, the entry is cleaned up, and miner 1 registers again. -/
def staleCountRun : List (Transaction Bytes) :=
  [registration 1 sender_one, callAtZero 5 sender_five (.reportOffline 1 0),
    callAt 9 sender_nine cleanupTime (.cleanup 1 0),
    callAt 1 sender_one cleanupTime (.registerModel [109] [101] Digest.zero [113] 8)]

/-- Validator 5 reports the entry of miner 1, and miner 1 renews it. -/
def staleFlagRun : List (Transaction Bytes) :=
  [registration 1 sender_one, callAtZero 5 sender_five (.reportOffline 1 0),
    callAtZero 1 sender_one (.renewModel 0)]

/-- After the first run the new entry has a count of 1 and no reporter, and after the second run
validator 5, which has not reported the entry since its renewal, cannot report it. -/
theorem reports_not_counted :
    (∃ t : Tracked Bytes, Reachable (trackedStep id 0 0) always (trackedDeployed 0) t ∧
      ¬ CountsReports t 1) ∧
    ∃ t : Tracked Bytes, Reachable (trackedStep id 0 0) always (trackedDeployed 0) t ∧
      ¬ ReportsDeactivate t 1 fun i v => v ∉ t.reports.current 1 i := by
  constructor
  · have hsome : (run (trackedStep id 0 0) staleCountRun (trackedDeployed 0)).isSome := by
      decide +kernel
    obtain ⟨t, ht⟩ := Option.isSome_iff_exists.mp hsome
    refine ⟨t, reachable_of_run ht, fun hcounts => ?_⟩
    have hvalues : (run (trackedStep id 0 0) staleCountRun (trackedDeployed 0)).map
        (fun t : Tracked Bytes => ((t.world.state.minerModels 1).length,
          t.world.state.failureCount 1 0, (t.reports.current 1 0).card)) = some (1, 1, 0) := by
      decide +kernel
    rw [ht, Option.map_some, Option.some.injEq, Prod.mk.injEq, Prod.mk.injEq] at hvalues
    obtain ⟨hlength, hcount, hcard⟩ := hvalues
    have hequal := hcounts 0 (by omega)
    omega
  · have hsome : (run (trackedStep id 0 0) staleFlagRun (trackedDeployed 0)).isSome := by
      decide +kernel
    obtain ⟨t, ht⟩ := Option.isSome_iff_exists.mp hsome
    refine ⟨t, reachable_of_run ht, fun hreports => ?_⟩
    have hvalues : (run (trackedStep id 0 0) staleFlagRun (trackedDeployed 0)).map
        (fun t : Tracked Bytes => (t.world.now, t.world.state.minerModels 1,
          t.reports.current 1 0,
          (t.world.state.reportOffline .permissive ⟨5, 0, by decide⟩ 1 0).toOption.isSome)) =
        some (0, [⟨[109], [101], Digest.zero, [113], 8, 86400, true⟩], ∅, false) := by
      decide +kernel
    rw [ht, Option.map_some, Option.some.injEq] at hvalues
    simp only [Prod.mk.injEq] at hvalues
    obtain ⟨hnow, hmodels, hcurrent, hfails⟩ := hvalues
    obtain ⟨s', hs'⟩ := hreports.can_report .permissive ⟨5, 0, by decide⟩ 0 _ 1 (by omega)
      (by rw [hmodels]; rfl) (by decide) rfl (by rw [hcurrent]; exact Finset.notMem_empty _)
    rw [hs'] at hfails
    exact absurd hfails (by simp [Except.toOption])

/-- The theorem on a run in which validator 5 reports the entry of miner 1. -/
theorem reports_counted_one_report :
    ∃ t : Tracked Bytes, run (trackedStep id 0 0)
      [registration 1 sender_one, callAtZero 5 sender_five (.reportOffline 1 0)]
      (trackedDeployed 0) = some t ∧ CountsReports t 1 ∧
      ReportsDeactivate t 1 fun i v => v ∉ t.reports.all 1 i := by
  have hsome : (run (trackedStep id 0 0)
      [registration 1 sender_one, callAtZero 5 sender_five (.reportOffline 1 0)]
      (trackedDeployed 0)).isSome := by decide +kernel
  obtain ⟨t, ht⟩ := Option.isSome_iff_exists.mp hsome
  have hcleaned : (run (trackedStep id 0 0)
      [registration 1 sender_one, callAtZero 5 sender_five (.reportOffline 1 0)]
      (trackedDeployed 0)).map (fun t : Tracked Bytes => t.reports.cleaned 1) = some false := by
    decide +kernel
  rw [ht, Option.map_some, Option.some.injEq] at hcleaned
  exact ⟨t, ht, reports_counted (reachable_of_run ht) 1 hcleaned⟩

end Runs

end MinerRegistry

end Verathos.Contracts
